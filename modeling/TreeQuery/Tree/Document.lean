import TreeQuery.Tree.Node

/-!
# Documents

A source text together with its syntax tree.
-/

namespace TreeQuery

/-- A source text and its syntax tree (`Code`). -/
structure Document where
  source : String
  tree : Tree

/-- A part of a source that the parser could not read, or that it found missing
    (`SyntaxErrorNode`). -/
structure SyntaxFault where
  start : Nat
  stop : Nat
  point : Point
  missing : Bool
  deriving DecidableEq, Repr

namespace Document

/-- A source without statements: of its tree nothing is known but the root. -/
def plain (source : String) : Document :=
  ⟨source, .node 0 (.faultless "program" 0 source.utf8ByteSize true []) []⟩

/-- The node of the whole source (`Code::root`). -/
def root (d : Document) : Node :=
  ⟨d.source, d.tree, []⟩

/-- The statements of the source (`Code::nodes`): what a query starts from. -/
def topLevel (d : Document) : List Node :=
  d.root.namedChildren

/-- The fault that a label stands for. -/
def faultAt (source : String) (label : Label) : SyntaxFault :=
  ⟨label.start, label.stop, Point.ofOffset source label.start, label.missing⟩

mutual

/-- Add the faults of a tree to those found before (`collect_error_nodes`): first that of the root,
    then those below. -/
def addFaults (source : String) (found : Array SyntaxFault) : Tree → Array SyntaxFault
  | .node _ label children =>
    addFaultsList source (if label.faulty then found.push (faultAt source label) else found)
      children

/-- Add the faults of several trees, tree by tree. -/
def addFaultsList (source : String) (found : Array SyntaxFault) : List Tree → Array SyntaxFault
  | [] => found
  | t :: ts => addFaultsList source (addFaults source found t) ts

end

/-- The faults of the source, in document order (`Code::syntax_errors`). -/
def faults (d : Document) : List SyntaxFault :=
  (addFaults d.source #[] d.tree).toList

mutual

/-- Is there a fault anywhere in the tree? -/
def faultyTree : Tree → Bool
  | .node _ label children => label.faulty || faultyTrees children

/-- Is there a fault in one of the trees? -/
def faultyTrees : List Tree → Bool
  | [] => false
  | t :: ts => faultyTree t || faultyTrees ts

end

/-- Does the source have faults (`Code::has_errors`)? -/
def hasFaults (d : Document) : Bool :=
  faultyTree d.tree

end Document

end TreeQuery
