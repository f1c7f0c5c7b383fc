/-!
# Syntax trees

The syntax tree of a source text as an external parser hands it over. Every node knows the kind
the grammar gives it, the bytes it covers, the fields it fills in its parent, and whether the
parser made it up to get past a fault.

A tree can be written down as a list of rows, one for each node, every node before those below
it. `Tree.ofRows?` reads such a list; a node keeps the number of its row.
-/

namespace TreeQuery

/-- What is known of a node apart from its place in the tree. -/
structure Label where
  /-- The kind of the node in the grammar. -/
  kind : String
  /-- Offset of its first byte in the source. -/
  start : Nat
  /-- Offset of the byte behind its last one. -/
  stop : Nat
  /-- Named nodes are those that stand for more than a fixed piece of text. -/
  named : Bool
  /-- The parser could make no sense of this part. -/
  error : Bool
  /-- The parser put this node in where one was missing. -/
  missing : Bool
  /-- The fields of the parent that this node fills. -/
  fields : List String
  deriving DecidableEq, Repr

/-- Does the label say that something is wrong here? -/
def Label.faulty (l : Label) : Bool :=
  l.error || l.missing

/-- The label of a node with which nothing is wrong. -/
def Label.faultless (kind : String) (start stop : Nat) (named : Bool) (fields : List String) :
    Label :=
  ⟨kind, start, stop, named, false, false, fields⟩

/-- A syntax tree. Every node has the number of its row. -/
inductive Tree where
  | node (row : Nat) (label : Label) (children : List Tree)

namespace Tree

/-- The number of the row of a node. -/
def row : Tree → Nat
  | node row _ _ => row

/-- The label of a node. -/
def label : Tree → Label
  | node _ label _ => label

/-- The nodes directly below a node, in order. -/
def children : Tree → List Tree
  | node _ _ children => children

mutual

/-- The number of nodes of a tree. -/
def size : Tree → Nat
  | node _ _ children => sizeList children + 1

/-- The number of nodes of several trees. -/
def sizeList : List Tree → Nat
  | [] => 0
  | t :: ts => size t + sizeList ts

end

mutual

/-- All nodes of a tree, every node before those below it. -/
def preorder : Tree → List Tree
  | node row label children => node row label children :: preorderList children

/-- All nodes of several trees, tree by tree. -/
def preorderList : List Tree → List Tree
  | [] => []
  | t :: ts => preorder t ++ preorderList ts

end

end Tree

/-! ## Trees as rows -/

/-- A node on a line of its own: the row of its parent, if it has one, and its label. -/
structure Row where
  parent : Option Nat
  label : Label
  deriving DecidableEq, Repr

namespace Tree

/-- The trees at the front of numbered rows whose roots have the given parent, and the rows
    behind them. -/
def forest (parent : Nat) (rows : List (Row × Nat)) :
    List Tree × { rest : List (Row × Nat) // rest.length ≤ rows.length } :=
  match rows with
  | [] => ([], ⟨[], Nat.le_refl _⟩)
  | (row, i) :: rows =>
    if row.parent = some parent then
      let below := forest i rows
      let beside := forest parent below.2.1
      (node i row.label below.1 :: beside.1,
        ⟨beside.2.1, Nat.le_succ_of_le (Nat.le_trans beside.2.2 below.2.2)⟩)
    else ([], ⟨(row, i) :: rows, Nat.le_refl _⟩)
termination_by rows.length
decreasing_by
  · simp
  · exact Nat.lt_succ_of_le below.2.2

/-- The tree of a list of rows, if the list is one tree in which every node comes before those
    below it. -/
def ofRows? (rows : List Row) : Option Tree :=
  match rows.zipIdx with
  | [] => none
  | (row, i) :: rest =>
    let below := forest i rest
    if row.parent.isNone && below.2.1.isEmpty then some (node i row.label below.1) else none

end Tree

end TreeQuery
