import TreeQuery.Text.Quoted
import TreeQuery.Tree.Basic

/-!
# Nodes of a source text

A `Node` is a place in the syntax tree of a source text: the subtree there, and the trees above
it, from the nearest one on. So it can be asked for what is below it and for what is above it.

`Node.collect` searches nodes, and what is below them through named nodes, for those that are
accepted. It keeps the nodes still to be looked at on a stack.
-/

namespace TreeQuery

/-- A place in a syntax tree (`SourceNode`). -/
structure Node where
  /-- The text that the tree is about. -/
  source : String
  /-- The subtree at this place. -/
  tree : Tree
  /-- The trees above it, the nearest one first. -/
  ancestors : List Tree

/-- Line and column of a byte in a text, both counted from one. Columns count bytes. -/
structure Point where
  line : Nat
  column : Nat
  deriving DecidableEq, Repr

/-- The point at a byte offset. -/
def Point.ofOffset (source : String) (offset : Nat) : Point :=
  let before := (String.Pos.Raw.extract source ⟨0⟩ ⟨offset⟩).toList
  let onLine := before.reverse.takeWhile fun c => c != '\n'
  ⟨before.count '\n' + 1, onLine.foldl (fun bytes c => bytes + c.utf8Size) 1⟩

namespace Node

/-- The kind of a node in the grammar. -/
def kind (n : Node) : String :=
  n.tree.label.kind

/-- The source text a node covers (`SourceNode::text`). It is empty if the node starts or ends
    inside a character, or behind the end of the source. -/
def text (n : Node) : String :=
  let start : String.Pos.Raw := ⟨n.tree.label.start⟩
  let stop : String.Pos.Raw := ⟨n.tree.label.stop⟩
  if start.isValid n.source && stop.isValid n.source then start.extract n.source stop else ""

/-- Where a node starts (`SourceNode::start_point`). -/
def point (n : Node) : Point :=
  Point.ofOffset n.source n.tree.label.start

/-- The node above a node (`SourceNode::parent`). -/
def parent? (n : Node) : Option Node :=
  match n.ancestors with
  | [] => none
  | tree :: ancestors => some ⟨n.source, tree, ancestors⟩

/-- The nodes directly below a node. -/
def children (n : Node) : List Node :=
  n.tree.children.map fun t => ⟨n.source, t, n.tree :: n.ancestors⟩

/-- The named nodes directly below a node (`SourceNode::named_children`). -/
def namedChildren (n : Node) : List Node :=
  n.children.filter fun c => c.tree.label.named

/-- The node that fills a field (`SourceNode::field`). -/
def field? (n : Node) (name : String) : Option Node :=
  n.children.find? fun c => c.tree.label.fields.contains name

/-- The first named node of a kind directly below a node (`SourceNode::child_of_kind`). -/
def childOfKind? (n : Node) (kind : String) : Option Node :=
  n.namedChildren.find? fun c => c.kind == kind

/-- A node on one line: kind, place and text. -/
def describe (n : Node) : String :=
  let p := n.point
  n.kind ++ "@" ++ toString p.line ++ ":" ++ toString p.column ++ " " ++ Text.quoted n.text

/-! ## Searching through named nodes -/

/-- The nodes that take the place of a node on the stack of a search: if the search descends, the
    named nodes below it, the last one first. -/
def below (descend : Bool) (n : Node) : List Node :=
  if descend then n.namedChildren.reverse else []

/-- The number of tree nodes at and below several nodes. -/
def weight (nodes : List Node) : Nat :=
  Tree.sizeList (nodes.map (·.tree))

theorem sizeList_append (ts us : List Tree) :
    Tree.sizeList (ts ++ us) = Tree.sizeList ts + Tree.sizeList us := by
  induction ts with
  | nil => simp [Tree.sizeList]
  | cons t ts ih => simp [Tree.sizeList, ih, Nat.add_assoc]

theorem sizeList_reverse (ts : List Tree) : Tree.sizeList ts.reverse = Tree.sizeList ts := by
  induction ts with
  | nil => rfl
  | cons t ts ih =>
    simp only [List.reverse_cons, sizeList_append, ih, Tree.sizeList]
    omega

theorem sizeList_filter_le (p : Tree → Bool) (ts : List Tree) :
    Tree.sizeList (ts.filter p) ≤ Tree.sizeList ts := by
  induction ts with
  | nil => simp
  | cons t ts ih =>
    by_cases h : p t
    · simp only [List.filter_cons_of_pos h, Tree.sizeList]
      omega
    · simp only [List.filter_cons_of_neg h, Tree.sizeList]
      omega

theorem map_tree_namedChildren (n : Node) :
    n.namedChildren.map (·.tree) = n.tree.children.filter fun t => t.label.named := by
  simp only [namedChildren, children, List.filter_map, List.map_map]
  rw [show ((fun m : Node => m.tree) ∘ fun t => Node.mk n.source t (n.tree :: n.ancestors)) = id
    from rfl, List.map_id]
  rfl

theorem weight_append (ms ns : List Node) : weight (ms ++ ns) = weight ms + weight ns := by
  simp only [weight, List.map_append, sizeList_append]

/-- What takes the place of a node weighs less than the node. -/
theorem weight_below_lt (descend : Bool) (n : Node) : weight (n.below descend) < weight [n] := by
  have h := sizeList_filter_le (fun t => t.label.named) n.tree.children
  have hn : n.tree.size = Tree.sizeList n.tree.children + 1 := by
    cases n.tree with
    | node row label children => simp [Tree.size, Tree.children]
  cases descend with
  | false => simp [below, weight, Tree.sizeList, hn]
  | true =>
    simp only [below, if_true, weight, List.map_reverse, sizeList_reverse,
      map_tree_namedChildren, List.map_cons, List.map_nil, Tree.sizeList]
    omega

/-- A stack weighs less after the node on top of it has been replaced. -/
theorem weight_pop_append_lt {stack : Array Node} {n : Node} (h : stack.back? = some n)
    (descend : Bool) :
    weight (stack.pop ++ n.below descend).toList < weight stack.toList := by
  obtain ⟨rest, rfl⟩ := Array.back?_eq_some_iff.1 h
  have := weight_below_lt descend n
  simp only [Array.pop_push, Array.toList_appendList, Array.toList_push, weight_append]
  omega

/-- Work off a stack of nodes, the last one of which is on top, and add those that are accepted to
    `found` (the loop of `collect`): the node on top is taken, and what is below it is put in its
    place. -/
def search (accepts : Node → Bool) (descend : Bool) (stack found : Array Node) : Array Node :=
  match _h : stack.back? with
  | none => found
  | some n =>
    search accepts descend (stack.pop ++ n.below descend)
      (if accepts n then found.push n else found)
termination_by weight stack.toList
decreasing_by exact weight_pop_append_lt _h descend

/-- The accepted nodes among the given ones and, if the search descends, below them (`collect`).
    Every given node is searched with a stack of its own. -/
def collect (accepts : Node → Bool) (descend : Bool) (nodes : List Node) : List Node :=
  (nodes.foldl (fun found n => search accepts descend #[n] found) #[]).toList

end Node

end TreeQuery
