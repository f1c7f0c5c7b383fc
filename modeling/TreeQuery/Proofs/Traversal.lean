import TreeQuery.Tree.Node

/-!
# Traversal

A search works off stacks of nodes. What it finds is said here without stacks.

* `subtree`: a node and what is below it through named nodes, by recursion on the tree.
* `listing`: the nodes that a search looks at, in its order.
* `search_toList`: what is left to do with a stack is the listing of its nodes from the top on.
* `collect_eq_filter`: a search finds the accepted nodes of its listing.
-/

namespace TreeQuery

theorem Tree.size_le_sizeList {t : Tree} {ts : List Tree} (h : t ∈ ts) :
    t.size ≤ sizeList ts := by
  induction h with
  | head ts => simp only [sizeList]; omega
  | tail u _ ih => simp only [sizeList]; omega

namespace Node

/-! ## Listings -/

theorem mem_children {c n : Node} :
    c ∈ n.children ↔ ∃ t ∈ n.tree.children, c = ⟨n.source, t, n.tree :: n.ancestors⟩ := by
  simp only [children, List.mem_map, eq_comm]

theorem mem_namedChildren {c n : Node} :
    c ∈ n.namedChildren ↔ c ∈ n.children ∧ c.tree.label.named = true := by
  rw [namedChildren, List.mem_filter]

theorem size_lt_of_mem_namedChildren {c n : Node} (h : c ∈ n.namedChildren) :
    c.tree.size < n.tree.size := by
  obtain ⟨t, ht, rfl⟩ := mem_children.1 (mem_namedChildren.1 h).1
  have hle := Tree.size_le_sizeList ht
  cases hn : n.tree with
  | node row label children =>
    rw [hn, Tree.children] at hle
    rw [Tree.size]
    exact Nat.lt_succ_of_le hle

/-- A node followed by the subtrees of the named nodes directly below it. -/
def subtree (n : Node) : List Node :=
  n :: n.namedChildren.attach.flatMap fun c => subtree c.1
termination_by n.tree.size
decreasing_by exact size_lt_of_mem_namedChildren c.2

theorem subtree_eq_cons (n : Node) : n.subtree = n :: n.namedChildren.flatMap subtree := by
  rw [subtree, List.flatMap_subtype (fun _ _ => rfl), List.unattach_attach]

/-- The nodes that a search looks at for one given node. -/
def reach (descend : Bool) (n : Node) : List Node :=
  if descend then n.subtree else [n]

/-- The nodes that a search looks at for several given nodes, one after the other. -/
def listing (descend : Bool) (nodes : List Node) : List Node :=
  nodes.flatMap fun n => n.reach descend

/-! ## Stacks -/

/-- The nodes that take the place of a node on the stack stand for the rest of its listing. -/
theorem reach_eq_cons_below (descend : Bool) (n : Node) :
    n.reach descend = n :: listing descend (n.below descend).reverse := by
  cases descend with
  | false => rfl
  | true =>
    rw [reach, if_pos rfl, subtree_eq_cons, below, if_pos rfl, List.reverse_reverse]
    rfl

theorem listing_append (descend : Bool) (ms ns : List Node) :
    listing descend (ms ++ ns) = listing descend ms ++ listing descend ns :=
  List.flatMap_append

theorem listing_singleton (descend : Bool) (n : Node) : listing descend [n] = n.reach descend := by
  rw [listing, List.flatMap_singleton]

/-- A search adds to what has been found the accepted nodes of the stack's listing, where the top
    of the stack comes first. -/
theorem search_toList (accepts : Node → Bool) (descend : Bool) (stack found : Array Node) :
    (search accepts descend stack found).toList =
      found.toList ++ (listing descend stack.toList.reverse).filter accepts := by
  fun_induction search accepts descend stack found with
  | case1 stack found hback =>
    rw [Array.back?_eq_none_iff.1 hback]
    simp [listing]
  | case2 stack found n hback ih =>
    obtain ⟨rest, rfl⟩ := Array.back?_eq_some_iff.1 hback
    -- the node on top is looked at now, the nodes put in its place come next
    have hstack : listing descend (rest.push n).toList.reverse =
        n :: listing descend ((rest.push n).pop ++ n.below descend).toList.reverse := by
      rw [Array.pop_push, Array.toList_appendList, Array.toList_push, List.reverse_append,
        List.reverse_append, listing_append, listing_append, List.reverse_singleton,
        listing_singleton, reach_eq_cons_below, List.cons_append]
    rw [dite_eq_ite] at ih
    rw [ih, hstack]
    by_cases hn : accepts n = true
    · rw [if_pos hn, List.filter_cons_of_pos hn, Array.toList_push, List.append_assoc,
        List.singleton_append]
    · rw [if_neg hn, List.filter_cons_of_neg hn]

/-- A search finds the accepted nodes of its listing: each as often as it is listed, and in that
    order. -/
theorem collect_eq_filter (accepts : Node → Bool) (descend : Bool) (nodes : List Node) :
    collect accepts descend nodes = (listing descend nodes).filter accepts := by
  have hfold : ∀ found : Array Node,
      (nodes.foldl (fun found n => search accepts descend #[n] found) found).toList =
        found.toList ++ (listing descend nodes).filter accepts := by
    induction nodes with
    | nil => simp [listing]
    | cons n ns ih =>
      intro found
      have hns : listing descend (n :: ns) = listing descend [n] ++ listing descend ns :=
        listing_append descend [n] ns
      rw [List.foldl_cons, ih, search_toList, hns, List.filter_append, List.append_assoc]
      rfl
  rw [collect, hfold, List.nil_append]

end Node

end TreeQuery
