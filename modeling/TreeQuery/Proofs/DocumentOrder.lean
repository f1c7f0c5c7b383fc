import Mathlib.Data.List.Flatten
import TreeQuery.Proofs.Matching
import TreeQuery.Proofs.RoundTrip
import TreeQuery.Proofs.Rows

/-!
# Document order

A query on a document finds nodes in the order of their rows, each at most once, and only such
that are below the root through named nodes. With the mark `>` it finds those directly below the
root.

* `Node.map_tree_subtree_sublist`: a subtree is a part of the tree in pre-order.
* `NamedBelow`: a row below the first one, with named rows on the way.
* `Document.filter_listing_topLevel`: of the nodes of a document, those directly below the root.
* `Selector.parse_marked`: the same selector with the mark.
* `Document.find_in_document_order`: the order and the place of what a query finds.
-/

namespace TreeQuery

/-! ## Subtrees in pre-order -/

namespace Tree

theorem preorderList_eq_flatMap (ts : List Tree) : preorderList ts = ts.flatMap preorder := by
  induction ts with
  | nil => rfl
  | cons t ts ih => rw [preorderList, ih, List.flatMap_cons]

theorem preorder_eq_cons (t : Tree) : t.preorder = t :: t.children.flatMap preorder := by
  cases t with
  | node row label children => rw [preorder, preorderList_eq_flatMap, Tree.children]

end Tree

namespace Node

/-- What holds of a node and is handed down to named nodes holds in its whole subtree. -/
theorem forall_mem_subtree {P : Node → Prop} (hdown : ∀ n, P n → ∀ c ∈ n.namedChildren, P c)
    {n : Node} (hn : P n) : ∀ m ∈ n.subtree, P m := by
  induction n using subtree.induct with
  | case1 n ih =>
    intro m hm
    rw [subtree_eq_cons, List.mem_cons, List.mem_flatMap] at hm
    rcases hm with rfl | ⟨c, hc, hm⟩
    · exact hn
    · exact ih ⟨c, hc⟩ (hdown n hn c hc) m hm

/-- A node that is further down is directly below a node of the subtree. -/
theorem exists_parent_mem_subtree {n m : Node} (hm : m ∈ listing true n.namedChildren) :
    ∃ k ∈ n.subtree, m ∈ k.namedChildren := by
  induction n using subtree.induct with
  | case1 n ih =>
    rw [subtree_eq_cons]
    obtain ⟨c, hc, hm⟩ := List.mem_flatMap.1 hm
    rw [reach, if_pos rfl, subtree_eq_cons, List.mem_cons] at hm
    rcases hm with rfl | hm
    · exact ⟨n, List.mem_cons_self, hc⟩
    · obtain ⟨k, hk, hmk⟩ := ih ⟨c, hc⟩ hm
      exact ⟨k, List.mem_cons_of_mem n (List.mem_flatMap.2 ⟨c, hc, hk⟩), hmk⟩

/-- The trees of a subtree, in its order, are among those of the tree in pre-order. -/
theorem map_tree_subtree_sublist (n : Node) :
    (n.subtree.map (·.tree)).Sublist n.tree.preorder := by
  induction n using subtree.induct with
  | case1 n ih =>
    rw [subtree_eq_cons, List.map_cons, List.map_flatMap, Tree.preorder_eq_cons]
    refine List.Sublist.cons_cons _ ?_
    have hbelow : (n.namedChildren.flatMap fun c => c.subtree.map (·.tree)).Sublist
        (n.namedChildren.flatMap fun c => c.tree.preorder) :=
      List.Sublist.flatMap_right _ fun c hc => ih ⟨c, hc⟩
    refine hbelow.trans ?_
    rw [← List.flatMap_map Node.tree Tree.preorder, map_tree_namedChildren]
    exact List.filter_sublist.flatMap _

theorem listing_false (nodes : List Node) : listing false nodes = nodes :=
  List.flatMap_singleton' nodes

theorem listing_sublist_descend (descend : Bool) (nodes : List Node) :
    (listing descend nodes).Sublist (listing true nodes) := by
  refine List.Sublist.flatMap_right nodes fun n _ => ?_
  rw [reach_eq_cons_below true]
  cases descend with
  | false => exact List.singleton_sublist.2 List.mem_cons_self
  | true => rw [reach_eq_cons_below]

end Node

/-! ## Rows below the first one -/

/-- The row is below the first row, and it and all rows between the two are named. -/
inductive NamedBelow (rows : List Row) : Nat → Prop
  | child {i : Nat} {label : Label} (hrow : rows[i]? = some ⟨some 0, label⟩)
      (hnamed : label.named = true) : NamedBelow rows i
  | deeper {i j : Nat} {label : Label} (hj : NamedBelow rows j)
      (hrow : rows[i]? = some ⟨some j, label⟩) (hnamed : label.named = true) : NamedBelow rows i

/-- The row of the parent of a row. -/
def parentRow? (rows : List Row) (i : Nat) : Option Nat :=
  rows[i]?.bind Row.parent

theorem NamedBelow.ne_zero {rows : List Row} (h : InPreorder rows) {i : Nat}
    (hi : NamedBelow rows i) : i ≠ 0 := by
  rintro rfl
  obtain ⟨label, hroot⟩ := h.root
  cases hi with
  | child hrow hnamed => cases hroot.symm.trans hrow
  | deeper hj hrow hnamed => cases hroot.symm.trans hrow

namespace Node

/-- The node has a row below the first one, and its tree agrees with the rows. -/
def Placed (rows : List Row) (n : Node) : Prop :=
  NamedBelow rows n.tree.row ∧ ∃ parent, Tree.Fits rows parent n.tree

theorem fits_of_mem_namedChildren {rows : List Row} {parent : Option Nat} {n c : Node}
    (hn : Tree.Fits rows parent n.tree) (hc : c ∈ n.namedChildren) :
    Tree.Fits rows (some n.tree.row) c.tree ∧ c.tree.label.named = true := by
  obtain ⟨hchild, hnamed⟩ := mem_namedChildren.1 hc
  obtain ⟨t, ht, rfl⟩ := mem_children.1 hchild
  exact ⟨hn.of_mem_children ht, hnamed⟩

theorem Placed.of_mem_namedChildren {rows : List Row} {n c : Node} (hn : Placed rows n)
    (hc : c ∈ n.namedChildren) : Placed rows c := by
  obtain ⟨hbelow, parent, hfits⟩ := hn
  obtain ⟨hfits', hnamed⟩ := fits_of_mem_namedChildren hfits hc
  exact ⟨.deeper hbelow hfits'.row_eq hnamed, _, hfits'⟩

theorem Placed.forall_mem_subtree {rows : List Row} {n : Node} (hn : Placed rows n) :
    ∀ m ∈ n.subtree, Placed rows m :=
  Node.forall_mem_subtree (fun _ hn _ hc => hn.of_mem_namedChildren hc) hn

/-- The parent of a node that is further down is not the root. -/
theorem Placed.parentRow?_ne_zero {rows : List Row} (h : InPreorder rows) {n : Node}
    (hn : Placed rows n) {m : Node} (hm : m ∈ listing true n.namedChildren) :
    parentRow? rows m.tree.row ≠ some 0 := by
  obtain ⟨k, hk, hmk⟩ := exists_parent_mem_subtree hm
  obtain ⟨hbelow, parent, hfits⟩ := hn.forall_mem_subtree k hk
  rw [parentRow?, (fits_of_mem_namedChildren hfits hmk).1.row_eq, Option.bind_some, ne_eq,
    Option.some.injEq]
  exact hbelow.ne_zero h

end Node

/-! ## The nodes of a document -/

namespace Document

variable {rows : List Row} {d : Document}

theorem row_tree_of_ofRows? (hd : Tree.ofRows? rows = some d.tree) : d.tree.row = 0 := by
  obtain ⟨label, rest, -, -, ht⟩ := Tree.ofRows?_eq_some_iff.1 hd
  rw [ht, Tree.row]

theorem placed_of_mem_topLevel (hd : Tree.ofRows? rows = some d.tree) {c : Node}
    (hc : c ∈ d.topLevel) : c.Placed rows ∧ parentRow? rows c.tree.row = some 0 := by
  obtain ⟨hfits, hnamed⟩ := Node.fits_of_mem_namedChildren (Tree.fits_of_ofRows? hd) hc
  have hrow := hfits.row_eq
  rw [show d.root.tree.row = 0 from row_tree_of_ofRows? hd] at hrow
  exact ⟨⟨.child hrow hnamed, _, hfits⟩, by rw [parentRow?, hrow]; rfl⟩

theorem placed_of_mem_listing (hd : Tree.ofRows? rows = some d.tree) {n : Node}
    (hn : n ∈ Node.listing true d.topLevel) : n.Placed rows := by
  obtain ⟨c, hc, hn⟩ := List.mem_flatMap.1 hn
  exact (placed_of_mem_topLevel hd hc).1.forall_mem_subtree n hn

/-- The nodes of a document are listed in the order of their rows. -/
theorem map_row_listing_increasing (hd : Tree.ofRows? rows = some d.tree) :
    ((Node.listing true d.topLevel).map (·.tree.row)).Pairwise (· < ·) := by
  have hsub : (d.root.subtree.map (·.tree.row)).Sublist (List.range rows.length) := by
    have htrees := (Node.map_tree_subtree_sublist d.root).map Tree.row
    rw [List.map_map] at htrees
    rw [← Tree.map_row_preorder_of_ofRows? hd]
    exact htrees
  have hincreasing := List.pairwise_lt_range.sublist hsub
  rw [Node.subtree_eq_cons, List.map_cons] at hincreasing
  exact hincreasing.of_cons

/-- Of the nodes of a document, those whose parent is the root are the given ones. -/
theorem filter_listing_topLevel (h : InPreorder rows) (hd : Tree.ofRows? rows = some d.tree) :
    (Node.listing true d.topLevel).filter (fun n => parentRow? rows n.tree.row = some 0) =
      d.topLevel := by
  rw [Node.listing, List.filter_flatMap]
  calc _ = d.topLevel.flatMap fun c => [c] := ?_
    _ = d.topLevel := List.flatMap_singleton' d.topLevel
  refine List.flatMap_congr fun c hc => ?_
  obtain ⟨hplaced, hparent⟩ := placed_of_mem_topLevel hd hc
  rw [Node.reach, if_pos rfl, Node.subtree_eq_cons,
    List.filter_cons_of_pos (by simpa using hparent)]
  refine congrArg (c :: ·) (List.filter_eq_nil_iff.2 fun m hm => ?_)
  simpa using hplaced.parentRow?_ne_zero h hm

end Document

/-! ## The mark -/

namespace Selector

open Grammar

/-- A sentence without the mark says the same with it, but that the query does not descend. -/
theorem denotes_marked {words : List Word} {s : Selector} (h : Denotes words s)
    (hs : s.descend = true) (text : String) :
    Denotes ((.greaterThan, text) :: words) { s with descend := false } := by
  obtain ⟨pairs, hsentence, hnodup, hpairs⟩ := h
  refine ⟨pairs, ?_, hnodup, hpairs⟩
  rw [hs] at hsentence
  cases hsentence with
  | intro kind hm hp hr =>
    cases hm with
    | absent => exact .intro s.kind (.present text) hp hr

/-- With the mark in front, a text is read as the same selector, but that it does not descend. -/
theorem parse_marked {text : String} {s : Selector} (h : parse text = .ok s)
    (hs : s.descend = true) : parse (">" ++ text) = .ok { s with descend := false } := by
  obtain ⟨ts, hscan, hdenotes⟩ := parse_eq_ok_iff.1 h
  obtain ⟨us, hus, hwords⟩ := scanFrom_words hscan 1
  have hmark : Reads ['>'] text.toList [(.greaterThan, String.ofList ['>'])] :=
    Reads.symbol (by decide) _
  obtain ⟨ms, hms, hscan'⟩ := hmark 0
  refine parse_eq_ok_iff.2 ⟨ms ++ us, ?_, ?_⟩
  · rw [scan, String.toList_append]
    exact hscan'.trans (by rw [Nat.zero_add, List.length_singleton, hus]; rfl)
  · rw [solidWords_eq_filter] at hdenotes ⊢
    rw [List.map_append, hms, hwords]
    exact denotes_marked hdenotes hs _

end Selector

/-! ## What a query on a document finds -/

namespace Document

variable {rows : List Row} {d : Document} {text : String} {found : List Node}

theorem find_eq_ok_iff :
    d.find text = .ok found ↔ ∃ s q, Selector.parse text = .ok s ∧
      Query.ofSelector .standard s = .ok q ∧ q.run d.topLevel = found := by
  simp only [find, TreeQuery.find, Result.bind_eq_ok_iff, Result.mapError_eq_ok_iff,
    Result.map_eq_ok_iff]
  constructor
  · rintro ⟨s, hs, q, hq, hrun⟩
    exact ⟨s, q, hs, hq, hrun⟩
  · rintro ⟨s, q, hs, hq, hrun⟩
    exact ⟨s, hs, q, hq, hrun⟩

/-- Nothing is found but what is listed, and in that order. -/
theorem find_sublist (h : d.find text = .ok found) :
    found.Sublist (Node.listing true d.topLevel) := by
  obtain ⟨s, q, -, -, rfl⟩ := find_eq_ok_iff.1 h
  exact (q.run_sublist d.topLevel).trans (Node.listing_sublist_descend _ _)

/-- Without refinements, the mark keeps what is directly below the root. -/
theorem find_marked (hrows : InPreorder rows) (hd : Tree.ofRows? rows = some d.tree)
    {s : Selector} (hs : Selector.parse text = .ok s) (hdescend : s.descend = true)
    (hrefinements : s.refinements = []) (h : d.find text = .ok found) :
    d.find (">" ++ text) =
      .ok (found.filter fun n => parentRow? rows n.tree.row = some 0) := by
  obtain ⟨s', q, hs', hq, rfl⟩ := find_eq_ok_iff.1 h
  obtain rfl := Except.ok.inj (hs.symm.trans hs')
  obtain ⟨target, -, hstages, -, hq'⟩ := Query.ofSelector_eq_ok_iff.1 hq
  have hnone : q.stages = [] := by
    rw [hrefinements] at hstages
    exact (Except.ok.inj hstages).symm
  refine find_eq_ok_iff.2 ⟨_, _, Selector.parse_marked hs hdescend,
    Query.ofSelector_with_descend hq false, ?_⟩
  rw [Query.run_eq_filter, Query.run_eq_filter, hq', hdescend, hnone]
  calc (Node.listing false d.topLevel).filter q.accepts
    _ = d.topLevel.filter q.accepts := by rw [Node.listing_false]
    _ = ((Node.listing true d.topLevel).filter _).filter q.accepts := by
      rw [filter_listing_topLevel hrows hd]
    _ = _ := List.filter_comm _ _ _

/-- Whatever rows in pre-order a document has: a query that is not refused finds nodes in the order
    of their rows and none of them twice, each of them below the root through named nodes. A
    selector without refinements finds with the mark `>` in front those of them whose parent is
    the root. -/
theorem find_in_document_order (hrows : InPreorder rows) (source : String) :
    ∃ tree, Tree.ofRows? rows = some tree ∧
      ∀ text found, (Document.mk source tree).find text = .ok found →
        (found.map (·.tree.row)).Pairwise (· < ·) ∧
        (∀ n ∈ found, NamedBelow rows n.tree.row ∧
          rows[n.tree.row]?.map Row.label = some n.tree.label) ∧
        ∀ s, Selector.parse text = .ok s → s.descend = true → s.refinements = [] →
          (Document.mk source tree).find (">" ++ text) =
            .ok (found.filter fun n => parentRow? rows n.tree.row = some 0) := by
  obtain ⟨tree, htree⟩ := Tree.exists_ofRows?_eq_some hrows
  refine ⟨tree, htree, fun text found h => ⟨?_, fun n hn => ?_, ?_⟩⟩
  · exact (map_row_listing_increasing htree).sublist ((find_sublist h).map _)
  · obtain ⟨hbelow, parent, hfits⟩ := placed_of_mem_listing htree ((find_sublist h).subset hn)
    exact ⟨hbelow, by rw [hfits.row_eq, Option.map_some]⟩
  · intro s hs hdescend hrefinements
    exact find_marked hrows htree hs hdescend hrefinements h

/-- An output statement, and a block with another one between unnamed braces. -/
def blockRows : List Row :=
  [⟨none, .faultless "program" 0 19 true []⟩,
    ⟨some 0, .faultless "echo_statement" 0 7 true []⟩,
    ⟨some 0, .faultless "compound_statement" 8 19 true []⟩,
    ⟨some 2, .faultless "\x7b" 8 9 false []⟩,
    ⟨some 2, .faultless "echo_statement" 10 17 true []⟩,
    ⟨some 2, .faultless "\x7d" 18 19 false []⟩]

theorem blockRows_inPreorder : InPreorder blockRows where
  root := ⟨_, rfl⟩
  parent i row hrow := by
    match i with
    | 0 =>
      cases hrow
      exact ⟨0, rfl, .self⟩
    | 1 =>
      cases hrow
      exact ⟨0, rfl, .above rfl .self⟩
    | 2 =>
      cases hrow
      exact ⟨2, rfl, .self⟩
    | 3 | 4 =>
      cases hrow
      exact ⟨2, rfl, .above rfl .self⟩
    | _ + 5 => cases hrow

/-- Both statements are found, and with the mark the one that is not in the block. -/
theorem find_in_document_order_block :
    let source := "echo 1; \x7b echo 2; \x7d"
    let text := "construct[name=echo]"
    InPreorder blockRows ∧ ∃ tree found, Tree.ofRows? blockRows = some tree ∧
      (Document.mk source tree).find text = .ok found ∧ found.map (·.tree.row) = [1, 4] ∧
      (∀ n ∈ found, NamedBelow blockRows n.tree.row) ∧
      (Document.mk source tree).find (">" ++ text) =
        .ok (found.filter fun n => parentRow? blockRows n.tree.row = some 0) := by
  intro source text
  obtain ⟨tree, htree, hfind⟩ := find_in_document_order blockRows_inPreorder source
  have hrows : (Tree.ofRows? blockRows).map (fun tree =>
      ((Document.mk source tree).find text).map fun found => found.map (·.tree.row)) =
        some (.ok [1, 4]) := by
    decide +kernel
  rw [htree, Option.map_some, Option.some.injEq] at hrows
  obtain ⟨found, hfound, hfoundRows⟩ := Result.map_eq_ok_iff.1 hrows
  obtain ⟨-, hbelow, hmarked⟩ := hfind text found hfound
  refine ⟨blockRows_inPreorder, tree, found, htree, hfound, hfoundRows, fun n hn => (hbelow n hn).1,
    hmarked ⟨"construct", ⟨[("name", "echo")], by decide⟩, true, []⟩ (by decide +kernel) rfl rfl⟩

end Document

end TreeQuery
