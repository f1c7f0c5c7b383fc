import Mathlib.Data.List.Basic
import TreeQuery.Tree.Basic

/-!
# Trees and their rows

Rows in pre-order are the rows of a tree, and the tree agrees with them.

* `InPreorder`: the first row has no parent, and the parent of every other row is the row in front
  of it or one above that.
* `Tree.Fits`: the nodes of a tree have the labels and parents that their rows say.
* `Tree.map_row_preorder_of_ofRows?`, `Tree.map_label_preorder_of_ofRows?`: the nodes of a tree in
  pre-order are its rows, one after the other.
* `Tree.exists_ofRows?_eq_some`: rows in pre-order are the rows of a tree.
-/

namespace TreeQuery

/-! ## Rows in pre-order -/

/-- The row `j` is the row `i`, its parent, the parent of its parent, and so on. -/
inductive AtOrAbove (rows : List Row) (j : Nat) : Nat → Prop
  | self : AtOrAbove rows j j
  | above {i k : Nat} {label : Label} (hi : rows[i]? = some ⟨some k, label⟩)
      (hk : AtOrAbove rows j k) : AtOrAbove rows j i

/-- The rows are those of one tree in which every node comes before those below it: every row but
    the first is put under the row in front of it, or under one above that. -/
structure InPreorder (rows : List Row) : Prop where
  root : ∃ label, rows[0]? = some ⟨none, label⟩
  parent : ∀ i row, rows[i + 1]? = some row → ∃ j, row.parent = some j ∧ AtOrAbove rows j i

namespace Tree

/-- The root of a tree has the label and the parent of its row, and so have all nodes below. -/
inductive Fits (rows : List Row) : Option Nat → Tree → Prop
  | node {parent : Option Nat} {i : Nat} {label : Label} {children : List Tree}
      (hrow : rows[i]? = some ⟨parent, label⟩) (hbelow : ∀ c ∈ children, Fits rows (some i) c) :
      Fits rows parent (.node i label children)

theorem Fits.row_eq {rows : List Row} {parent : Option Nat} {t : Tree} (h : Fits rows parent t) :
    rows[t.row]? = some ⟨parent, t.label⟩ := by
  cases h with
  | node hrow hbelow => exact hrow

theorem Fits.of_mem_children {rows : List Row} {parent : Option Nat} {t c : Tree}
    (h : Fits rows parent t) (hc : c ∈ t.children) : Fits rows (some t.row) c := by
  cases h with
  | node hrow hbelow => exact hbelow c hc

/-! ## The trees at the front of rows -/

/-- A forest and the rows behind it are the given rows, in what `f` reads off them. -/
theorem map_forest {β : Type} (f : Label → Nat → β) (parent : Nat) (xs : List (Row × Nat)) :
    (preorderList (forest parent xs).1).map (fun t => f t.label t.row) ++
      (forest parent xs).2.1.map (fun x => f x.1.label x.2) =
        xs.map fun x => f x.1.label x.2 := by
  fun_induction forest parent xs with
  | case1 parent => rfl
  | case2 parent row i xs hparent below beside ih ih' =>
    have hbelow : (preorderList below.1).map (fun t => f t.label t.row) ++
        below.2.1.map (fun x => f x.1.label x.2) = xs.map fun x => f x.1.label x.2 := ih
    have hbeside : (preorderList beside.1).map (fun t => f t.label t.row) ++
        beside.2.1.map (fun x => f x.1.label x.2) =
          below.2.1.map fun x => f x.1.label x.2 := ih'
    simp only [preorderList, preorder, List.cons_append, List.map_cons, List.map_append,
      List.append_assoc]
    rw [hbeside, hbelow]
    rfl
  | case3 parent row i xs hparent => rfl

theorem fits_forest {rows : List Row} {parent : Nat} {xs : List (Row × Nat)}
    (hxs : ∀ x ∈ xs, rows[x.2]? = some x.1) :
    (∀ t ∈ (forest parent xs).1, Fits rows (some parent) t) ∧ (forest parent xs).2.1 ⊆ xs := by
  fun_induction forest parent xs with
  | case1 parent => simp
  | case2 parent row i xs hparent below beside ih ih' =>
    rw [List.forall_mem_cons] at hxs
    obtain ⟨hbelow, hrest⟩ := ih hxs.2
    obtain ⟨hbeside, hrest'⟩ := ih' fun x hx => hxs.2 x (hrest hx)
    refine ⟨List.forall_mem_cons.2 ⟨.node ?_ hbelow, hbeside⟩, ?_⟩
    · rw [hxs.1, ← hparent]
    · exact List.Subset.trans hrest' (List.Subset.trans hrest (List.subset_cons_self _ _))
  | case3 parent row i xs hparent => simp

/-! ## The tree of all rows -/

theorem ofRows?_eq_some_iff {rows : List Row} {t : Tree} :
    ofRows? rows = some t ↔ ∃ label rest, rows.zipIdx = (⟨none, label⟩, 0) :: rest ∧
      (forest 0 rest).2.1 = [] ∧ t = .node 0 label (forest 0 rest).1 := by
  cases rows with
  | nil => simp [ofRows?]
  | cons row rows =>
    obtain ⟨parent, label⟩ := row
    simp only [ofRows?, List.zipIdx_cons, Nat.zero_add, Option.ite_none_right_eq_some,
      Bool.and_eq_true, Option.isNone_iff_eq_none, List.isEmpty_iff, Option.some.injEq]
    constructor
    · rintro ⟨⟨rfl, hrest⟩, rfl⟩
      exact ⟨label, _, rfl, hrest, rfl⟩
    · rintro ⟨label', rest, heq, hrest, rfl⟩
      cases heq
      exact ⟨⟨rfl, hrest⟩, rfl⟩

/-- The nodes of a tree in pre-order are its rows, in what `f` reads off them. -/
theorem map_preorder_of_ofRows? {β : Type} (f : Label → Nat → β) {rows : List Row} {t : Tree}
    (h : ofRows? rows = some t) :
    t.preorder.map (fun u => f u.label u.row) = rows.zipIdx.map fun x => f x.1.label x.2 := by
  obtain ⟨label, rest, hrows, hrest, rfl⟩ := ofRows?_eq_some_iff.1 h
  have hforest := map_forest f 0 rest
  rw [hrest, List.map_nil, List.append_nil] at hforest
  rw [preorder, List.map_cons, hforest, hrows, List.map_cons, row, Tree.label]

/-- The nodes of a tree in pre-order have the rows one after the other. -/
theorem map_row_preorder_of_ofRows? {rows : List Row} {t : Tree} (h : ofRows? rows = some t) :
    t.preorder.map row = List.range rows.length := by
  calc t.preorder.map row
    _ = rows.zipIdx.map (·.2) := map_preorder_of_ofRows? (fun _ i => i) h
    _ = List.range rows.length := by rw [List.zipIdx_map_snd, List.range_eq_range']

/-- The nodes of a tree in pre-order have the labels of the rows. -/
theorem map_label_preorder_of_ofRows? {rows : List Row} {t : Tree} (h : ofRows? rows = some t) :
    t.preorder.map label = rows.map Row.label := by
  calc t.preorder.map label
    _ = rows.zipIdx.map (Row.label ∘ Prod.fst) := map_preorder_of_ofRows? (fun l _ => l) h
    _ = rows.map Row.label := by rw [← List.map_map, List.zipIdx_map_fst]

theorem fits_of_ofRows? {rows : List Row} {t : Tree} (h : ofRows? rows = some t) :
    Fits rows none t := by
  obtain ⟨label, rest, hrows, -, rfl⟩ := ofRows?_eq_some_iff.1 h
  have hmem : ∀ x ∈ rows.zipIdx, rows[x.2]? = some x.1 := fun x hx =>
    List.mem_zipIdx_iff_getElem?.1 hx
  rw [hrows, List.forall_mem_cons] at hmem
  exact .node hmem.1 (fits_forest hmem.2).1

/-! ## Rows in pre-order are the rows of a tree -/

/-- The rows `xs` end `rows`, and the parent of the first of them is the row `i` or one above. -/
def Follows (rows : List Row) (i : Nat) (xs : List (Row × Nat)) : Prop :=
  xs <:+ rows.zipIdx ∧ ∀ x ∈ xs.head?, ∃ j, x.1.parent = some j ∧ AtOrAbove rows j i

/-- The row behind a row is put under it, or under one above it. -/
theorem follows_tail {rows : List Row} (h : InPreorder rows) {row : Row} {i : Nat}
    {xs : List (Row × Nat)} (hxs : (row, i) :: xs <:+ rows.zipIdx) : Follows rows i xs := by
  refine ⟨(List.suffix_cons _ _).trans hxs, fun x hx => ?_⟩
  cases xs with
  | nil => cases hx
  | cons y xs =>
    obtain rfl : y = x := Option.some.inj hx
    obtain ⟨front, hfront⟩ := hxs
    have hrow : rows.zipIdx[front.length]? = some (row, i) := by simp [← hfront]
    have hnext : rows.zipIdx[front.length + 1]? = some y := by simp [← hfront]
    rw [List.getElem?_zipIdx, Nat.zero_add] at hrow hnext
    obtain ⟨_, -, hi⟩ := Option.map_eq_some_iff.1 hrow
    obtain ⟨next, hget, rfl⟩ := Option.map_eq_some_iff.1 hnext
    cases hi
    exact h.parent front.length next hget

/-- A forest takes all rows that belong to it: the first row it leaves is put under a row above
    its own parent. -/
theorem follows_forest {rows : List Row} (h : InPreorder rows) {parent : Nat}
    {xs : List (Row × Nat)} (hxs : Follows rows parent xs) :
    Follows rows parent (forest parent xs).2.1 ∧
      ∀ x ∈ (forest parent xs).2.1.head?, x.1.parent ≠ some parent := by
  fun_induction forest parent xs with
  | case1 parent => simpa using hxs
  | case2 parent row i xs hparent below beside ih ih' =>
    obtain ⟨hbelow, hne⟩ := ih (follows_tail h hxs.1)
    refine ih' ⟨hbelow.1, fun x hx => ?_⟩
    -- a row above row `i` is its parent or above that
    obtain ⟨j, hj, habove⟩ := hbelow.2 x hx
    refine ⟨j, hj, ?_⟩
    cases habove with
    | self => exact absurd hj (hne x hx)
    | above hi hk =>
      have hrow := List.mem_zipIdx_iff_getElem?.1 (hxs.1.subset List.mem_cons_self)
      obtain rfl := Option.some.inj (hrow.symm.trans hi)
      obtain rfl := Option.some.inj hparent
      exact hk
  | case3 parent row i xs hparent => exact ⟨hxs, by simpa using hparent⟩

/-- Rows in pre-order are the rows of a tree. -/
theorem exists_ofRows?_eq_some {rows : List Row} (h : InPreorder rows) :
    ∃ t, ofRows? rows = some t := by
  obtain ⟨label, hroot⟩ := h.root
  cases rows with
  | nil => cases hroot
  | cons row rows =>
    obtain rfl := Option.some.inj hroot
    obtain ⟨hrest, hne⟩ := follows_forest h (follows_tail h (List.suffix_refl _))
    refine ⟨_, ofRows?_eq_some_iff.2 ⟨label, _, rfl, ?_, rfl⟩⟩
    -- nothing is above the root, so nothing is left
    refine List.head?_eq_none_iff.1 (Option.eq_none_iff_forall_not_mem.2 fun x hx => ?_)
    obtain ⟨j, hj, habove⟩ := hrest.2 x hx
    cases habove with
    | self => exact hne x hx hj
    | above hi hk => cases hi

end Tree

end TreeQuery
