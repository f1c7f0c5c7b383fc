import TreeQuery.Proofs.Rows
import TreeQuery.Tree.Document

/-!
# The faults of a document

The faults of a document are collected by going through its tree, and whether there are any is
asked of the tree as a whole. Both are told here by the rows of the tree.

Results:
* `Document.toList_addFaults`: what going through a tree adds to the faults found before.
* `Document.faultyTree_iff`: a tree has faults if one of its nodes has.
* `Document.faults_of_rows`: the faults are the rows with an error or something missing.
-/

namespace TreeQuery.Document

/-! ## Going through a tree -/

mutual

theorem toList_addFaults (source : String) (found : Array SyntaxFault) (t : Tree) :
    (addFaults source found t).toList =
      found.toList ++ ((t.preorder.map Tree.label).filter Label.faulty).map (faultAt source) := by
  cases t with
  | node row label children =>
    rw [addFaults, toList_addFaultsList, Tree.preorder, List.map_cons, Tree.label]
    by_cases h : label.faulty = true
    · rw [if_pos h, List.filter_cons_of_pos h, Array.toList_push, List.append_assoc, List.map_cons,
        List.singleton_append]
    · rw [if_neg h, List.filter_cons_of_neg h]

theorem toList_addFaultsList (source : String) (found : Array SyntaxFault) (ts : List Tree) :
    (addFaultsList source found ts).toList =
      found.toList ++
        (((Tree.preorderList ts).map Tree.label).filter Label.faulty).map (faultAt source) := by
  cases ts with
  | nil => simp [addFaultsList, Tree.preorderList]
  | cons t ts =>
    rw [addFaultsList, toList_addFaultsList, toList_addFaults, Tree.preorderList, List.map_append,
      List.filter_append, List.map_append, List.append_assoc]

end

mutual

theorem faultyTree_iff (t : Tree) :
    faultyTree t = true ↔ ∃ label ∈ t.preorder.map Tree.label, label.faulty = true := by
  cases t with
  | node row label children =>
    rw [faultyTree, Bool.or_eq_true, faultyTrees_iff, Tree.preorder, List.map_cons,
      List.exists_mem_cons_iff, Tree.label]

theorem faultyTrees_iff (ts : List Tree) :
    faultyTrees ts = true ↔
      ∃ label ∈ (Tree.preorderList ts).map Tree.label, label.faulty = true := by
  cases ts with
  | nil => simp [faultyTrees, Tree.preorderList]
  | cons t ts =>
    rw [faultyTrees, Bool.or_eq_true, faultyTree_iff, faultyTrees_iff, Tree.preorderList,
      List.map_append]
    simp only [List.mem_append, or_and_right, exists_or]

end

/-! ## Faults and rows -/

/-- Whatever rows in pre-order a document has: its faults are the rows that are an error or stand
    for something missing, named or not, each once, in their order, and each with its own place and
    mark. There are some exactly if the document is said to have faults, which is if there is such a
    row. -/
theorem faults_of_rows {rows : List Row} (hrows : InPreorder rows) (source : String) :
    ∃ tree, Tree.ofRows? rows = some tree ∧
      (Document.mk source tree).faults =
        (rows.filter fun r => r.label.error || r.label.missing).map (fun r =>
          ⟨r.label.start, r.label.stop, Point.ofOffset source r.label.start, r.label.missing⟩) ∧
      ((Document.mk source tree).faults ≠ [] ↔ (Document.mk source tree).hasFaults = true) ∧
      ((Document.mk source tree).hasFaults = true ↔
        ∃ r ∈ rows, r.label.error = true ∨ r.label.missing = true) := by
  obtain ⟨tree, htree⟩ := Tree.exists_ofRows?_eq_some hrows
  have hlabels := Tree.map_label_preorder_of_ofRows? htree
  have hfaults : (Document.mk source tree).faults =
      (rows.filter fun r => r.label.faulty).map fun r => faultAt source r.label := by
    rw [faults, toList_addFaults, hlabels, List.filter_map, List.map_map]
    rfl
  have hfaulty : (Document.mk source tree).hasFaults = true ↔
      ∃ r ∈ rows, r.label.faulty = true := by
    rw [hasFaults, faultyTree_iff, hlabels]
    simp
  refine ⟨tree, htree, hfaults, ?_, ?_⟩
  · rw [hfaulty, hfaults, ne_eq, List.map_eq_nil_iff, List.filter_eq_nil_iff]
    simp
  · simp [hfaulty, Label.faulty]

/-- An error with another one in it, below an unnamed node, and an unnamed node that is missing. -/
def faultyRows : List Row :=
  [⟨none, .faultless "program" 0 4 true []⟩,
    ⟨some 0, ⟨"ERROR", 0, 3, true, true, false, []⟩⟩,
    ⟨some 1, .faultless "(" 1 3 false []⟩,
    ⟨some 2, ⟨"ERROR", 2, 3, true, true, false, []⟩⟩,
    ⟨some 0, ⟨";", 4, 4, false, false, true, []⟩⟩]

theorem faultyRows_inPreorder : InPreorder faultyRows where
  root := ⟨_, rfl⟩
  parent i row hrow := by
    match i with
    | 0 =>
      cases hrow
      exact ⟨0, rfl, .self⟩
    | 1 =>
      cases hrow
      exact ⟨1, rfl, .self⟩
    | 2 =>
      cases hrow
      exact ⟨2, rfl, .self⟩
    | 3 =>
      cases hrow
      exact ⟨0, rfl, .above rfl (.above rfl (.above rfl .self))⟩
    | _ + 4 => cases hrow

/-- Three rows are faults, the last of them on the second line. -/
theorem faults_of_rows_nested :
    InPreorder faultyRows ∧ ∃ tree, Tree.ofRows? faultyRows = some tree ∧
      (Document.mk "f((\n" tree).faults =
        [⟨0, 3, ⟨1, 1⟩, false⟩, ⟨2, 3, ⟨1, 3⟩, false⟩, ⟨4, 4, ⟨2, 1⟩, true⟩] ∧
      (Document.mk "f((\n" tree).hasFaults = true := by
  obtain ⟨tree, htree, hfaults, -, hfaulty⟩ := faults_of_rows faultyRows_inPreorder "f((\n"
  refine ⟨faultyRows_inPreorder, tree, htree, hfaults.trans ?_, hfaulty.2 ?_⟩
  · decide +kernel
  · exact ⟨_, List.mem_cons_of_mem _ List.mem_cons_self, .inl rfl⟩

end TreeQuery.Document
