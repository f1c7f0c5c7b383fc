import TreeQuery.Query.Stage

/-!
# Laws of stages

A stage leaves out items and changes neither the others nor their order, and so do several stages
one after the other.
-/

namespace TreeQuery.Stage

variable {α : Type}

theorem everySecond_sublist (items : List α) : (everySecond items).Sublist items := by
  fun_induction everySecond items with
  | case1 => exact .slnil
  | case2 x => exact .refl [x]
  | case3 x y rest ih => exact (ih.cons y).cons_cons x

theorem apply_sublist (stage : Stage) (items : List α) : (stage.apply items).Sublist items := by
  have hget : ∀ k : Nat, items[k]?.toList.Sublist items := by
    intro k
    cases h : items[k]? with
    | none => exact List.nil_sublist items
    | some x => exact List.singleton_sublist.2 (List.mem_of_getElem? h)
  cases stage with
  | first => exact List.take_sublist 1 items
  | last =>
    rw [apply, List.getLast?_eq_getElem?]
    exact hget _
  | eq index =>
    rw [apply]
    split
    · exact List.nil_sublist items
    · exact hget _
  | gt index =>
    rw [apply]
    split
    · exact .refl items
    · exact List.drop_sublist _ items
  | lt index =>
    rw [apply]
    split
    · exact List.nil_sublist items
    · exact List.take_sublist _ items
  | even => exact everySecond_sublist items
  | odd => exact (everySecond_sublist _).trans (List.drop_sublist 1 items)

theorem applyAll_sublist (stages : List Stage) (items : List α) :
    (applyAll stages items).Sublist items := by
  induction stages generalizing items with
  | nil => exact .refl items
  | cons stage stages ih => exact (ih (stage.apply items)).trans (stage.apply_sublist items)

theorem applyAll_nil_items (stages : List Stage) : applyAll stages ([] : List α) = [] :=
  List.sublist_nil.1 (applyAll_sublist stages [])

end TreeQuery.Stage
