import Mathlib.Order.Bounds.Basic
import Mathlib.Order.MinMax
import TreeQuery.Text.EditDistance

/-!
# Edits and the edit distance

An edit puts in, leaves out or replaces one character of a text. The edit distance is computed row
by row; what it counts is said here without rows.

Results:
* `Edit`, `Edits`: one edit, and several of them one after the other.
* `distance_cons_cons`: the distance by recursion on both texts.
* `edits_distance`: so many edits suffice.
* `distance_le_of_edit`: one edit brings a text closer to another by at most one.
* `apart_iff`: the edit distance is the least number of edits that turn one text into another.
-/

namespace TreeQuery.Text

/-! ## Edits -/

/-- One edit of a text, at its first character or further on. -/
inductive Edit : List Char → List Char → Prop
  | insert (c : Char) (xs : List Char) : Edit xs (c :: xs)
  | delete (c : Char) (xs : List Char) : Edit (c :: xs) xs
  | replace (c d : Char) (xs : List Char) : Edit (c :: xs) (d :: xs)
  | later (c : Char) {xs ys : List Char} (h : Edit xs ys) : Edit (c :: xs) (c :: ys)

/-- A given number of edits, one after the other. -/
inductive Edits : Nat → List Char → List Char → Prop
  | none (xs : List Char) : Edits 0 xs xs
  | cons {n : Nat} {xs ys zs : List Char} (h : Edit xs ys) (hs : Edits n ys zs) :
      Edits (n + 1) xs zs

/-- Edits may leave a first character alone. -/
theorem Edits.later {n : Nat} {xs ys : List Char} (c : Char) (h : Edits n xs ys) :
    Edits n (c :: xs) (c :: ys) := by
  induction h with
  | none xs => exact .none _
  | cons h _ ih => exact .cons (.later c h) ih

/-! ## The distance by recursion -/

/-- The edit distance of two texts, given by their characters. -/
def distance (xs ys : List Char) : Nat :=
  (distanceRow xs ys).headD 0

/-- The row against a text without its first character is the rest of the row against the text. -/
theorem tail_distanceRow (xs : List Char) (y : Char) (ys : List Char) :
    (distanceRow xs (y :: ys)).tail = distanceRow xs ys := by
  induction xs with
  | nil => rfl
  | cons x xs ih => exact congrArg (extendRow x ys) ih

@[simp] theorem distance_nil_left (ys : List Char) : distance [] ys = ys.length := by
  cases ys <;> rfl

theorem distance_cons_nil (x : Char) (xs : List Char) :
    distance (x :: xs) [] = distance xs [] + 1 := rfl

theorem distance_cons_cons (x y : Char) (xs ys : List Char) :
    distance (x :: xs) (y :: ys) =
      if x = y then distance xs ys
      else 1 + min (distance xs ys) (min (distance xs (y :: ys)) (distance (x :: xs) ys)) := by
  have hrow : distanceRow (x :: xs) ys = extendRow x ys (distanceRow xs (y :: ys)).tail := by
    rw [tail_distanceRow]
    rfl
  rw [distance, distance, distance, distance, hrow, ← tail_distanceRow xs y ys]
  rfl

@[simp] theorem distance_nil_right (xs : List Char) : distance xs [] = xs.length := by
  induction xs with
  | nil => rfl
  | cons x xs ih => rw [distance_cons_nil, ih, List.length_cons]

theorem distance_comm (xs ys : List Char) : distance xs ys = distance ys xs := by
  induction xs generalizing ys with
  | nil => simp
  | cons x xs ih =>
    induction ys with
    | nil => simp
    | cons y ys ih' =>
      rw [distance_cons_cons, distance_cons_cons, ih ys, ih (y :: ys), ih']
      by_cases h : x = y
      · rw [if_pos h, if_pos h.symm]
      · rw [if_neg h, if_neg (Ne.symm h), min_comm (distance (y :: ys) xs)]

/-! ## So many edits suffice -/

theorem edits_of_nil (ys : List Char) : Edits ys.length [] ys := by
  induction ys with
  | nil => exact .none []
  | cons y ys ih => exact .cons (.insert y []) (ih.later y)

theorem edits_distance (xs ys : List Char) : Edits (distance xs ys) xs ys := by
  induction xs generalizing ys with
  | nil =>
    rw [distance_nil_left]
    exact edits_of_nil ys
  | cons x xs ih =>
    induction ys with
    | nil =>
      rw [distance_cons_nil]
      exact .cons (.delete x xs) (ih [])
    | cons y ys ih' =>
      rw [distance_cons_cons]
      split
      · subst y
        exact (ih ys).later x
      · have hreplace : Edits (distance xs ys + 1) (x :: xs) (y :: ys) :=
          .cons (.replace x y xs) ((ih ys).later y)
        have hdelete : Edits (distance xs (y :: ys) + 1) (x :: xs) (y :: ys) :=
          .cons (.delete x xs) (ih (y :: ys))
        have hinsert : Edits (distance (x :: xs) ys + 1) (x :: xs) (y :: ys) :=
          .cons (.insert y (x :: xs)) (ih'.later y)
        -- the least of the three numbers is one of them
        rw [Nat.add_comm]
        rcases min_choice (distance xs ys) (min (distance xs (y :: ys)) (distance (x :: xs) ys))
          with h | h
        · rwa [h]
        · rw [h]
          rcases min_choice (distance xs (y :: ys)) (distance (x :: xs) ys) with h | h
          · rwa [h]
          · rwa [h]

/-! ## Fewer edits do not suffice -/

/-- One more character in front of either text changes the distance by at most one: the two halves
    of this that the induction needs. -/
theorem distance_cons_le (xs : List Char) :
    (∀ y ys, distance xs ys ≤ distance xs (y :: ys) + 1) ∧
      ∀ x ys, distance (x :: xs) ys ≤ distance xs ys + 1 := by
  induction xs with
  | nil =>
    refine ⟨fun y ys => ?_, fun x ys => ?_⟩
    · simp only [distance_nil_left, List.length_cons]
      omega
    · cases ys with
      | nil => simp
      | cons y ys =>
        rw [distance_cons_cons]
        simp only [distance_nil_left, List.length_cons]
        split <;> omega
  | cons x xs ih =>
    have hright : ∀ y ys, distance (x :: xs) ys ≤ distance (x :: xs) (y :: ys) + 1 := by
      intro y ys
      have hx := ih.2 x ys
      have hy := ih.1 y ys
      rw [distance_cons_cons]
      split <;> omega
    refine ⟨hright, fun z ys => ?_⟩
    cases ys with
    | nil => simp
    | cons y ys =>
      have hy := hright y ys
      rw [distance_cons_cons z]
      split <;> omega

theorem distance_le_cons_right (xs : List Char) (y : Char) (ys : List Char) :
    distance xs ys ≤ distance xs (y :: ys) + 1 :=
  (distance_cons_le xs).1 y ys

theorem distance_cons_left_le (x : Char) (xs ys : List Char) :
    distance (x :: xs) ys ≤ distance xs ys + 1 :=
  (distance_cons_le xs).2 x ys

theorem distance_le_cons_left (x : Char) (xs ys : List Char) :
    distance xs ys ≤ distance (x :: xs) ys + 1 := by
  rw [distance_comm xs, distance_comm (x :: xs)]
  exact distance_le_cons_right ys x xs

theorem distance_replace_le (x x' : Char) (xs ys : List Char) :
    distance (x :: xs) ys ≤ distance (x' :: xs) ys + 1 := by
  cases ys with
  | nil => simp
  | cons y ys =>
    have hdelete := distance_cons_left_le x xs (y :: ys)
    have hskip := distance_le_cons_left x' xs ys
    have hboth : distance (x :: xs) (y :: ys) ≤ distance xs ys + 1 := by
      rw [distance_cons_cons]
      split <;> omega
    rw [distance_cons_cons x']
    split <;> omega

/-- Texts that are one edit apart are about as far from any other. -/
theorem distance_le_of_edit {xs ys : List Char} (h : Edit xs ys) (zs : List Char) :
    distance xs zs ≤ distance ys zs + 1 := by
  induction h generalizing zs with
  | insert c xs => exact distance_le_cons_left c xs zs
  | delete c xs => exact distance_cons_left_le c xs zs
  | replace c d xs => exact distance_replace_le c d xs zs
  | @later c xs ys _ ih =>
    induction zs with
    | nil => simpa using ih []
    | cons z zs ih' =>
      have hzs := ih zs
      have hz := ih (z :: zs)
      rw [distance_cons_cons, distance_cons_cons]
      split <;> omega

theorem distance_self (xs : List Char) : distance xs xs = 0 := by
  induction xs with
  | nil => rfl
  | cons x xs ih => rw [distance_cons_cons, if_pos rfl, ih]

theorem distance_le_of_edits {n : Nat} {xs ys : List Char} (h : Edits n xs ys) :
    distance xs ys ≤ n := by
  induction h with
  | none xs => rw [distance_self]
  | @cons n xs ys zs h _ ih =>
    have := distance_le_of_edit h zs
    omega

/-! ## The edit distance of two texts -/

/-- It takes `n` edits to turn one text into the other, and fewer do not suffice. -/
def Apart (n : Nat) (a b : String) : Prop :=
  IsLeast {k | Edits k a.toList b.toList} n

theorem apart_iff {n : Nat} {a b : String} : Apart n a b ↔ editDistance a b = n := by
  have hleast : Apart (editDistance a b) a b :=
    ⟨edits_distance a.toList b.toList, fun _ h => distance_le_of_edits h⟩
  constructor
  · exact fun h => hleast.unique h
  · rintro rfl
    exact hleast

theorem Edits.eq_of_zero {xs ys : List Char} (h : Edits 0 xs ys) : xs = ys := by
  cases h
  rfl

/-- Only a text itself is no edit apart from it. -/
theorem editDistance_eq_zero_iff {a b : String} : editDistance a b = 0 ↔ a = b := by
  constructor
  · intro h
    exact String.toList_injective (apart_iff.2 h).1.eq_of_zero
  · rintro rfl
    exact distance_self a.toList

end TreeQuery.Text
