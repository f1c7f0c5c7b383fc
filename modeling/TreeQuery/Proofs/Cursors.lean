import TreeQuery.Proofs.Result
import TreeQuery.Token.Cursor

/-!
# Where cursors get to

A cursor is moved by adding words. A sum that is too large for a word ends the program, although
the text may have ended long before. Every other operation keeps to the text, never goes back and
gets as far as it says, whatever was done before.

Results:
* `Cursor.peek_of_lt`, `Cursor.advance_of_lt`: looking and moving ahead by a step that fits, and
  `Cursor.offset_of_le` for one that does not.
* `Operation.next`, `Reading.after`: what one operation does, and what several do.
* `Operation.Lawful`: an operation goes forward, stays inside the text, and gets as far as it says.
* `Reading.onward_after`: operations only lead on, and not out of the text.
* `Reading.after_eq_error_iff`: they end the program with the first sum that is too large.
* `Reading.lawful_after`: after any operations, the next one is lawful or ends the program.
-/

namespace TreeQuery

/-! ## Sums of words -/

namespace Cursor

variable {c c' : Cursor} {n : UInt64}

theorem offset_of_lt (h : c.position + n.toNat < UInt64.size) :
    c.offset n = .ok (c.position + n.toNat) :=
  if_pos h

theorem offset_of_le (h : UInt64.size ≤ c.position + n.toNat) : c.offset n = .error .add :=
  if_neg (Nat.not_lt.2 h)

theorem peek_of_lt (h : c.position + n.toNat < UInt64.size) :
    c.peek n = .ok c.input[c.position + n.toNat]? := by
  rw [peek, offset_of_lt h]
  rfl

theorem advance_of_lt (h : c.position + n.toNat < UInt64.size) :
    c.advance n = .ok { c with position := min (c.position + n.toNat) c.length } := by
  rw [advance, offset_of_lt h]
  rfl

theorem eq_of_offset {position : Nat} (h : c.offset n = .ok position) :
    position = c.position + n.toNat := by
  unfold offset at h
  split at h
  · exact (Except.ok.inj h).symm
  · cases h

theorem eq_of_peek {shown : Option Char} (h : c.peek n = .ok shown) :
    shown = c.input[c.position + n.toNat]? := by
  obtain ⟨position, hsum, rfl⟩ := Result.map_eq_ok_iff.1 h
  rw [eq_of_offset hsum]

/-- A cursor that has been moved is `n` places further on, or at the end of the text. -/
theorem eq_of_advance (h : c.advance n = .ok c') :
    c' = { c with position := min (c.position + n.toNat) c.length } := by
  obtain ⟨position, hsum, rfl⟩ := Result.map_eq_ok_iff.1 h
  rw [eq_of_offset hsum]

/-- A token takes the cursor on, at most to the end of the text. -/
theorem position_of_take? {r : Recognizer} {token : Token} (h : c.take? r = some (token, c')) :
    c'.input = c.input ∧ c.position < c'.position ∧ c'.position ≤ c.length := by
  obtain ⟨s, hs, heq⟩ := Option.map_eq_some_iff.1 h
  obtain ⟨-, rfl⟩ := Prod.mk.inj heq
  obtain ⟨hpos, hle⟩ := r.step?_width hs
  rw [rest, List.length_drop] at hle
  refine ⟨rfl, ?_, ?_⟩
  · exact Nat.lt_add_of_pos_right hpos
  · show c.position + s.width ≤ c.input.length
    omega

end Cursor

/-! ## Operations -/

/-- What can be done with a reading: look ahead, move on, let a recognizer read a token, or let it
    take one that is not kept. -/
inductive Operation where
  | peek (n : UInt64)
  | advance (n : UInt64)
  | read (r : Recognizer)
  | take (r : Recognizer)

/-- The reading `y` is of the same text as `x`, and further on, or as far. -/
structure Reading.Onward (x y : Reading) : Prop where
  input : y.cursor.input = x.cursor.input
  forward : x.cursor.position ≤ y.cursor.position
  inside : y.cursor.position ≤ x.cursor.length

namespace Operation

/-- The reading after an operation, unless the program has ended with it. -/
def next (x : Reading) : Operation → Except Overflow Reading
  | peek n => (x.cursor.peek n).map fun _ => x
  | advance n => (x.cursor.advance n).map fun cursor => { x with cursor := cursor }
  | read r => .ok (x.read r).2
  | take r =>
    match x.cursor.take? r with
    | some (_, cursor) => .ok { x with cursor := cursor }
    | none => .ok x

/-- The sum of a position and the step is a word. A recognizer is not given a step. -/
def Fits (position : Nat) : Operation → Prop
  | peek n => position + n.toNat < UInt64.size
  | advance n => position + n.toNat < UInt64.size
  | read _ => True
  | take _ => True

instance (position : Nat) : (op : Operation) → Decidable (op.Fits position)
  | peek n => inferInstanceAs (Decidable (position + n.toNat < UInt64.size))
  | advance n => inferInstanceAs (Decidable (position + n.toNat < UInt64.size))
  | read _ => isTrue trivial
  | take _ => isTrue trivial

/-- Looking ahead by `n` shows the character that is `n` places further on, if there is one, and
    moving on by `n` leads there, or else to the end of the text. -/
def Exact (x : Reading) : Operation → Prop
  | peek n => x.cursor.peek n = .ok x.cursor.input[x.cursor.position + n.toNat]?
  | advance n => x.cursor.advance n =
      .ok { x.cursor with position := min (x.cursor.position + n.toNat) x.cursor.length }
  | read _ => True
  | take _ => True

/-- The operation leads from `x` to `y`. It does not go back, does not leave the text, and gets as
    far as it says. -/
structure Lawful (op : Operation) (x y : Reading) : Prop extends x.Onward y where
  leads : op.next x = .ok y
  exact : op.Exact x

variable {op : Operation} {x y : Reading}

/-! ## One operation -/

/-- An operation leaves the cursor, moves it by a step, or takes it behind a token. -/
theorem next_cases (h : op.next x = .ok y) :
    y.cursor = x.cursor ∨ (∃ n, x.cursor.advance n = .ok y.cursor) ∨
      ∃ r token, x.cursor.take? r = some (token, y.cursor) := by
  cases op with
  | peek n =>
    obtain ⟨shown, -, rfl⟩ := Result.map_eq_ok_iff.1 h
    exact .inl rfl
  | advance n =>
    obtain ⟨cursor, hmoved, rfl⟩ := Result.map_eq_ok_iff.1 h
    exact .inr (.inl ⟨n, hmoved⟩)
  | read r =>
    obtain rfl := Except.ok.inj h
    rw [Reading.read]
    split
    · rename_i token cursor htake
      exact .inr (.inr ⟨r, token, htake⟩)
    · exact .inl rfl
  | take r =>
    rw [next] at h
    split at h
    · rename_i token cursor htake
      obtain rfl := Except.ok.inj h
      exact .inr (.inr ⟨r, token, htake⟩)
    · obtain rfl := Except.ok.inj h
      exact .inl rfl

/-- An operation leads on, if it leads anywhere. -/
theorem onward_next (h : op.next x = .ok y) (hinside : x.cursor.position ≤ x.cursor.length) :
    x.Onward y := by
  rcases next_cases h with hsame | ⟨n, hmoved⟩ | ⟨r, token, htake⟩
  · exact ⟨congrArg Cursor.input hsame, Nat.le_of_eq (congrArg Cursor.position hsame.symm),
      hsame ▸ hinside⟩
  · have hcursor := Cursor.eq_of_advance hmoved
    refine ⟨by rw [hcursor], ?_, ?_⟩
    · rw [hcursor]
      exact Nat.le_min.2 ⟨Nat.le_add_right _ _, hinside⟩
    · rw [hcursor]
      exact Nat.min_le_right _ _
  · obtain ⟨hinput, hlt, hle⟩ := Cursor.position_of_take? htake
    exact ⟨hinput, Nat.le_of_lt hlt, hle⟩

/-- An operation that fits behind a text fits everywhere in it. -/
theorem Fits.of_le {m n : Nat} (h : op.Fits n) (hle : m ≤ n) : op.Fits m := by
  cases op with
  | peek k => exact Nat.lt_of_le_of_lt (Nat.add_le_add_right hle _) h
  | advance k => exact Nat.lt_of_le_of_lt (Nat.add_le_add_right hle _) h
  | read r => trivial
  | take r => trivial

/-- An operation whose sum is a word leads somewhere, and gets as far as it says. -/
theorem next_of_fits (h : op.Fits x.cursor.position) :
    (∃ y, op.next x = .ok y) ∧ op.Exact x := by
  cases op with
  | peek n =>
    refine ⟨⟨x, ?_⟩, Cursor.peek_of_lt h⟩
    rw [next, Cursor.peek_of_lt h]
    rfl
  | advance n =>
    refine ⟨?_, Cursor.advance_of_lt h⟩
    rw [next, Cursor.advance_of_lt h]
    exact ⟨_, rfl⟩
  | read r => exact ⟨⟨_, rfl⟩, trivial⟩
  | take r =>
    refine ⟨?_, trivial⟩
    rw [next]
    split
    · exact ⟨_, rfl⟩
    · exact ⟨_, rfl⟩

/-- An operation whose sum is too large ends the program. -/
theorem next_of_not_fits (h : ¬ op.Fits x.cursor.position) : op.next x = .error .add := by
  cases op with
  | peek n =>
    rw [next, Cursor.peek, Cursor.offset_of_le (Nat.not_lt.1 h)]
    rfl
  | advance n =>
    rw [next, Cursor.advance, Cursor.offset_of_le (Nat.not_lt.1 h)]
    rfl
  | read r => exact absurd trivial h
  | take r => exact absurd trivial h

theorem lawful_of_fits (hinside : x.cursor.position ≤ x.cursor.length)
    (h : op.Fits x.cursor.position) : ∃ y, op.Lawful x y := by
  obtain ⟨⟨y, hnext⟩, hexact⟩ := next_of_fits h
  exact ⟨y, onward_next hnext hinside, hnext, hexact⟩

end Operation

/-! ## Any operations -/

namespace Reading

variable {x y z : Reading} {ops : List Operation}

/-- The reading after several operations, unless the program has ended with one of them. -/
def after (x : Reading) (ops : List Operation) : Except Overflow Reading :=
  ops.foldlM (fun x op => op.next x) x

theorem after_cons (x : Reading) (op : Operation) (ops : List Operation) :
    x.after (op :: ops) = op.next x >>= (·.after ops) :=
  List.foldlM_cons

theorem Onward.trans (h : x.Onward y) (h' : y.Onward z) : x.Onward z := by
  have hlength : y.cursor.length = x.cursor.length := congrArg List.length h.input
  exact ⟨h'.input.trans h.input, Nat.le_trans h.forward h'.forward, hlength ▸ h'.inside⟩

/-- Operations lead on, if they lead anywhere. -/
theorem onward_after (h : x.after ops = .ok y) (hinside : x.cursor.position ≤ x.cursor.length) :
    x.Onward y := by
  induction ops generalizing x with
  | nil =>
    obtain rfl := Except.ok.inj h
    exact ⟨rfl, Nat.le_refl _, hinside⟩
  | cons op ops ih =>
    rw [after_cons] at h
    obtain ⟨z, hnext, hafter⟩ := Result.bind_eq_ok_iff.1 h
    have hstep := Operation.onward_next hnext hinside
    have hlength : z.cursor.length = x.cursor.length := congrArg List.length hstep.input
    exact hstep.trans (ih hafter (hlength ▸ hstep.inside))

/-- Operations end the program with the first of them whose sum is too large. -/
theorem after_eq_error_iff : x.after ops = .error .add ↔ ∃ done op later y,
    ops = done ++ op :: later ∧ x.after done = .ok y ∧ ¬ op.Fits y.cursor.position := by
  induction ops generalizing x with
  | nil =>
    constructor
    · intro h
      cases h
    · rintro ⟨done, op, later, y, h, -⟩
      simp at h
  | cons op ops ih =>
    by_cases hfits : op.Fits x.cursor.position
    · obtain ⟨⟨y, hnext⟩, -⟩ := Operation.next_of_fits hfits
      rw [after_cons, hnext]
      refine (ih (x := y)).trans ⟨?_, ?_⟩
      · rintro ⟨done, op', later, z, rfl, hdone, hover⟩
        refine ⟨op :: done, op', later, z, rfl, ?_, hover⟩
        rw [after_cons, hnext]
        exact hdone
      · rintro ⟨done, op', later, z, hops, hdone, hover⟩
        cases done with
        | nil =>
          obtain ⟨rfl, -⟩ := List.cons.inj hops
          obtain rfl := Except.ok.inj hdone
          exact absurd hfits hover
        | cons first done =>
          obtain ⟨rfl, rfl⟩ := List.cons.inj hops
          rw [after_cons, hnext] at hdone
          exact ⟨done, op', later, z, rfl, hdone, hover⟩
    · refine ⟨fun _ => ⟨[], op, ops, x, rfl, rfl, hfits⟩, fun _ => ?_⟩
      rw [after_cons, Operation.next_of_not_fits hfits]
      rfl

/-- After any operations on a text, unless they have ended the program, the cursor is inside the
    text, and the next operation is lawful if the sum of the position and its step fits into a
    word: it does not go back, does not leave the text, and gets as far as it says. If the sum does
    not fit, the operation ends the program, and nothing else does. So operations whose steps fit
    even behind the text come to an end, and each of them is lawful. -/
theorem lawful_after (s : String) (ops : List Operation) :
    (∀ x, (ofString s).after ops = .ok x →
      x.cursor.input = s.toList ∧ x.cursor.position ≤ s.length ∧
        ∀ op : Operation, (op.Fits x.cursor.position → ∃ y, op.Lawful x y) ∧
          (¬ op.Fits x.cursor.position → op.next x = .error .add)) ∧
    ((ofString s).after ops = .error .add ↔ ∃ done op later x,
      ops = done ++ op :: later ∧ (ofString s).after done = .ok x ∧
        ¬ op.Fits x.cursor.position) ∧
    ((∀ op ∈ ops, op.Fits s.length) → ∃ x, (ofString s).after ops = .ok x) := by
  have hinside {done : List Operation} {x : Reading} (h : (ofString s).after done = .ok x) :
      x.cursor.input = s.toList ∧ x.cursor.position ≤ s.length := by
    have honward := onward_after h (Nat.zero_le _)
    exact ⟨honward.input, Nat.le_trans honward.inside (Nat.le_of_eq String.length_toList)⟩
  refine ⟨fun x h => ?_, after_eq_error_iff, fun hfits => ?_⟩
  · obtain ⟨hinput, hle⟩ := hinside h
    have hlength : x.cursor.length = s.length := by
      rw [Cursor.length, hinput, String.length_toList]
    exact ⟨hinput, hle, fun op =>
      ⟨Operation.lawful_of_fits (hlength ▸ hle), Operation.next_of_not_fits⟩⟩
  · cases hafter : (ofString s).after ops with
    | ok x => exact ⟨x, rfl⟩
    | error e =>
      -- the step that was too large fits behind the text, so also where the cursor was
      obtain ⟨done, op, later, x, rfl, hdone, hover⟩ := after_eq_error_iff.1 hafter
      have hop := hfits op (List.mem_append_right done List.mem_cons_self)
      exact absurd (hop.of_le (hinside hdone).2) hover

/-- One place on in a text of two characters, a step of seven leads to the end of the text, and
    reading a name there leads on as well. -/
theorem lawful_after_short :
    let x : Reading := ⟨⟨['a', 'b'], 1⟩, []⟩
    (ofString "ab").after [.advance 1] = .ok x ∧ (∃ y, (Operation.advance 7).Lawful x y) ∧
      (∃ y, (Operation.read .name).Lawful x y) ∧
      ∃ y, (ofString "ab").after [.advance 1, .advance 7] = .ok y := by
  intro x
  have hx : (ofString "ab").after [.advance 1] = .ok x := rfl
  obtain ⟨hstate, -, -⟩ := lawful_after "ab" [.advance 1]
  obtain ⟨-, -, hnext⟩ := hstate x hx
  refine ⟨hx, (hnext (.advance 7)).1 (by decide), (hnext (.read .name)).1 trivial, ?_⟩
  exact (lawful_after "ab" [.advance 1, .advance 7]).2.2 (by decide)

/-- One place on in a text of two characters, the largest step neither leads to the end of the text
    nor shows that nothing is there: it ends the program. -/
theorem advance_overflows :
    let x : Reading := ⟨⟨['a', 'b'], 1⟩, []⟩
    (ofString "ab").after [.advance 1] = .ok x ∧
      (ofString "ab").after [.advance 1, .advance 18446744073709551615] = .error .add ∧
      x.cursor.peek 18446744073709551615 = .error .add :=
  ⟨rfl, rfl, rfl⟩

end Reading

end TreeQuery
