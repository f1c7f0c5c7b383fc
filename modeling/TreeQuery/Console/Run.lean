import TreeQuery.Console.Failure

/-!
# Runs of commands

A run of a command prints, line by line on its output or beside it, and ends with a result or
with a failure. What was printed before a failure stays printed.

* `result_bind_eq_ok_iff`: a run that goes on with another ends well iff both do.
* `output_bind_of_ok`, `output_bind_of_error`: what such a run prints on the output.
-/

namespace TreeQuery

/-- What is printed at a time. -/
inductive Line where
  /-- A line on the output. -/
  | out (text : String)
  /-- A warning or a note beside the output, with the end of the line if it has one. -/
  | note (text : String)
  deriving DecidableEq, Repr

/-- What a command printed, and how it ended. -/
structure Run (α : Type) where
  lines : List Line
  result : Except Failure α

namespace Run

/-- A run that prints nothing. -/
protected def pure {α : Type} (a : α) : Run α :=
  ⟨[], .ok a⟩

/-- A run that goes on with the result of another. A failure ends both. -/
protected def bind {α β : Type} (r : Run α) (next : α → Run β) : Run β :=
  match r.result with
  | .ok a => ⟨r.lines ++ (next a).lines, (next a).result⟩
  | .error e => ⟨r.lines, .error e⟩

instance : Monad Run where
  pure := Run.pure
  bind := Run.bind

/-- Print a line on the output. -/
def out (text : String) : Run Unit :=
  ⟨[.out text], .ok ()⟩

/-- Print a text beside the output. -/
def note (text : String) : Run Unit :=
  ⟨[.note text], .ok ()⟩

/-- A result that may be a failure. -/
def ofExcept {α : Type} (result : Except Failure α) : Run α :=
  ⟨[], result⟩

/-- The lines on the output. -/
def output {α : Type} (r : Run α) : List String :=
  r.lines.filterMap fun
    | .out text => some text
    | .note _ => none

/-- The text beside the output. -/
def notes {α : Type} (r : Run α) : String :=
  String.join (r.lines.filterMap fun
    | .out _ => none
    | .note text => some text)

/-! ## Laws -/

@[simp] theorem result_pure {α : Type} (a : α) : (pure a : Run α).result = .ok a := rfl

@[simp] theorem output_pure {α : Type} (a : α) : (pure a : Run α).output = [] := rfl

@[simp] theorem output_out (text : String) : (out text).output = [text] := rfl

@[simp] theorem output_note (text : String) : (note text).output = [] := rfl

@[simp] theorem output_ofExcept {α : Type} (result : Except Failure α) :
    (ofExcept result).output = [] := rfl

theorem bind_eq {α β : Type} (r : Run α) (next : α → Run β) : (r >>= next) = r.bind next := rfl

theorem bind_of_ok {α β : Type} {r : Run α} {a : α} (h : r.result = .ok a) (next : α → Run β) :
    (r >>= next) = ⟨r.lines ++ (next a).lines, (next a).result⟩ := by
  simp [bind_eq, Run.bind, h]

theorem bind_of_error {α β : Type} {r : Run α} {f : Failure} (h : r.result = .error f)
    (next : α → Run β) : (r >>= next) = ⟨r.lines, .error f⟩ := by
  simp [bind_eq, Run.bind, h]

/-- A run that goes on with another ends well iff both do. -/
theorem result_bind_eq_ok_iff {α β : Type} {r : Run α} {next : α → Run β} {b : β} :
    (r >>= next).result = .ok b ↔ ∃ a, r.result = .ok a ∧ (next a).result = .ok b := by
  cases h : r.result with
  | ok a => simp [bind_of_ok h]
  | error f => simp [bind_of_error h]

/-- If the first run ends well, both print. -/
theorem output_bind_of_ok {α β : Type} {r : Run α} {a : α} (h : r.result = .ok a)
    (next : α → Run β) : (r >>= next).output = r.output ++ (next a).output := by
  simp [bind_of_ok h, output, List.filterMap_append]

/-- If the first run fails, only it prints. -/
theorem output_bind_of_error {α β : Type} {r : Run α} {f : Failure} (h : r.result = .error f)
    (next : α → Run β) : (r >>= next).output = r.output := by
  simp [bind_of_error h, output]

instance : LawfulMonad Run := LawfulMonad.mk' Run
  (fun r => by
    change Run.bind r _ = r
    cases h : r.result <;> simp [Run.bind, h, Run.pure]
    all_goals rw [← h])
  (fun a next => by simp [bind_eq, Run.bind, pure, Run.pure])
  (fun r next last => by
    cases h : r.result with
    | ok a =>
      cases h' : (next a).result <;> simp [bind_eq, Run.bind, h, h']
    | error f => simp [bind_eq, Run.bind, h])

end Run

end TreeQuery
