import TreeQuery.Toml.Table

/-!
# Values of known shape

Reading a value as a text, a number, a list or a record. A record may be written as a table, or
as an array with its fields in order.
-/

namespace TreeQuery.Toml

/-- The key under which a date stands when it is read as a table. -/
def datetimeKey : String := "$__toml_private_datetime"

namespace Value

/-- A value as a text. -/
def text? : Value → Option String
  | string s => some s
  | _ => none

/-- A value as a truth value. -/
def bool? : Value → Option Bool
  | boolean b => some b
  | _ => none

/-- A value as a number of things. -/
def count? : Value → Option Nat
  | integer n => if n < 0 then none else some n.toNat
  | _ => none

/-- A value as a list. -/
def items? : Value → Option (List Value)
  | array _ items => some items
  | _ => none

/-- A value as a list of keys and values. A date is a table with its text as the only entry. -/
def entries? : Value → Option (List (String × Value))
  | table _ entries => some entries
  | datetime text => some [(datetimeKey, string text)]
  | _ => none

/-- A value as a record with the given fields. -/
def record? (fields : List String) : Value → Option (List (String × Value))
  | array _ items => some (fields.zip items)
  | v => v.entries?

end Value

/-- The value of a field that may be left out. -/
def optional {α : Type} (decode : Value → Option α) (entries : List (String × Value))
    (key : String) : Except Error (Option α) :=
  match entries.lookup key with
  | none => .ok none
  | some v =>
    match decode v with
    | some a => .ok (some a)
    | none => .error (.wrongType key)

/-- The value of a field that has to be given. -/
def required {α : Type} (decode : Value → Option α) (entries : List (String × Value))
    (key : String) : Except Error α := do
  match ← optional decode entries key with
  | some a => return a
  | none => .error (.wrongType key)

end TreeQuery.Toml
