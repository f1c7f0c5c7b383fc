import TreeQuery.Toml.Value

/-!
# Building tables

Headers and keys add to a table step by step, and must not add to what is complete: no key is
given twice, no table is opened by two headers, and keys with dots do not reach into tables that
a header opened.
-/

namespace TreeQuery.Toml

/-- A table under construction. -/
structure Table where
  form : TableForm
  entries : List (String × Value)

namespace Table

/-- A table without entries. -/
def empty (form : TableForm) : Table :=
  ⟨form, []⟩

/-- The table as a value. -/
def toValue (t : Table) : Value :=
  .table t.form t.entries

/-- The value of a key. -/
def get? (t : Table) (key : String) : Option Value :=
  t.entries.lookup key

/-- The table with a value for a key: in the place of the old one, or at the end. -/
def put (t : Table) (key : String) (value : Value) : Table :=
  if (t.get? key).isSome then
    { t with entries := t.entries.map fun e => if e.1 == key then (key, value) else e }
  else { t with entries := t.entries ++ [(key, value)] }

/-- Change the table that a path leads to. Tables that are missing on the way are put in; in an
    array of tables the path goes to the last one. `dotted` says that the path is part of a key
    and not of a header. -/
def within (dotted : Bool) : List String → (Table → Except Error Table) → Table →
    Except Error Table
  | [], change, t => change t
  | key :: path, change, t =>
    match t.get? key with
    | none => do
      let child ← within dotted path change (empty (if dotted then .dotted else .implied))
      return t.put key child.toValue
    | some (.table form entries) =>
      if form = .inline ∨ (dotted ∧ form = .header) then .error (.duplicateKey key)
      else do
        let child ← within dotted path change ⟨form, entries⟩
        return t.put key child.toValue
    | some (.array true items) =>
      match items.getLast? with
      | some (.table form entries) => do
        let child ← within dotted path change ⟨form, entries⟩
        return t.put key (.array true (items.dropLast ++ [child.toValue]))
      | _ => .error (.duplicateKey key)
    | some _ => .error (.duplicateKey key)

/-- Give a key a value. A key with dots names a table on the way that such keys alone have made. -/
def assign (path : List String) (key : String) (value : Value) (t : Table) :
    Except Error Table :=
  t.within true path fun t =>
    if (!path.isEmpty) != (t.form == .dotted) then .error (.duplicateKey key)
    else if (t.get? key).isSome then .error (.duplicateKey key)
    else .ok (t.put key value)

/-- Open a table by a header. -/
def openTable (path : List String) (key : String) (t : Table) : Except Error Table :=
  t.within false path fun t =>
    match t.get? key with
    | none => .ok (t.put key (.table .header []))
    | some (.table .implied entries) => .ok (t.put key (.table .header entries))
    | some _ => .error (.duplicateKey key)

/-- Add a table to an array of tables by a header. -/
def openElement (path : List String) (key : String) (t : Table) : Except Error Table :=
  t.within false path fun t =>
    match t.get? key with
    | none => .ok (t.put key (.array true [.table .header []]))
    | some (.array true items) => .ok (t.put key (.array true (items ++ [.table .header []])))
    | some _ => .error (.duplicateKey key)

end Table

end TreeQuery.Toml
