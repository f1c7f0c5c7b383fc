/-!
# Named parameters

A map from names to texts, kept as a list of entries in strictly increasing order of their names,
so that equal maps are equal lists. Names are compared character by character.
-/

namespace TreeQuery

/-- A map from parameter names to values (`Params`). -/
structure Params where
  entries : List (String × String)
  /-- Names increase strictly. -/
  increasing : entries.Pairwise fun a b => a.1 < b.1
  deriving DecidableEq

namespace Params

/-- The map without entries. -/
def empty : Params :=
  ⟨[], .nil⟩

instance : Inhabited Params :=
  ⟨empty⟩

/-- The names, in increasing order. -/
def names (p : Params) : List String :=
  p.entries.map (·.1)

/-- Is the map without entries? -/
def isEmpty (p : Params) : Bool :=
  p.entries.isEmpty

/-- The value of a name. -/
def get? (p : Params) (name : String) : Option String :=
  p.entries.lookup name

/-- Does a name have a value? -/
def contains (p : Params) (name : String) : Bool :=
  (p.get? name).isSome

/-- Put a value into a list of entries, in its place by name; an older value of that name gives
    way. -/
def insertEntry (name value : String) : List (String × String) → List (String × String)
  | [] => [(name, value)]
  | (n, v) :: rest =>
    if name < n then (name, value) :: (n, v) :: rest
    else if name = n then (name, value) :: rest
    else (n, v) :: insertEntry name value rest

theorem mem_insertEntry {name value : String} {entries : List (String × String)}
    {e : String × String} (h : e ∈ insertEntry name value entries) :
    e = (name, value) ∨ e ∈ entries := by
  induction entries with
  | nil => simpa [insertEntry] using h
  | cons x rest ih =>
    obtain ⟨n, v⟩ := x
    simp only [insertEntry] at h
    split at h
    · simpa using h
    · split at h
      · rcases List.mem_cons.1 h with h | h
        · exact .inl h
        · exact .inr (List.mem_cons_of_mem _ h)
      · rcases List.mem_cons.1 h with h | h
        · exact .inr (by simp [h])
        · exact (ih h).imp_right (List.mem_cons_of_mem _)

theorem insertEntry_increasing {name value : String} {entries : List (String × String)}
    (h : entries.Pairwise fun a b => a.1 < b.1) :
    (insertEntry name value entries).Pairwise fun a b => a.1 < b.1 := by
  induction entries with
  | nil => simp [insertEntry]
  | cons x rest ih =>
    obtain ⟨n, v⟩ := x
    rw [List.pairwise_cons] at h
    simp only [insertEntry]
    split
    · rename_i hlt
      refine List.pairwise_cons.2 ⟨fun e he => ?_, List.pairwise_cons.2 h⟩
      rcases List.mem_cons.1 he with rfl | he
      · exact hlt
      · exact String.lt_trans hlt (h.1 e he)
    · split
      · rename_i heq
        subst heq
        exact List.pairwise_cons.2 h
      · rename_i hlt hne
        refine List.pairwise_cons.2 ⟨fun e he => ?_, ih h.2⟩
        rcases mem_insertEntry he with rfl | he
        · rcases Decidable.em (n < name) with h' | h'
          · exact h'
          · exact absurd (String.le_antisymm (String.not_lt.1 h') (String.not_lt.1 hlt)) hne
        · exact h.1 e he

/-- The map with `value` for `name`. -/
def insert (p : Params) (name value : String) : Params :=
  ⟨insertEntry name value p.entries, insertEntry_increasing p.increasing⟩

/-- The map of a list of pairs, in which a later pair wins over an earlier one. -/
def ofList (pairs : List (String × String)) : Params :=
  pairs.foldl (fun p e => p.insert e.1 e.2) empty

end Params

end TreeQuery
