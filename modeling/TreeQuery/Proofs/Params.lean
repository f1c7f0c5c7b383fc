import Mathlib.Data.List.Sort
import TreeQuery.Params

/-!
# Laws of named parameters

A map of parameters is known by its values: `get?` reads off the entries, and two maps with the
same values are equal.

* `get?_eq_some_iff`: a name has a value iff the pair of both is an entry.
* `get?_insert`: what a map says after a value was put in.
* `ext_get?`: maps with the same values are equal.
* `grows_iff`: which pairs can be put into a map one by one without one giving way to another,
  and what the map says then.
* `Agree.get?_union_eq_some_iff`: what two maps say together, if they do not contradict each other.
-/

namespace TreeQuery.Params

/-! ## Entries and values -/

theorem lookup_eq_some_iff_mem {entries : List (String × String)}
    (h : entries.Pairwise fun a b => a.1 < b.1) {k v : String} :
    entries.lookup k = some v ↔ (k, v) ∈ entries := by
  rw [List.lookup_eq_some_iff]
  constructor
  · rintro ⟨before, after, rfl, -⟩
    simp
  · intro hmem
    obtain ⟨before, after, rfl⟩ := List.append_of_mem hmem
    refine ⟨before, after, rfl, fun e he => ?_⟩
    have hlt : e.1 < k := (List.pairwise_append.1 h).2.2 e he (k, v) (by simp)
    have hne : k ≠ e.1 := fun heq => String.lt_irrefl k (heq ▸ hlt)
    simpa using hne

theorem get?_eq_some_iff {p : Params} {k v : String} :
    p.get? k = some v ↔ (k, v) ∈ p.entries :=
  lookup_eq_some_iff_mem p.increasing

theorem nodup_names (p : Params) : p.names.Nodup := by
  rw [names, List.Nodup, List.pairwise_map]
  apply p.increasing.imp
  intro a b hlt heq
  rw [heq] at hlt
  exact String.lt_irrefl b.1 hlt

theorem mem_names_iff {p : Params} {k : String} : k ∈ p.names ↔ ∃ v, p.get? k = some v := by
  simp [names, get?_eq_some_iff]

theorem contains_iff {p : Params} {k : String} : p.contains k ↔ ∃ v, p.get? k = some v := by
  rw [contains, Option.isSome_iff_exists]

theorem not_contains_iff {p : Params} {k : String} : ¬ p.contains k ↔ p.get? k = none := by
  rw [contains, Bool.not_eq_true, Option.isSome_eq_false_iff, Option.isNone_iff_eq_none]

@[simp] theorem get?_empty (k : String) : empty.get? k = none := rfl

theorem isEmpty_iff {p : Params} : p.isEmpty = true ↔ p = empty := by
  obtain ⟨entries, hentries⟩ := p
  rw [isEmpty, List.isEmpty_iff, empty, Params.mk.injEq]

/-- Maps with the same values are equal. -/
theorem ext_get? {p q : Params} (h : ∀ k, p.get? k = q.get? k) : p = q := by
  obtain ⟨ps, hp⟩ := p
  obtain ⟨qs, hq⟩ := q
  have hmem : ∀ e, e ∈ ps ↔ e ∈ qs := by
    rintro ⟨k, v⟩
    rw [← lookup_eq_some_iff_mem hp, ← lookup_eq_some_iff_mem hq]
    exact Iff.of_eq (congrArg (· = some v) (h k))
  have hirrefl : Std.Irrefl fun a b : String × String => a.1 < b.1 :=
    ⟨fun a => String.lt_irrefl a.1⟩
  have hantisymm : Std.Antisymm fun a b : String × String => a.1 < b.1 :=
    ⟨fun a b hab hba => absurd (String.lt_trans hab hba) (String.lt_irrefl a.1)⟩
  obtain rfl : ps = qs := List.Pairwise.eq_of_mem_iff hp hq hmem
  rfl

/-! ## Insertion -/

theorem mem_insertEntry_iff {k v : String} {entries : List (String × String)}
    (h : entries.Pairwise fun a b => a.1 < b.1) {e : String × String} :
    e ∈ insertEntry k v entries ↔ e = (k, v) ∨ (e ∈ entries ∧ e.1 ≠ k) := by
  induction entries with
  | nil => simp [insertEntry]
  | cons x rest ih =>
    obtain ⟨n, w⟩ := x
    rw [List.pairwise_cons] at h
    have hrest : ∀ e ∈ rest, n < e.1 := fun e he => h.1 e he
    simp only [insertEntry]
    split_ifs with hlt heq
    · -- `k` comes before all names
      have hne : ∀ e ∈ (n, w) :: rest, e.1 ≠ k := by
        intro e he hek
        rcases List.mem_cons.1 he with rfl | he
        · exact String.lt_irrefl k (hek ▸ hlt)
        · have hke : k < e.1 := String.lt_trans hlt (hrest e he)
          rw [hek] at hke
          exact String.lt_irrefl k hke
      rw [List.mem_cons]
      exact or_congr_right ⟨fun he => ⟨he, hne e he⟩, And.left⟩
    · -- `k` is the first name
      subst heq
      have hne : ∀ e ∈ rest, e.1 ≠ k := fun e he hek => String.lt_irrefl k (hek ▸ hrest e he)
      rw [List.mem_cons, List.mem_cons]
      refine or_congr_right ⟨fun he => ⟨.inr he, hne e he⟩, ?_⟩
      rintro ⟨rfl | he, hek⟩
      · exact absurd rfl hek
      · exact he
    · rw [List.mem_cons, ih h.2, List.mem_cons]
      constructor
      · rintro (rfl | rfl | ⟨he, hek⟩)
        · exact .inr ⟨.inl rfl, fun hnk => heq hnk.symm⟩
        · exact .inl rfl
        · exact .inr ⟨.inr he, hek⟩
      · rintro (rfl | ⟨rfl | he, hek⟩)
        · exact .inr (.inl rfl)
        · exact .inl rfl
        · exact .inr (.inr ⟨he, hek⟩)

/-- A map after a value was put in. -/
theorem get?_insert (p : Params) (k v k' : String) :
    (p.insert k v).get? k' = if k' = k then some v else p.get? k' := by
  apply Option.ext
  intro w
  rw [get?_eq_some_iff, insert, mem_insertEntry_iff p.increasing]
  split_ifs with h
  · subst h
    simp [eq_comm]
  · rw [get?_eq_some_iff]
    simp [h]

theorem get?_insert_of_new {p : Params} {k v k' v' : String} (h : ¬ p.contains k) :
    (p.insert k v).get? k' = some v' ↔ (k', v') = (k, v) ∨ p.get? k' = some v' := by
  rw [get?_insert]
  split_ifs with hk
  · subst hk
    simp [not_contains_iff.1 h, eq_comm]
  · simp [hk]

theorem contains_insert {p : Params} {k v k' : String} :
    (p.insert k v).contains k' ↔ k' = k ∨ p.contains k' := by
  rw [contains_iff, contains_iff]
  by_cases h : k' = k
  · simp [get?_insert, h]
  · simp [get?_insert, h]

/-! ## Putting in pairs one by one -/

/-- The map `p` is what `seen` becomes when pairs are put in one after the other, each under a
    name that has no value yet. -/
def Grows : Params → List (String × String) → Params → Prop
  | seen, [], p => p = seen
  | seen, e :: pairs, p => ¬ seen.contains e.1 ∧ Grows (seen.insert e.1 e.2) pairs p

/-- A map can grow by pairs of new and different names, and then it has their values and those it
    had before. -/
theorem grows_iff {seen p : Params} {pairs : List (String × String)} :
    Grows seen pairs p ↔ (pairs.map (·.1)).Nodup ∧ (∀ e ∈ pairs, ¬ seen.contains e.1) ∧
      ∀ k v, p.get? k = some v ↔ (k, v) ∈ pairs ∨ seen.get? k = some v := by
  induction pairs generalizing seen with
  | nil =>
    simp only [Grows, List.map_nil, List.nodup_nil, List.not_mem_nil, false_or, true_and,
      false_imp_iff, implies_true]
    constructor
    · rintro rfl k v
      rfl
    · intro h
      exact ext_get? fun k => Option.ext (h k)
  | cons e pairs ih =>
    obtain ⟨n, w⟩ := e
    rw [Grows, ih, List.map_cons, List.nodup_cons]
    simp only [contains_insert, not_or, List.forall_mem_cons]
    constructor
    · rintro ⟨hn, hd, hf, hv⟩
      refine ⟨⟨?_, hd⟩, ⟨hn, fun e he => (hf e he).2⟩, fun k v => ?_⟩
      · intro hmem
        obtain ⟨e, he, heq⟩ := List.mem_map.1 hmem
        exact (hf e he).1 heq
      · rw [hv, get?_insert_of_new hn, List.mem_cons]
        tauto
    · rintro ⟨⟨hn', hd⟩, ⟨hn, hf⟩, hv⟩
      refine ⟨hn, hd, fun e he => ⟨?_, hf e he⟩, fun k v => ?_⟩
      · intro heq
        exact hn' (List.mem_map.2 ⟨e, he, heq⟩)
      · rw [hv, get?_insert_of_new hn, List.mem_cons]
        tauto

/-- The maps that grow out of the empty one. -/
theorem grows_empty_iff {p : Params} {pairs : List (String × String)} :
    Grows empty pairs p ↔ (pairs.map (·.1)).Nodup ∧
      ∀ k v, p.get? k = some v ↔ (k, v) ∈ pairs := by
  simp [grows_iff, contains]

/-! ## Two maps together -/

/-- The map with the values of both. Where both have a value, that of `q` counts. -/
def union (p q : Params) : Params :=
  q.entries.foldl (fun r e => r.insert e.1 e.2) p

theorem get?_foldl_insert {pairs : List (String × String)}
    (h : pairs.Pairwise fun a b => a.1 < b.1) (p : Params) (k : String) :
    (pairs.foldl (fun r e => r.insert e.1 e.2) p).get? k = (pairs.lookup k).or (p.get? k) := by
  induction pairs generalizing p with
  | nil => rfl
  | cons e pairs ih =>
    obtain ⟨n, w⟩ := e
    rw [List.pairwise_cons] at h
    rw [List.foldl_cons, ih h.2, get?_insert]
    by_cases hk : k = n
    · subst hk
      -- the names behind are greater, so nothing replaces the value
      have hnone : pairs.lookup k = none := by
        rw [Option.eq_none_iff_forall_ne_some]
        intro v hv
        exact String.lt_irrefl k (h.1 (k, v) ((lookup_eq_some_iff_mem h.2).1 hv))
      simp [hnone]
    · rw [if_neg hk, List.lookup_cons, beq_eq_false_iff_ne.2 hk]

theorem get?_union (p q : Params) (k : String) :
    (p.union q).get? k = (q.get? k).or (p.get? k) :=
  get?_foldl_insert q.increasing p k

/-- Names with a value in both maps have the same value in both. -/
def Agree (p q : Params) : Prop :=
  ∀ e ∈ p.entries, ∀ f ∈ q.entries, e.1 = f.1 → e.2 = f.2

instance (p q : Params) : Decidable (p.Agree q) :=
  inferInstanceAs (Decidable (∀ e ∈ p.entries, ∀ f ∈ q.entries, e.1 = f.1 → e.2 = f.2))

theorem agree_iff {p q : Params} :
    p.Agree q ↔ ∀ k v w, p.get? k = some v → q.get? k = some w → v = w := by
  simp only [get?_eq_some_iff]
  constructor
  · intro h k v w hp hq
    exact h (k, v) hp (k, w) hq rfl
  · rintro h ⟨k, v⟩ hp ⟨k', w⟩ hq rfl
    exact h k v w hp hq

/-- Maps that agree say together what one of them says. -/
theorem Agree.get?_union_eq_some_iff {p q : Params} (h : p.Agree q) {k v : String} :
    (p.union q).get? k = some v ↔ p.get? k = some v ∨ q.get? k = some v := by
  rw [get?_union, Option.or_eq_some_iff]
  constructor
  · rintro (hq | ⟨-, hp⟩)
    · exact .inr hq
    · exact .inl hp
  · rintro (hp | hq)
    · cases hq : q.get? k with
      | none => exact .inr ⟨rfl, hp⟩
      | some w => exact .inl (by rw [agree_iff.1 h k v w hp hq])
    · exact .inl hq

theorem Agree.forall_mem_get?_union {p q : Params} (h : p.Agree q) {k : String}
    {P : String → Prop} : (∀ v ∈ (p.union q).get? k, P v) ↔
      (∀ v ∈ p.get? k, P v) ∧ ∀ v ∈ q.get? k, P v := by
  simp only [Option.mem_def, h.get?_union_eq_some_iff, or_imp, forall_and]

theorem Agree.forall_mem_entries_union {p q : Params} (h : p.Agree q)
    {P : String × String → Prop} : (∀ e ∈ (p.union q).entries, P e) ↔
      (∀ e ∈ p.entries, P e) ∧ ∀ e ∈ q.entries, P e := by
  simp only [Prod.forall, ← get?_eq_some_iff, h.get?_union_eq_some_iff, or_imp, forall_and]

theorem Agree.mem_names_union {p q : Params} (h : p.Agree q) {k : String} :
    k ∈ (p.union q).names ↔ k ∈ p.names ∨ k ∈ q.names := by
  simp only [mem_names_iff, h.get?_union_eq_some_iff, exists_or]

/-- A map that says all that another one says is their union. -/
theorem union_eq_right {p q : Params} (h : ∀ k v, p.get? k = some v → q.get? k = some v) :
    p.Agree q ∧ p.union q = q := by
  have hagree : p.Agree q := agree_iff.2 fun k v w hp hq =>
    Option.some.inj ((h k v hp).symm.trans hq)
  refine ⟨hagree, ext_get? fun k => Option.ext fun v => ?_⟩
  rw [hagree.get?_union_eq_some_iff]
  exact or_iff_right_of_imp (h k v)

end TreeQuery.Params
