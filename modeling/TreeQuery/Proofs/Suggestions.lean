import TreeQuery.Proofs.Editing
import TreeQuery.Proofs.Refusal

/-!
# Unknown names and suggestions

A name is looked up in one of six places. If it is not known there the error has all names that
are, and suggests the first of those that are closest to it, unless even these are more than two
edits away.

Results:
* `Text.FirstClosest`: the first of several names that fewest edits lead to.
* `Text.closest_eq_some_iff`, `Text.exists_closest_iff`: which name is suggested, and when.
* `Lookup`: the places where names are looked up.
* `Lookup.unknown_name_refused`: when a lookup fails, and what its error has.
-/

namespace TreeQuery

/-! ## The first of the closest names -/

namespace Text

/-- `c` is at `n` edits from `name`, the other `names` are not closer, and those in front of it are
    further away. -/
structure FirstClosest (name : String) (names : List String) (n : Nat) (c : String) : Prop where
  apart : Apart n name c
  first : ∃ before after, names = before ++ c :: after ∧
    (∀ b ∈ before, ∀ k, Apart k name b → n < k) ∧ ∀ b ∈ after, ∀ k, Apart k name b → n ≤ k

variable {name : String} {names : List String}

theorem findSome?_range_eq_some_iff {α : Type} {f : Nat → Option α} {k : Nat} {a : α} :
    (List.range k).findSome? f = some a ↔ ∃ n < k, f n = some a ∧ ∀ m < n, f m = none := by
  induction k with
  | zero => simp
  | succ k ih =>
    rw [List.range_succ, List.findSome?_append, Option.or_eq_some_iff, ih]
    simp only [List.findSome?_eq_none_iff, List.mem_range, List.findSome?_singleton]
    constructor
    · rintro (⟨n, hn, ha, hbefore⟩ | ⟨hbefore, ha⟩)
      · exact ⟨n, Nat.lt_succ_of_lt hn, ha, hbefore⟩
      · exact ⟨k, Nat.lt_succ_self k, ha, hbefore⟩
    · rintro ⟨n, hn, ha, hbefore⟩
      rcases Nat.lt_succ_iff_lt_or_eq.1 hn with hn | rfl
      · exact .inl ⟨n, hn, ha, hbefore⟩
      · exact .inr ⟨hbefore, ha⟩

/-- The names are gone through once for each distance. -/
theorem closest_eq_findSome? (name : String) (names : List String) :
    closest name names =
      (List.range 3).findSome? fun n => names.find? fun b => editDistance name b == n := rfl

theorem closest_eq_some_iff {c : String} :
    closest name names = some c ↔ ∃ n ≤ 2, FirstClosest name names n c := by
  rw [closest_eq_findSome?, findSome?_range_eq_some_iff]
  refine exists_congr fun n => and_congr Nat.lt_succ_iff ?_
  simp only [List.find?_eq_some_iff_append, beq_iff_eq, List.find?_eq_none, Bool.not_eq_true',
    beq_eq_false_iff_ne]
  constructor
  · rintro ⟨⟨hc, before, after, rfl, hbefore⟩, hcloser⟩
    -- none of the names is closer, and those in front of `c` are not as close
    have hle : ∀ b ∈ before ++ c :: after, n ≤ editDistance name b := by
      intro b hb
      by_contra hlt
      exact hcloser _ (Nat.lt_of_not_le hlt) b hb rfl
    refine ⟨apart_iff.2 hc, before, after, rfl, fun b hb k hk => ?_, fun b hb k hk => ?_⟩
    · rw [← apart_iff.1 hk]
      exact Nat.lt_of_le_of_ne (hle b (by simp [hb])) (Ne.symm (hbefore b hb))
    · rw [← apart_iff.1 hk]
      exact hle b (by simp [hb])
  · rintro ⟨hc, before, after, rfl, hbefore, hafter⟩
    have hlt : ∀ b ∈ before, n < editDistance name b := fun b hb =>
      hbefore b hb _ (apart_iff.2 rfl)
    have hle : ∀ b ∈ after, n ≤ editDistance name b := fun b hb =>
      hafter b hb _ (apart_iff.2 rfl)
    refine ⟨⟨apart_iff.1 hc, before, after, rfl, fun b hb => (hlt b hb).ne'⟩, ?_⟩
    intro m hm b hb
    rcases List.mem_append.1 hb with hb | hb
    · exact (hm.trans (hlt b hb)).ne'
    · rcases List.mem_cons.1 hb with rfl | hb
      · rw [apart_iff.1 hc]
        exact hm.ne'
      · exact (hm.trans_le (hle b hb)).ne'

/-- A name is suggested as soon as one of the names is close. -/
theorem exists_closest_iff :
    (∃ c, closest name names = some c) ↔ ∃ b ∈ names, ∃ n ≤ 2, Apart n name b := by
  constructor
  · rintro ⟨c, hc⟩
    obtain ⟨n, hn, hapart, before, after, rfl, -⟩ := closest_eq_some_iff.1 hc
    exact ⟨c, by simp, n, hn, hapart⟩
  · rintro ⟨b, hb, n, hn, hapart⟩
    rw [← Option.isSome_iff_exists, Option.isSome_iff_ne_none]
    intro hnone
    rw [closest_eq_findSome?, List.findSome?_eq_none_iff] at hnone
    have hfar := List.find?_eq_none.1 (hnone n (List.mem_range.2 (Nat.lt_succ_of_le hn))) b hb
    exact hfar (beq_iff_eq.2 (apart_iff.1 hapart))

/-- Of several names that are as close, the first one is suggested. -/
example : closest "et" Stage.names = some "eq" := by decide

/-- A name that is not among the others is at least one edit away from them. -/
theorem FirstClosest.pos {n : Nat} {c : String} (h : FirstClosest name names n c)
    (hname : name ∉ names) : c ≠ name ∧ 0 < n := by
  obtain ⟨hapart, before, after, rfl, -⟩ := h
  have hne : c ≠ name := by
    rintro rfl
    simp at hname
  refine ⟨hne, Nat.pos_of_ne_zero fun hzero => hne ?_⟩
  rw [apart_iff, hzero, editDistance_eq_zero_iff] at hapart
  exact hapart.symm

end Text

/-! ## Lookups -/

/-- Where a name is looked up: among the kinds of selectors, the operators, the constructs, the
    built-in functions, the methods when one is called, and the refinements when one is read. -/
inductive Lookup where
  | kind
  | operator
  | construct
  | builtin
  | method (nodes : List Node) (params : Params) (descend : Bool)
  | refinement (argument : Option String)

namespace Lookup

/-- The names that are known there, in the order in which they are listed. -/
def valid (g : Registry) : Lookup → List String
  | kind => Target.all.map Target.kindName
  | operator => g.operators.map Rule.name
  | construct => Construct.standard.map Construct.name
  | builtin => builtinFunctions
  | method .. => Target.all.map Target.methodName
  | refinement _ => Stage.names

/-- The name is looked up, and that fails. -/
def Fails (g : Registry) (name : String) (e : QueryError) : Lookup → Prop
  | kind => Registry.target name = .error e
  | operator => g.operator name = .error e
  | construct => Registry.construct name = .error e
  | builtin => Registry.builtin name = .error e
  | method nodes params descend => invoke g name nodes params descend = .error e
  | refinement argument => Stage.ofRefinement ⟨name, argument⟩ = .error e

/-- The error says that the name is not known. The call of a method may also fail because of a name
    among its parameters, which is another lookup. -/
def SaysUnknown (e : QueryError) : Lookup → Prop
  | method .. => ∃ asked listed, e = .unknownMethod asked listed
  | _ => ∃ category asked listed, e = .unknownName category asked listed

/-- The error for a name that is none of the `listed` ones. -/
def report (name : String) (listed : List String) : Lookup → QueryError
  | kind => .unknownName .nodeKind name listed
  | operator => .unknownName .operator name listed
  | construct => .unknownName .construct name listed
  | builtin => .unknownName .builtin name listed
  | method .. => .unknownMethod name listed
  | refinement _ => .unknownName .refinement name listed

variable {g : Registry} {name : String}

theorem not_mem_map_all_iff {label : Target → String} :
    name ∉ Target.all.map label ↔ ∀ t, label t ≠ name := by
  simp [Target.mem_all]

/-- A call fails because of the method exactly if there is no such method. -/
theorem invoke_eq_unknownMethod_iff {nodes : List Node} {params : Params} {descend : Bool}
    {asked : String} {listed : List String} :
    invoke g name nodes params descend = .error (.unknownMethod asked listed) ↔
      (∀ t : Target, t.methodName ≠ name) ∧ asked = name ∧ listed = Registry.methodNames := by
  have hparams : ¬ FirstObjection (Objection.toParamsOf g params fun t => t.methodName = name)
      (.unknownMethod asked listed) := by
    intro h
    obtain ⟨o, ho, he⟩ := h.exists_mem
    rcases Objection.toParamsOf_cases ho he with ⟨_, _, h⟩ | ⟨_, _, _, h⟩ | ⟨_, _, _, h⟩ <;> cases h
  rw [invoke_raises g name nodes params descend, Objection.toMethod, List.singleton_append,
    firstObjection_cons]
  simp [Objection.unknownMethod, hparams]

/-- A refinement fails because of its name exactly if no stage has that name. -/
theorem ofRefinement_eq_unknownName_iff {r : Refinement} {category : Category} {asked : String}
    {listed : List String} :
    Stage.ofRefinement r = .error (.unknownName category asked listed) ↔
      r.name ∉ Stage.names ∧ category = .refinement ∧ asked = r.name ∧ listed = Stage.names := by
  rw [Stage.ofRefinement_eq_error_iff]
  simp [Objection.badRefinement, Objection.unknownRefinement, Objection.unwantedArgument,
    Objection.badIndex]

theorem saysUnknown_report (l : Lookup) (listed : List String) :
    l.SaysUnknown (l.report name listed) := by
  cases l with
  | method => exact ⟨name, listed, rfl⟩
  | kind | operator | construct | builtin | refinement => exact ⟨_, name, listed, rfl⟩

/-- A lookup says that a name is unknown exactly if it is not among the known ones. -/
theorem fails_and_saysUnknown_iff (l : Lookup) {e : QueryError} :
    l.Fails g name e ∧ l.SaysUnknown e ↔
      name ∉ l.valid g ∧ e = l.report name (l.valid g) := by
  -- a lookup that fails in no other way
  have honly (hl : l.Fails g name e ↔ name ∉ l.valid g ∧ e = l.report name (l.valid g)) :
      l.Fails g name e ∧ l.SaysUnknown e ↔
        name ∉ l.valid g ∧ e = l.report name (l.valid g) := by
    rw [hl, and_iff_left_of_imp]
    rintro ⟨-, rfl⟩
    exact l.saysUnknown_report _
  cases l with
  | kind =>
    refine honly ?_
    rw [Fails, Registry.target_raises, firstObjection_cons, valid, not_mem_map_all_iff]
    simp [not_firstObjection_nil, Objection.unknownKind, report, Registry.kindNames]
  | operator => exact honly Registry.operator_eq_error_iff
  | construct => exact honly Registry.construct_eq_error_iff
  | builtin => exact honly Registry.builtin_eq_error_iff
  | method nodes params descend =>
    rw [valid, not_mem_map_all_iff]
    constructor
    · rintro ⟨hfails, asked, listed, rfl⟩
      obtain ⟨hnone, rfl, rfl⟩ := invoke_eq_unknownMethod_iff.1 hfails
      exact ⟨hnone, rfl⟩
    · rintro ⟨hnone, rfl⟩
      exact ⟨invoke_eq_unknownMethod_iff.2 ⟨hnone, rfl, rfl⟩, name, _, rfl⟩
  | refinement argument =>
    constructor
    · rintro ⟨hfails, category, asked, listed, rfl⟩
      obtain ⟨hnone, rfl, rfl, rfl⟩ := ofRefinement_eq_unknownName_iff.1 hfails
      exact ⟨hnone, rfl⟩
    · rintro ⟨hnone, rfl⟩
      exact ⟨ofRefinement_eq_unknownName_iff.2 ⟨hnone, rfl, rfl, rfl⟩, _, name, _, rfl⟩

theorem suggestion?_report (l : Lookup) (listed : List String) :
    (l.report name listed).suggestion? = Text.closest name listed := by
  cases l <;> rfl

/-- Looking up a name, with any operators. It is reported as unknown exactly if it is none of the
    known names, and then with all of them, in their order. A name is suggested exactly if one of
    them is at most two edits away: the first of those that are closest, which is one or two edits
    away and so not the name itself. -/
theorem unknown_name_refused (l : Lookup) (g : Registry) (name : String) :
    (∀ e, l.Fails g name e ∧ l.SaysUnknown e ↔
      name ∉ l.valid g ∧ e = l.report name (l.valid g)) ∧
    ∀ e, l.Fails g name e ∧ l.SaysUnknown e →
      ((∃ c, e.suggestion? = some c) ↔ ∃ b ∈ l.valid g, ∃ n ≤ 2, Text.Apart n name b) ∧
      ∀ c, e.suggestion? = some c ↔
        c ≠ name ∧ ∃ n, (n = 1 ∨ n = 2) ∧ Text.FirstClosest name (l.valid g) n c := by
  refine ⟨fun e => l.fails_and_saysUnknown_iff, fun e he => ?_⟩
  obtain ⟨hname, rfl⟩ := l.fails_and_saysUnknown_iff.1 he
  rw [suggestion?_report]
  refine ⟨Text.exists_closest_iff, fun c => ?_⟩
  rw [Text.closest_eq_some_iff]
  constructor
  · rintro ⟨n, hn, hclosest⟩
    obtain ⟨hne, hpos⟩ := hclosest.pos hname
    exact ⟨hne, n, by omega, hclosest⟩
  · rintro ⟨-, n, hn, hclosest⟩
    exact ⟨n, by omega, hclosest⟩

end Lookup

end TreeQuery
