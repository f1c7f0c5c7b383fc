import TreeQuery.Proofs.Indices
import TreeQuery.Proofs.Validity

/-!
# All faults of a checklist

A checklist that is refused is refused with all its faults: no fault hides another one, in the same
check or in a later one, and they are reported in the order of the checks.

Results:
* `Check.Flaw`: what can be wrong with a check, each fault with its own condition and report.
* `Check.mem_issues_iff_flaw`, `Check.issues_in_order`: the reports on a check are those of its
  flaws, first of the identifier, then of the query, then of the bounds.
* `Checklist.issuesAfter_usedIds`: the reports on all checks, one check after the other.
* `Checklist.count_duplicateId_issuesAfter`: how often an identifier is reported as used before.
* `Checklist.Sound`: a checklist as it should be.
* `Checklist.validated_or_all_issues`: a checklist is sound, or all its flaws are reported.
-/

namespace TreeQuery

/-! ## Blank texts -/

/-- A text is blank if nothing is left of it without the blanks at its ends. -/
theorem Text.isBlankText_iff_trim {s : String} : isBlankText s = true ↔ trim s = "" := by
  have hempty : trim s = "" ↔ trimChars s.toList = [] := by
    rw [trim, ← String.ofList_nil, String.ofList_inj]
  rw [hempty, isBlankText, List.all_eq_true]
  constructor
  · intro h
    rw [trimChars, List.dropWhile_eq_nil_iff.2 h]
    rfl
  · intro h c hc
    obtain ⟨before, after, hs, hbefore, hafter⟩ := exists_eq_append_trimChars s.toList
    rw [hs, h, List.append_nil, List.mem_append] at hc
    exact hc.elim (hbefore c) (hafter c)

theorem Text.isBlankText_eq_false_iff {s : String} : isBlankText s = false ↔ trim s ≠ "" := by
  rw [ne_eq, ← isBlankText_iff_trim, Bool.not_eq_true]

/-! ## One check -/

/-- The place of a report among those on the same check: first those on the identifier, then those
    on the query, and among these first on what it is, and last those on the bounds. -/
def Issue.rank : Issue → Nat
  | noChecks => 0
  | missingField _ .id | duplicateId _ => 1
  | missingField _ .selector | missingField _ .method | badSelector _ _ => 2
  | conflict _ .selectorAndMethod => 2
  | conflict _ .paramsWithSelector => 3
  | conflict _ (.emptyBounds _ _) => 4

namespace Check

/-- What is wrong with a check that stands behind others, and how it is reported. -/
inductive Flaw (earlier : List Check) (c : Check) : Issue → Prop
  | blankId (hid : Text.trim c.id = "") : Flaw earlier c (.missingField none .id)
  | repeatedId (hid : Text.trim c.id ≠ "") (hused : ∃ b ∈ earlier, b.id = c.id) :
      Flaw earlier c (.duplicateId c.id)
  | twoQueries {text name : String} (hs : c.selector? = some text) (hm : c.method? = some name) :
      Flaw earlier c (.conflict c.givenId? .selectorAndMethod)
  | noQuery (hs : c.selector? = none) (hm : c.method? = none) :
      Flaw earlier c (.missingField c.givenId? .selector)
  | unreadable {text : String} {e : SelectorError} (hs : c.selector? = some text)
      (hm : c.method? = none) (he : Selector.parse text = .error e) :
      Flaw earlier c (.badSelector c.givenId? e)
  | surplus {text : String} (hs : c.selector? = some text) (hm : c.method? = none)
      (h : c.params ≠ .empty ∨ c.descend? ≠ none) :
      Flaw earlier c (.conflict c.givenId? .paramsWithSelector)
  | blankMethod {name : String} (hs : c.selector? = none) (hm : c.method? = some name)
      (hname : Text.trim name = "") : Flaw earlier c (.missingField c.givenId? .method)
  | emptyBounds {min max : Nat} (hmin : c.bounds.min? = some min) (hmax : c.bounds.max? = some max)
      (h : max < min) : Flaw earlier c (.conflict c.givenId? (.emptyBounds min max))

variable {c : Check} {earlier : List Check} {seen : List String} {issue : Issue}

theorem surplus_iff : (!c.params.isEmpty || c.descend?.isSome) = true ↔
    c.params ≠ .empty ∨ c.descend? ≠ none := by
  rw [Bool.or_eq_true, Option.isSome_iff_ne_none, Bool.not_eq_true', ← Bool.not_eq_true,
    Params.isEmpty_iff]

theorem givenId?_of_blank (h : Text.trim c.id = "") : c.givenId? = none := by
  rw [givenId?, if_pos (Text.isBlankText_iff_trim.2 h)]

theorem givenId?_of_not_blank (h : Text.trim c.id ≠ "") : c.givenId? = some c.id := by
  rw [givenId?, Text.isBlankText_eq_false_iff.2 h]
  rfl

/-- The identifier that is not blank is the given one. -/
theorem givenId?_eq_some_iff {id : String} (hid : Text.trim id ≠ "") :
    c.givenId? = some id ↔ c.id = id := by
  by_cases hc : Text.trim c.id = ""
  · rw [givenId?_of_blank hc]
    constructor
    · intro h
      cases h
    · rintro rfl
      exact absurd hc hid
  · rw [givenId?_of_not_blank hc, Option.some.injEq]

theorem mem_idIssues_iff
    (hseen : Text.trim c.id ≠ "" → (c.id ∈ seen ↔ ∃ b ∈ earlier, b.id = c.id)) :
    issue ∈ c.idIssues seen ↔ c.Flaw earlier issue ∧ issue.rank = 1 := by
  constructor
  · intro h
    by_cases hid : Text.trim c.id = ""
    · rw [idIssues, givenId?_of_blank hid] at h
      obtain rfl := List.mem_singleton.1 h
      exact ⟨.blankId hid, rfl⟩
    · rw [idIssues, givenId?_of_not_blank hid] at h
      dsimp only at h
      split at h
      · rename_i hused
        obtain rfl := List.mem_singleton.1 h
        exact ⟨.repeatedId hid ((hseen hid).1 (List.contains_iff_mem.1 hused)), rfl⟩
      · cases h
  · rintro ⟨hflaw, hrank⟩
    cases hflaw with
    | blankId hid =>
      rw [idIssues, givenId?_of_blank hid]
      exact List.mem_singleton_self _
    | repeatedId hid hused =>
      rw [idIssues, givenId?_of_not_blank hid]
      dsimp only
      rw [if_pos (List.contains_iff_mem.2 ((hseen hid).2 hused))]
      exact List.mem_singleton_self _
    | twoQueries | noQuery | unreadable | surplus | blankMethod | emptyBounds => cases hrank

theorem flaw_of_mem_queryIssues (h : issue ∈ c.queryIssues) :
    c.Flaw earlier issue ∧ (issue.rank = 2 ∨ issue.rank = 3) := by
  unfold queryIssues at h
  split at h
  · rename_i hs hm
    obtain rfl := List.mem_singleton.1 h
    exact ⟨.twoQueries hs hm, .inl rfl⟩
  · rename_i hs hm
    obtain rfl := List.mem_singleton.1 h
    exact ⟨.noQuery hs hm, .inl rfl⟩
  · rename_i text hs hm
    rcases List.mem_append.1 h with h | h
    · split at h
      · rename_i e he
        obtain rfl := List.mem_singleton.1 h
        exact ⟨.unreadable hs hm he, .inl rfl⟩
      · cases h
    · split at h
      · rename_i hsurplus
        obtain rfl := List.mem_singleton.1 h
        exact ⟨.surplus hs hm (surplus_iff.1 hsurplus), .inr rfl⟩
      · cases h
  · rename_i name hs hm
    split at h
    · rename_i hname
      obtain rfl := List.mem_singleton.1 h
      exact ⟨.blankMethod hs hm (Text.isBlankText_iff_trim.1 hname), .inl rfl⟩
    · cases h

theorem mem_queryIssues_iff :
    issue ∈ c.queryIssues ↔ c.Flaw earlier issue ∧ (issue.rank = 2 ∨ issue.rank = 3) := by
  refine ⟨flaw_of_mem_queryIssues, ?_⟩
  rintro ⟨hflaw, hrank⟩
  cases hflaw with
  | twoQueries hs hm => simp [queryIssues, hs, hm]
  | noQuery hs hm => simp [queryIssues, hs, hm]
  | unreadable hs hm he => simp [queryIssues, hs, hm, he]
  | surplus hs hm h =>
    simp only [queryIssues, hs, hm, if_pos (surplus_iff.2 h)]
    exact List.mem_append_right _ (List.mem_singleton_self _)
  | blankMethod hs hm hname => simp [queryIssues, hs, hm, Text.isBlankText_iff_trim.2 hname]
  | blankId | repeatedId | emptyBounds => rcases hrank with hrank | hrank <;> cases hrank

theorem mem_boundsIssues_iff :
    issue ∈ c.boundsIssues ↔ c.Flaw earlier issue ∧ issue.rank = 4 := by
  constructor
  · intro h
    unfold boundsIssues at h
    split at h
    · rename_i min max hmin hmax
      split at h
      · rename_i hlt
        obtain rfl := List.mem_singleton.1 h
        exact ⟨.emptyBounds hmin hmax hlt, rfl⟩
      · cases h
    · cases h
  · rintro ⟨hflaw, hrank⟩
    cases hflaw with
    | emptyBounds hmin hmax h => simp [boundsIssues, hmin, hmax, h]
    | blankId | repeatedId | twoQueries | noQuery | unreadable | surplus | blankMethod =>
      cases hrank

/-- The reports on a check are those of its flaws. -/
theorem mem_issues_iff_flaw
    (hseen : Text.trim c.id ≠ "" → (c.id ∈ seen ↔ ∃ b ∈ earlier, b.id = c.id)) :
    issue ∈ c.issues seen ↔ c.Flaw earlier issue := by
  have hrank : c.Flaw earlier issue →
      issue.rank = 1 ∨ (issue.rank = 2 ∨ issue.rank = 3) ∨ issue.rank = 4 := by
    rintro (_ | _ | _ | _ | _ | _ | _ | _) <;> simp [Issue.rank]
  rw [issues, List.mem_append, List.mem_append, mem_idIssues_iff hseen,
    mem_queryIssues_iff, mem_boundsIssues_iff]
  constructor
  · rintro ((h | h) | h)
    · exact h.1
    · exact h.1
    · exact h.1
  · intro h
    rcases hrank h with hrank | hrank | hrank
    · exact .inl (.inl ⟨h, hrank⟩)
    · exact .inl (.inr ⟨h, hrank⟩)
    · exact .inr ⟨h, hrank⟩

theorem idIssues_in_order : (c.idIssues seen).Pairwise fun a b => a.rank < b.rank := by
  unfold idIssues
  split
  · exact List.pairwise_singleton _ _
  · split
    · exact List.pairwise_singleton _ _
    · exact .nil

theorem queryIssues_in_order : c.queryIssues.Pairwise fun a b => a.rank < b.rank := by
  unfold queryIssues
  split
  · exact List.pairwise_singleton _ _
  · exact List.pairwise_singleton _ _
  · split <;> split <;> simp [Issue.rank]
  · split
    · exact List.pairwise_singleton _ _
    · exact .nil

theorem boundsIssues_in_order : c.boundsIssues.Pairwise fun a b => a.rank < b.rank := by
  unfold boundsIssues
  split
  · split
    · exact List.pairwise_singleton _ _
    · exact .nil
  · exact .nil

/-- The reports on a check come in the order of their ranks, and none comes twice. -/
theorem issues_in_order
    (hseen : Text.trim c.id ≠ "" → (c.id ∈ seen ↔ ∃ b ∈ earlier, b.id = c.id)) :
    (c.issues seen).Pairwise fun a b => a.rank < b.rank := by
  have hid : ∀ a ∈ c.idIssues seen, c.Flaw earlier a ∧ a.rank = 1 := fun a =>
    (mem_idIssues_iff hseen).1
  have hquery : ∀ a ∈ c.queryIssues, c.Flaw earlier a ∧ (a.rank = 2 ∨ a.rank = 3) := fun a =>
    flaw_of_mem_queryIssues
  have hbounds : ∀ a ∈ c.boundsIssues, c.Flaw earlier a ∧ a.rank = 4 := fun a =>
    mem_boundsIssues_iff.1
  refine List.pairwise_append.2 ⟨List.pairwise_append.2 ⟨idIssues_in_order, queryIssues_in_order,
    fun a ha b hb => ?_⟩, boundsIssues_in_order, fun a ha b hb => ?_⟩
  · have hranka := (hid a ha).2
    have hrankb := (hquery b hb).2
    omega
  · have hrankb := (hbounds b hb).2
    rcases List.mem_append.1 ha with ha | ha
    · have hranka := (hid a ha).2
      omega
    · have hranka := (hquery a ha).2
      omega

end Check

/-! ## All checks -/

namespace Checklist

/-- The identifiers that checks use, the last one first. -/
def usedIds (checks : List Check) : List String :=
  checks.reverse.filterMap Check.givenId?

theorem usedIds_append_singleton (checks : List Check) (c : Check) :
    usedIds (checks ++ [c]) = c.givenId?.toList ++ usedIds checks := by
  rw [usedIds, List.reverse_append, List.reverse_singleton, List.singleton_append,
    List.filterMap_cons]
  cases c.givenId? <;> rfl

theorem mem_usedIds {checks : List Check} {id : String} (hid : Text.trim id ≠ "") :
    id ∈ usedIds checks ↔ ∃ b ∈ checks, b.id = id := by
  simp only [usedIds, List.mem_filterMap, List.mem_reverse, Check.givenId?_eq_some_iff hid]

/-- The reports on the check at a position. -/
def issuesAt (checks : List Check) (i : Nat) : List Issue :=
  match checks[i]? with
  | some c => c.issues (usedIds (checks.take i))
  | none => []

/-- The reports on checks that stand behind others are those at their positions, from the first of
    them on. -/
theorem issuesAfter_usedIds (earlier checks : List Check) :
    issuesAfter (usedIds earlier) checks =
      (List.range checks.length).flatMap fun i =>
        issuesAt (earlier ++ checks) (earlier.length + i) := by
  induction checks generalizing earlier with
  | nil => rfl
  | cons c checks ih =>
    have hfirst : issuesAt (earlier ++ c :: checks) (earlier.length + 0) =
        c.issues (usedIds earlier) := by
      simp [issuesAt]
    have hrest : ∀ i, issuesAt (earlier ++ c :: checks) (earlier.length + (i + 1)) =
        issuesAt ((earlier ++ [c]) ++ checks) ((earlier ++ [c]).length + i) := by
      intro i
      rw [List.append_assoc, List.singleton_append, List.length_append, List.length_singleton,
        Nat.add_assoc, Nat.add_comm 1 i]
    rw [issuesAfter, ← usedIds_append_singleton, ih, List.length_cons, List.range_succ_eq_map,
      List.flatMap_cons, List.flatMap_map, hfirst]
    simp only [Nat.succ_eq_add_one, hrest]

/-! ## Identifiers that are used again -/

theorem count_duplicateId_issues {c : Check} {seen : List String} {id : String}
    (hid : Text.trim id ≠ "") :
    (c.issues seen).count (.duplicateId id) = if c.id = id ∧ id ∈ seen then 1 else 0 := by
  -- only the identifier is reported so, by the rank
  have hquery : Issue.duplicateId id ∉ c.queryIssues := by
    intro h
    have hflaw : c.Flaw [] (.duplicateId id) ∧ (1 = 2 ∨ 1 = 3) := Check.flaw_of_mem_queryIssues h
    omega
  have hbounds : Issue.duplicateId id ∉ c.boundsIssues := by
    intro h
    have hflaw : c.Flaw [] (.duplicateId id) ∧ 1 = 4 := Check.mem_boundsIssues_iff.1 h
    omega
  rw [Check.issues, List.count_append, List.count_append, List.count_eq_zero.2 hquery,
    List.count_eq_zero.2 hbounds, Nat.add_zero, Check.idIssues]
  simp only [← Check.givenId?_eq_some_iff hid]
  cases c.givenId? with
  | none => simp
  | some other =>
    by_cases hsame : other = id
    · subst hsame
      by_cases hseen : other ∈ seen <;> simp [hseen]
    · by_cases hseen : other ∈ seen <;> simp [hseen, hsame]

/-- An identifier is reported each time it is used, but for the first time. -/
theorem count_duplicateId_issuesAfter {seen : List String} {checks : List Check} {id : String}
    (hid : Text.trim id ≠ "") :
    (issuesAfter seen checks).count (.duplicateId id) =
      if id ∈ seen then (checks.map (·.id)).count id else (checks.map (·.id)).count id - 1 := by
  induction checks generalizing seen with
  | nil => simp [issuesAfter]
  | cons c checks ih =>
    have hseen : id ∈ c.givenId?.toList ++ seen ↔ c.id = id ∨ id ∈ seen := by
      rw [List.mem_append, Option.mem_toList, Check.givenId?_eq_some_iff hid]
    rw [issuesAfter, List.count_append, count_duplicateId_issues hid, ih, List.map_cons,
      List.count_cons]
    by_cases hc : c.id = id
    · rw [if_pos (hseen.2 (.inl hc)), if_pos (beq_iff_eq.2 hc)]
      by_cases hs : id ∈ seen
      · -- the check uses the identifier again, and is reported
        rw [if_pos ⟨hc, hs⟩, if_pos hs, Nat.add_comm]
      · -- the check is the first to use it
        rw [if_neg fun h => hs h.2, if_neg hs, Nat.zero_add, Nat.add_sub_cancel]
    · -- a check with another identifier changes nothing
      have hother : id ∈ c.givenId?.toList ++ seen ↔ id ∈ seen := by
        rw [hseen, or_iff_right hc]
      have hcount : ¬ (c.id == id) = true := by simpa using hc
      rw [if_neg fun h => hc h.1, if_neg hcount, Nat.zero_add, Nat.add_zero]
      simp only [hother]

end Checklist

/-! ## Sound checklists -/

/-- A check has a query that can be used if it has a selector or a method but not both, and each of
    them is as it should be. -/
theorem Check.hasQuery_iff {c : Check} : c.HasSelector ∨ c.HasMethod ↔
    (c.selector? = none ↔ c.method? ≠ none) ∧
      (∀ text ∈ c.selector?,
        (∃ s, Selector.parse text = .ok s) ∧ c.params = .empty ∧ c.descend? = none) ∧
      ∀ name ∈ c.method?, Text.trim name ≠ "" := by
  unfold HasSelector HasMethod
  cases c.selector? with
  | none =>
    cases c.method? with
    | none => simp
    | some name => simp [Text.isBlankText_eq_false_iff]
  | some text =>
    cases c.method? with
    | none => simp [Params.isEmpty_iff]
    | some name => simp

namespace Checklist

/-- A checklist as it should be. -/
structure Sound (l : Checklist) : Prop where
  has_checks : l.checks ≠ []
  id_not_blank : ∀ c ∈ l.checks, Text.trim c.id ≠ ""
  ids_differ : (l.checks.map (·.id)).Nodup
  one_query : ∀ c ∈ l.checks, (c.selector? = none ↔ c.method? ≠ none)
  selector_alone : ∀ c ∈ l.checks, ∀ text ∈ c.selector?,
    (∃ s, Selector.parse text = .ok s) ∧ c.params = .empty ∧ c.descend? = none
  method_not_blank : ∀ c ∈ l.checks, ∀ name ∈ c.method?, Text.trim name ≠ ""
  min_le_max : ∀ c ∈ l.checks, ∀ min ∈ c.bounds.min?, ∀ max ∈ c.bounds.max?, min ≤ max

theorem issues_eq_nil_iff_sound {l : Checklist} : l.issues = [] ↔ l.Sound := by
  rw [issues_eq_nil_iff]
  constructor
  · rintro ⟨hne, hvalid, hdiffer⟩
    have hquery := fun c hc => Check.hasQuery_iff.1 (hvalid c hc).query
    exact ⟨hne, fun c hc => Text.isBlankText_eq_false_iff.1 (hvalid c hc).id_not_blank, hdiffer,
      fun c hc => (hquery c hc).1, fun c hc => (hquery c hc).2.1, fun c hc => (hquery c hc).2.2,
      fun c hc => (hvalid c hc).min_le_max⟩
  · rintro ⟨hne, hid, hdiffer, hone, hselector, hmethod, hbounds⟩
    refine ⟨hne, fun c hc => ?_, hdiffer⟩
    have hquery := Check.hasQuery_iff.2 ⟨hone c hc, hselector c hc, hmethod c hc⟩
    exact ⟨Text.isBlankText_eq_false_iff.2 (hid c hc), hquery, hbounds c hc⟩

theorem Sound.hasQuery {l : Checklist} (h : l.Sound) {c : Check} (hc : c ∈ l.checks) :
    c.HasSelector ∨ c.HasMethod :=
  Check.hasQuery_iff.2 ⟨h.one_query c hc, h.selector_alone c hc, h.method_not_blank c hc⟩

theorem issues_eq_flatMap {l : Checklist} (hne : l.checks ≠ []) :
    l.issues = (List.range l.checks.length).flatMap (issuesAt l.checks) := by
  have hissues : l.issues = issuesAfter (usedIds []) l.checks := by
    rw [issues, if_neg (by simpa using hne)]
    rfl
  rw [hissues, issuesAfter_usedIds, List.nil_append]
  simp only [List.length_nil, Nat.zero_add]

theorem validated_of_issues_ne_nil {l : Checklist} (h : l.issues ≠ []) :
    l.validated = .error (.invalid l.issues) := by
  rw [validated, if_neg (by simpa using h)]

theorem flaw_duplicateId_iff {checks : List Check} {i : Nat} {c : Check} :
    c.Flaw (checks.take i) (.duplicateId c.id) ↔
      Text.trim c.id ≠ "" ∧ ∃ j < i, ∃ b, checks[j]? = some b ∧ b.id = c.id := by
  have hused : (∃ b ∈ checks.take i, b.id = c.id) ↔
      ∃ j < i, ∃ b, checks[j]? = some b ∧ b.id = c.id := by
    simp only [List.mem_iff_getElem?, List.getElem?_take]
    constructor
    · rintro ⟨b, ⟨j, hj⟩, hid⟩
      obtain ⟨hlt, hj⟩ := Option.ite_none_right_eq_some.1 hj
      exact ⟨j, hlt, b, hj, hid⟩
    · rintro ⟨j, hlt, b, hj, hid⟩
      exact ⟨b, ⟨j, by rw [if_pos hlt, hj]⟩, hid⟩
  rw [← hused]
  constructor
  · intro h
    cases h with
    | repeatedId hid hused => exact ⟨hid, hused⟩
  · rintro ⟨hid, hused⟩
    exact .repeatedId hid hused

/-- A checklist is accepted exactly if it is sound. Otherwise it is refused with all its faults: the
    reports on its checks, one check after the other, where those on a check are those of its flaws
    in the order of their ranks. A check is reported to use an identifier again exactly if the
    identifier is not blank and an earlier check has it too; so an identifier that is used `k`
    times is reported `k - 1` times. -/
theorem validated_or_all_issues (l : Checklist) :
    (l.validated = .ok l ↔ l.Sound) ∧
      (¬ l.Sound → l.validated = .error (.invalid l.issues)) ∧
      (l.checks = [] → l.issues = [.noChecks]) ∧
      (l.checks ≠ [] →
        l.issues = (List.range l.checks.length).flatMap (issuesAt l.checks)) ∧
      (∀ i c, l.checks[i]? = some c →
        (issuesAt l.checks i).Pairwise (fun a b => a.rank < b.rank) ∧
        (∀ issue, issue ∈ issuesAt l.checks i ↔ c.Flaw (l.checks.take i) issue) ∧
        (.duplicateId c.id ∈ issuesAt l.checks i ↔
          Text.trim c.id ≠ "" ∧ ∃ j < i, ∃ b, l.checks[j]? = some b ∧ b.id = c.id)) ∧
      ∀ id, Text.trim id ≠ "" →
        l.issues.count (.duplicateId id) = (l.checks.map (·.id)).count id - 1 := by
  refine ⟨?_, fun h => ?_, fun h => ?_, issues_eq_flatMap, fun i c hc => ?_, fun id hid => ?_⟩
  · rw [validated_eq_ok_iff, issues_eq_nil_iff_sound]
    exact and_iff_right rfl
  · rw [← issues_eq_nil_iff_sound] at h
    exact validated_of_issues_ne_nil h
  · rw [issues, h]
    rfl
  · have hat : issuesAt l.checks i = c.issues (usedIds (l.checks.take i)) := by
      rw [issuesAt, hc]
    have hmem : ∀ issue, issue ∈ issuesAt l.checks i ↔ c.Flaw (l.checks.take i) issue := by
      intro issue
      rw [hat]
      exact Check.mem_issues_iff_flaw mem_usedIds
    refine ⟨?_, hmem, (hmem _).trans flaw_duplicateId_iff⟩
    rw [hat]
    exact Check.issues_in_order mem_usedIds
  · by_cases hne : l.checks = []
    · rw [issues, hne]
      rfl
    · have hissues : l.issues = issuesAfter [] l.checks := if_neg (by simpa using hne)
      rw [hissues, count_duplicateId_issuesAfter hid, if_neg List.not_mem_nil]

/-- Checks with several faults each. -/
def faultyChecks : Checklist :=
  ⟨"", none, [
    ⟨"a", some "variable", none, .empty, none, ⟨none, none⟩, none⟩,
    ⟨"a", some "", none, .empty, some true, ⟨some 3, some 1⟩, none⟩,
    ⟨" ", none, none, .empty, none, ⟨none, none⟩, none⟩,
    ⟨"a", some "variable", some "find_variable", .empty, none, ⟨none, none⟩, none⟩]⟩

/-- The identifier `a` is used three times and reported twice, and no fault hides another. -/
theorem validated_or_all_issues_faulty :
    ¬ faultyChecks.Sound ∧
      faultyChecks.issues = [.duplicateId "a", .badSelector (some "a") (.malformed 0 .empty),
        .conflict (some "a") .paramsWithSelector, .conflict (some "a") (.emptyBounds 3 1),
        .missingField none .id, .missingField none .selector,
        .duplicateId "a", .conflict (some "a") .selectorAndMethod] ∧
      faultyChecks.validated = .error (.invalid faultyChecks.issues) ∧
      faultyChecks.issues.count (.duplicateId "a") = 2 := by
  obtain ⟨hsound, hrefused, -, -, -, hcount⟩ := validated_or_all_issues faultyChecks
  have hnot : faultyChecks.validated ≠ .ok faultyChecks := by decide +kernel
  have hunsound : ¬ faultyChecks.Sound := fun h => hnot (hsound.2 h)
  exact ⟨hunsound, by decide +kernel, hrefused hunsound, hcount "a" (by decide +kernel)⟩

end Checklist

end TreeQuery
