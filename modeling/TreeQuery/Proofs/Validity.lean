import TreeQuery.Checklist.Load
import TreeQuery.Proofs.Outcomes

/-!
# Checklists without faults

A checklist without faults can be run: every check has one query that can be read, a name of its
own, and bounds that can be met.

* `Check.Valid`: what a check has to be like, whatever the other checks are.
* `Checklist.issues_eq_nil_iff`: a checklist has no faults exactly if it has checks, all of them
  are valid, and no two have the same identifier.
* `Checklist.load_eq_ok_iff`: a checklist that was read has no faults.
* `Checklist.run_of_validated`: what can be said of its outcomes.
-/

namespace TreeQuery

/-! ## One check -/

namespace Check

/-- The check has a selector that can be read, and nothing else that would be part of a query. -/
def HasSelector (c : Check) : Prop :=
  ∃ text s, c.selector? = some text ∧ c.method? = none ∧ Selector.parse text = .ok s ∧
    c.params.isEmpty = true ∧ c.descend? = none

/-- The check has a method with a name, and no selector. -/
def HasMethod (c : Check) : Prop :=
  ∃ name, c.selector? = none ∧ c.method? = some name ∧ Text.isBlankText name = false

/-- A check that can be run and that can be passed. -/
structure Valid (c : Check) : Prop where
  id_not_blank : Text.isBlankText c.id = false
  query : c.HasSelector ∨ c.HasMethod
  min_le_max : ∀ min ∈ c.bounds.min?, ∀ max ∈ c.bounds.max?, min ≤ max

theorem idIssues_eq_nil_iff {c : Check} {seen : List String} :
    c.idIssues seen = [] ↔ Text.isBlankText c.id = false ∧ c.id ∉ seen := by
  rw [idIssues, givenId?]
  cases Text.isBlankText c.id <;> simp

theorem queryIssues_eq_nil_iff {c : Check} :
    c.queryIssues = [] ↔ c.HasSelector ∨ c.HasMethod := by
  unfold queryIssues HasSelector HasMethod
  cases c.selector? with
  | none =>
    cases c.method? with
    | none => simp
    | some name => simp
  | some text =>
    cases c.method? with
    | none =>
      cases hparse : Selector.parse text with
      | error e => simp [hparse]
      | ok s => simp [hparse]
    | some name => simp

theorem boundsIssues_eq_nil_iff {c : Check} :
    c.boundsIssues = [] ↔ ∀ min ∈ c.bounds.min?, ∀ max ∈ c.bounds.max?, min ≤ max := by
  unfold boundsIssues
  cases c.bounds.min? with
  | none => simp
  | some min =>
    cases c.bounds.max? with
    | none => simp
    | some max => simp

theorem issues_eq_nil_iff {c : Check} {seen : List String} :
    c.issues seen = [] ↔ c.Valid ∧ c.id ∉ seen := by
  rw [issues, List.append_eq_nil_iff, List.append_eq_nil_iff, idIssues_eq_nil_iff,
    queryIssues_eq_nil_iff, boundsIssues_eq_nil_iff]
  constructor
  · rintro ⟨⟨⟨hid, hseen⟩, hquery⟩, hbounds⟩
    exact ⟨⟨hid, hquery, hbounds⟩, hseen⟩
  · rintro ⟨⟨hid, hquery, hbounds⟩, hseen⟩
    exact ⟨⟨⟨hid, hseen⟩, hquery⟩, hbounds⟩

theorem Valid.givenId? {c : Check} (h : c.Valid) : c.givenId? = some c.id := by
  rw [Check.givenId?, h.id_not_blank]
  rfl

end Check

/-! ## All checks -/

namespace Checklist

/-- Checks have no faults behind others that use the identifiers `seen` exactly if all of them are
    valid, and their identifiers are new and different. -/
theorem issuesAfter_eq_nil_iff {seen : List String} {cs : List Check} :
    issuesAfter seen cs = [] ↔
      (∀ c ∈ cs, c.Valid) ∧ (cs.map (·.id)).Nodup ∧ ∀ c ∈ cs, c.id ∉ seen := by
  induction cs generalizing seen with
  | nil => simp [issuesAfter]
  | cons c cs ih =>
    rw [issuesAfter, List.append_eq_nil_iff, Check.issues_eq_nil_iff, ih, List.map_cons,
      List.nodup_cons]
    simp only [List.forall_mem_cons]
    constructor
    · rintro ⟨⟨hc, hseen⟩, hcs, hdistinct, hnew⟩
      -- the identifier of a valid check counts as seen from there on
      rw [hc.givenId?] at hnew
      have hother : c.id ∉ cs.map (·.id) := by
        intro hmem
        obtain ⟨c', hc', heq⟩ := List.mem_map.1 hmem
        exact hnew c' hc' (by simp [heq])
      exact ⟨⟨hc, hcs⟩, ⟨hother, hdistinct⟩, hseen, fun c' hc' hmem => hnew c' hc' (by simp [hmem])⟩
    · rintro ⟨⟨hc, hcs⟩, ⟨hother, hdistinct⟩, hseen, hnew⟩
      refine ⟨⟨hc, hseen⟩, hcs, hdistinct, fun c' hc' hmem => ?_⟩
      rw [hc.givenId?, Option.toList_some, List.singleton_append, List.mem_cons] at hmem
      rcases hmem with heq | hmem
      · exact hother (List.mem_map.2 ⟨c', hc', heq⟩)
      · exact hnew c' hc' hmem

theorem issues_eq_nil_iff {l : Checklist} :
    l.issues = [] ↔ l.checks ≠ [] ∧ (∀ c ∈ l.checks, c.Valid) ∧ (l.checks.map (·.id)).Nodup := by
  unfold issues
  cases l.checks with
  | nil => simp
  | cons c cs => simp [issuesAfter_eq_nil_iff]

theorem validated_eq_ok_iff {l l' : Checklist} :
    l.validated = .ok l' ↔ l' = l ∧ l.issues = [] := by
  unfold validated
  cases l.issues with
  | nil => simp [eq_comm]
  | cons issue rest => simp

/-- A checklist that was read has been examined. -/
theorem load_eq_ok_iff {text : String} {l : Checklist} :
    load text = .ok l ↔
      (∃ table, Toml.parse text = .ok table ∧ ofTable table = .ok l) ∧ l.issues = [] := by
  rw [← Result.bind_eq_ok_iff, load]
  cases Toml.parse text >>= ofTable with
  | error e => simp
  | ok l' =>
    simp only [validated_eq_ok_iff, Except.ok.injEq, eq_comm (a := l)]
    refine and_congr_right fun heq => ?_
    rw [heq]

end Checklist

/-! ## Running valid checks -/

/-- Bounds that are not the wrong way round are met by the least number that they ask for. -/
theorem Bounds.accepts_least {b : Bounds} (h : ∀ min ∈ b.min?, ∀ max ∈ b.max?, min ≤ max) :
    b.accepts b.least = true := by
  obtain ⟨min?, max?⟩ := b
  cases min? with
  | none => cases max? <;> simp [accepts, least]
  | some min =>
    cases max? with
    | none => simp [accepts, least]
    | some max =>
      have hle : min ≤ max := h min rfl max rfl
      simp [accepts, least, hle]

namespace Check

/-- The outcome of a valid check is that of a search that did take place or was refused. -/
theorem Valid.run_eq_judge {c : Check} (h : c.Valid) (g : Registry) (d : Document) :
    ∃ result, c.run g d = c.judge result ∧ ∀ e, result ≠ .error (.selector e) := by
  rcases h.query with ⟨text, s, hs, hm, hparse, -⟩ | ⟨name, hs, hm, -⟩
  · refine ⟨_, run_of_selector hs hm hparse g d, fun e => ?_⟩
    rw [ne_eq, Result.map_eq_error_iff]
    exact find_ne_selector g d.topLevel s e
  · refine ⟨_, run_of_method hs hm g d, fun e => ?_⟩
    rw [ne_eq, Result.map_eq_error_iff]
    exact invoke_ne_selector g name d.topLevel c.params _ e

end Check

namespace Checklist

theorem map_id_run (g : Registry) (d : Document) (l : Checklist) :
    (l.run g d).map (·.id) = l.checks.map (·.id) := by
  rw [run, List.map_map]
  exact List.map_congr_left fun c _ => c.run_id g d

/-- A checklist that has no faults, or was read, can be run on any document and with any operators.
    No check lacks a query, and none fails because its selector cannot be read. The outcomes come
    in the order of the checks, under their identifiers, which are not blank and all different.
    And every check can be passed: it accepts the least number of matches that it asks for. -/
theorem run_of_validated (l : Checklist)
    (h : l.validated = .ok l ∨ ∃ text, Checklist.load text = .ok l) :
    (∀ (g : Registry) (d : Document),
      (∀ c ∈ l.checks, (∀ reason, (c.run g d).status ≠ .invalid reason) ∧
        ∀ e, (c.run g d).status ≠ .error (.selector e)) ∧
      (l.run g d).map (·.id) = l.checks.map (·.id) ∧
      (∀ o ∈ l.run g d, Text.isBlankText o.id = false) ∧
      ((l.run g d).map (·.id)).Nodup) ∧
    ∀ c ∈ l.checks, c.bounds.accepts c.bounds.least = true := by
  have hissues : l.issues = [] := by
    rcases h with h | ⟨text, h⟩
    · exact (validated_eq_ok_iff.1 h).2
    · exact (load_eq_ok_iff.1 h).2
  obtain ⟨-, hvalid, hdistinct⟩ := issues_eq_nil_iff.1 hissues
  refine ⟨fun g d => ⟨fun c hc => ?_, map_id_run g d l, fun o ho => ?_, ?_⟩, fun c hc => ?_⟩
  · obtain ⟨result, hrun, hresult⟩ := (hvalid c hc).run_eq_judge g d
    rw [hrun]
    refine ⟨Check.judge_status_ne_invalid c result, fun e => ?_⟩
    rw [ne_eq, Check.judge_status_eq_error_iff]
    exact hresult e
  · obtain ⟨c, hc, rfl⟩ := List.mem_map.1 ho
    rw [c.run_id g d]
    exact (hvalid c hc).id_not_blank
  · rw [map_id_run]
    exact hdistinct
  · exact Bounds.accepts_least (hvalid c hc).min_le_max

/-- A check with a selector, and a check with a method that there is not. -/
def sumChecks : Checklist :=
  ⟨"", none, [
    ⟨"sum", some "operator[name=addition]", none, .empty, none, ⟨none, none⟩, none⟩,
    ⟨"echo", none, some "find_echo", .empty, none, ⟨none, some 0⟩, none⟩]⟩

/-- The text that these checks are read from. -/
def sumChecksText : String :=
  "[[checks]]\nid='sum'\nselector='operator[name=addition]'\n" ++
    "[[checks]]\nid='echo'\nmethod='find_echo'\nmax=0"

/-- An unknown method is no fault of a checklist. It shows when the check is run. -/
theorem run_of_validated_sum :
    load sumChecksText = .ok sumChecks ∧
      (sumChecks.run .standard sumDocument).map (·.status) =
        [.passed, .error (.unknownMethod "find_echo" Registry.methodNames)] ∧
      ((sumChecks.run .standard sumDocument).map (·.id)).Nodup ∧
      ∀ c ∈ sumChecks.checks, c.bounds.accepts c.bounds.least = true := by
  have hload : load sumChecksText = .ok sumChecks := by decide +kernel
  obtain ⟨hrun, hbounds⟩ := run_of_validated sumChecks (.inr ⟨sumChecksText, hload⟩)
  exact ⟨hload, by decide +kernel, (hrun .standard sumDocument).2.2.2, hbounds⟩

end Checklist

end TreeQuery
