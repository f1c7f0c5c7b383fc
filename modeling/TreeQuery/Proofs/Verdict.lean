import TreeQuery.Command.Program
import TreeQuery.Proofs.Expectation
import TreeQuery.Proofs.Issues
import TreeQuery.Proofs.Output

/-!
# What a run of checklists ends with

The command that checks sources runs every checklist of a directory on its own source. It goes
well exactly if all of them can be loaded and all their checks are met. A check that is not met
does not keep the command from going on; only a checklist or a source that cannot be loaded does.

Results:
* `Check.passed_run_iff_met`: a check passes exactly if its query succeeds with a number of matches
  within the bounds.
* `Check.Told`: what is printed about a check. `Check.told_run`: it is the report on its outcome.
* `CheckSources.Job`: a checklist and its source, both loaded. `Job.Ready`, `Job.Passes` and
  `Job.report` say when it is what files say, when it goes well, and what is printed about it.
* `CheckSources.result_runAll_eq_true_iff`, `CheckSources.exists_output_runAll`: what becomes of
  several checklists, and what is printed about them.
* `CheckSources.exitCode_and_reports`: the same of the whole command.
-/

namespace TreeQuery

/-! ## Checks that are met -/

namespace Check

/-- The query of a check succeeds on a document, with `count` matches. -/
inductive Counts (g : Registry) (d : Document) (c : Check) : Nat → Prop
  | selector {text : String} {s : Selector} {nodes : List Node} : c.selector? = some text →
      c.method? = none → Selector.parse text = .ok s → find g d.topLevel s = .ok nodes →
      Counts g d c nodes.length
  | method {name : String} {nodes : List Node} : c.selector? = none → c.method? = some name →
      invoke g name d.topLevel c.params (c.descend?.getD true) = .ok nodes →
      Counts g d c nodes.length

/-- The query of a check succeeds with a number of matches within the bounds. -/
def Met (g : Registry) (d : Document) (c : Check) : Prop :=
  ∃ count, c.Counts g d count ∧ c.bounds.least ≤ count ∧ ∀ max ∈ c.bounds.max?, count ≤ max

theorem passed_judge_iff {c : Check} {result : Except QueryError Nat} :
    (c.judge result).passed = true ↔ ∃ count, result = .ok count ∧ c.bounds.accepts count := by
  cases result with
  | error e => simp [judge, Outcome.passed]
  | ok count =>
    rw [judge]
    split
    · rename_i h
      simp [Outcome.passed, h]
    · rename_i h
      simp [Outcome.passed, h]

theorem met_of_passed_run {g : Registry} {d : Document} {c : Check}
    (h : (c.run g d).passed = true) : c.Met g d := by
  unfold run source at h
  cases hs : c.selector? with
  | some text =>
    cases hm : c.method? with
    | some name =>
      rw [hs, hm] at h
      cases h
    | none =>
      rw [hs, hm] at h
      obtain ⟨count, hcount, haccepts⟩ := passed_judge_iff.1 h
      obtain ⟨s, hparse, hcount⟩ := Result.bind_eq_ok_iff.1 hcount
      obtain ⟨nodes, hfind, hcount⟩ := Result.bind_eq_ok_iff.1 hcount
      cases hcount
      rw [Result.mapError_eq_ok_iff] at hparse
      exact ⟨_, .selector hs hm hparse hfind, Bounds.accepts_iff.1 haccepts⟩
  | none =>
    cases hm : c.method? with
    | some name =>
      rw [hs, hm] at h
      obtain ⟨count, hcount, haccepts⟩ := passed_judge_iff.1 h
      obtain ⟨nodes, hinvoke, rfl⟩ := Result.map_eq_ok_iff.1 hcount
      exact ⟨_, .method hs hm hinvoke, Bounds.accepts_iff.1 haccepts⟩
    | none =>
      rw [hs, hm] at h
      cases h

theorem passed_run_of_met {g : Registry} {d : Document} {c : Check} (h : c.Met g d) :
    (c.run g d).passed = true := by
  obtain ⟨count, hcounts, hbounds⟩ := h
  have haccepts := Bounds.accepts_iff.2 hbounds
  cases hcounts with
  | selector hs hm hparse hfind =>
    rw [run_of_selector hs hm hparse, hfind]
    exact passed_judge_iff.2 ⟨_, rfl, haccepts⟩
  | method hs hm hinvoke =>
    rw [run_of_method hs hm, hinvoke]
    exact passed_judge_iff.2 ⟨_, rfl, haccepts⟩

/-- A check passes exactly if its query succeeds with as many matches as asked for. An error does
    not pass, whatever the bounds are. -/
theorem passed_run_iff_met {g : Registry} {d : Document} {c : Check} :
    (c.run g d).passed = true ↔ c.Met g d :=
  ⟨met_of_passed_run, passed_run_of_met⟩

instance (g : Registry) (d : Document) (c : Check) : Decidable (c.Met g d) :=
  decidable_of_iff _ passed_run_iff_met

/-! ## What is printed about checks -/

/-- The query of a check fails on a document. -/
inductive Refused (g : Registry) (d : Document) (c : Check) : QueryError → Prop
  | selector {text : String} {s : Selector} {e : QueryError} : c.selector? = some text →
      c.method? = none → Selector.parse text = .ok s → find g d.topLevel s = .error e →
      Refused g d c e
  | method {name : String} {e : QueryError} : c.selector? = none → c.method? = some name →
      invoke g name d.topLevel c.params (c.descend?.getD true) = .error e → Refused g d c e

/-- The lines about a check. They give the number of matches if it is within the bounds. If it is
    not, they also say what was expected, and give the message of the check if it has one. If the
    query fails, they say why. -/
inductive Told (s : Session) (d : Document) (c : Check) : List String → Prop
  | met {count : Nat} : c.Counts .standard d count →
      (c.bounds.least ≤ count ∧ ∀ max ∈ c.bounds.max?, count ≤ max) →
      Told s d c
        ["  " ++ s.paint .green "✓" ++ " " ++ c.id ++ " (" ++ toString count ++ " match(es))"]
  | unmet {count : Nat} : c.Counts .standard d count →
      ¬ (c.bounds.least ≤ count ∧ ∀ max ∈ c.bounds.max?, count ≤ max) →
      Told s d c
        (("  " ++ s.paint .red "✗" ++ " " ++ c.id ++ ": expected " ++ c.bounds.expectation.text ++
          ", found " ++ toString count) ::
        (c.message?.map fun message => "    " ++ s.paint .dimmed message).toList)
  | refused {e : QueryError} : c.Refused .standard d e →
      Told s d c ["  " ++ s.paint .red "✗" ++ " " ++ c.id ++ ": " ++ e.message]

theorem told_judge {s : Session} {d : Document} {c : Check}
    {result : Except QueryError (List Node)}
    (hcounts : ∀ nodes, result = .ok nodes → c.Counts .standard d nodes.length)
    (hrefused : ∀ e, result = .error e → c.Refused .standard d e) :
    c.Told s d ((c.judge (result.map List.length)).report s) := by
  cases result with
  | error e => exact .refused (hrefused e rfl)
  | ok nodes =>
    have hcount := hcounts nodes rfl
    by_cases haccepts : c.bounds.accepts nodes.length
    · have hjudge : c.judge (.ok nodes.length) = ⟨c.id, nodes.length, .passed, c.message?⟩ :=
        if_pos haccepts
      rw [Except.map, hjudge]
      exact .met hcount (Bounds.accepts_iff.1 haccepts)
    · have hjudge : c.judge (.ok nodes.length) =
          ⟨c.id, nodes.length, .failed c.bounds.expectation, c.message?⟩ :=
        if_neg haccepts
      rw [Except.map, hjudge]
      exact .unmet hcount fun hbounds => haccepts (Bounds.accepts_iff.2 hbounds)

/-- The report on a check that has a query tells what became of it. -/
theorem told_run {c : Check} (h : c.HasSelector ∨ c.HasMethod) (s : Session) (d : Document) :
    c.Told s d ((c.run .standard d).report s) := by
  rcases h with ⟨text, selector, hs, hm, hparse, -⟩ | ⟨name, hs, hm, -⟩
  · rw [run_of_selector hs hm hparse]
    exact told_judge (fun _ hfind => .selector hs hm hparse hfind)
      fun _ hfind => .selector hs hm hparse hfind
  · rw [run_of_method hs hm]
    exact told_judge (fun _ hinvoke => .method hs hm hinvoke)
      fun _ hinvoke => .method hs hm hinvoke

end Check

theorem Checklist.allPassed_run_iff {l : Checklist} {g : Registry} {d : Document} :
    allPassed (l.run g d) = true ↔ ∀ c ∈ l.checks, c.Met g d := by
  simp only [allPassed, Checklist.run, List.all_eq_true, List.forall_mem_map,
    Check.passed_run_iff_met]

namespace CheckSources

/-! ## One checklist -/

/-- A checklist from a file, and the source it is run on. -/
structure Job where
  file : String
  checklist : Checklist
  source : String
  document : Document

/-- The file can be read, its text is a TOML document that gives the checklist, and the checklist
    is sound. -/
structure Loads (s : Session) (file : String) (l : Checklist) : Prop where
  reads : ∃ text table, s.volume.read file = .ok text ∧ Toml.parse text.source = .ok table ∧
    Checklist.ofTable table = .ok l
  sound : l.Sound

namespace Job

/-- The checklist and the source are what a session finds in their files. The checklist has no
    faults, and the source is at `path?` if that is given, and is the answer to the checklist if
    not. -/
structure Ready (s : Session) (path? : Option String) (j : Job) : Prop where
  checklist_loads : Loads s j.file j.checklist
  source_given : path?.or (s.settings.answerFor? j.file) = some j.source
  source_loads : s.volume.read j.source = .ok j.document

/-- All checks are met. -/
def Passes (j : Job) : Prop :=
  ∀ c ∈ j.checklist.checks, c.Met .standard j.document

/-- The number of checks that are met. -/
def passed (j : Job) : Nat :=
  j.checklist.checks.countP fun c => c.Met .standard j.document

/-- The number of checks that are not met. -/
def failed (j : Job) : Nat :=
  j.checklist.checks.countP fun c => ¬ c.Met .standard j.document

/-- The lines that are printed about a checklist: its title, the outcomes of all its checks, and
    how many of them are met and how many are not. -/
def report (s : Session) (j : Job) : List String :=
  let title := if j.checklist.name.isEmpty then j.file else j.checklist.name
  [s.paint .bold title ++ " " ++ s.paint .dimmed ("(" ++ j.source ++ ")")] ++
    (j.checklist.run .standard j.document).flatMap (Outcome.report s) ++
    ["  " ++ s.paint .green (toString j.passed) ++ " passed, " ++
      s.paint .red (toString j.failed) ++ " failed"]

theorem passed_add_failed (j : Job) : j.passed + j.failed = j.checklist.checks.length := by
  unfold passed failed
  rw [List.length_eq_countP_add_countP fun c => decide (c.Met .standard j.document)]
  simp

end Job

theorem summary_run (s : Session) (j : Job) :
    summary s (j.checklist.run .standard j.document) =
      "  " ++ s.paint .green (toString j.passed) ++ " passed, " ++
        s.paint .red (toString j.failed) ++ " failed" := by
  have hpassed : (j.checklist.run .standard j.document).countP Outcome.passed = j.passed := by
    rw [Checklist.run, List.countP_map]
    refine List.countP_congr fun c _ => ?_
    simp [Check.passed_run_iff_met]
  have hfailed : (j.checklist.run .standard j.document).length - j.passed = j.failed := by
    have := j.passed_add_failed
    rw [Checklist.run, List.length_map]
    omega
  rw [summary, hpassed, hfailed]

theorem aside_logCheck (s : Session) (d : Document) (c : Check) : (logCheck s d c).Aside := by
  have hwrite (part : Log.Part) (text : String) : (Log.write s.notes part text).Aside :=
    ⟨Log.silent_write .., Log.result_write ..⟩
  unfold logCheck
  split
  · split
    · split
      · exact (hwrite _ _).bind (hwrite _ _)
      · exact hwrite _ _
    · exact hwrite _ _
  · exact hwrite _ _

/-- What is done with a checklist and a source that are loaded: all is printed that there is to
    say about them. -/
def tell (s : Session) (j : Job) : Run Bool := do
  let title := if j.checklist.name.isEmpty then j.file else j.checklist.name
  Run.out (s.paint .bold title ++ " " ++ s.paint .dimmed ("(" ++ j.source ++ ")"))
  j.checklist.checks.forM (logCheck s j.document)
  let outcomes := j.checklist.run .standard j.document
  outcomes.forM fun o => (o.report s).forM Run.out
  Run.out (summary s outcomes)
  return allPassed outcomes

theorem runOne_eq_tell (s : Session) (file source : String) :
    runOne s file source = (do
      let l ← loadChecklist s file
      let d ← s.loadSource source
      tell s ⟨file, l, source, d⟩) :=
  rfl

section Tell

variable (s : Session) (j : Job)

theorem result_logChecks : (j.checklist.checks.forM (logCheck s j.document)).result = .ok () :=
  Run.result_forM fun c => (aside_logCheck s j.document c).ends

theorem silent_logChecks : (j.checklist.checks.forM (logCheck s j.document)).Silent :=
  Run.silent_forM fun c => (aside_logCheck s j.document c).silent

theorem result_lines (lines : List String) : (lines.forM Run.out).result = .ok () :=
  Run.result_forM fun _ => rfl

theorem output_lines (lines : List String) : (lines.forM Run.out).output = lines := by
  rw [Run.output_forM fun _ => rfl]
  simp

theorem result_tell :
    (tell s j).result = .ok (allPassed (j.checklist.run .standard j.document)) := by
  unfold tell
  rw [Run.result_bind_of_ok rfl, Run.result_bind_of_ok (result_logChecks s j),
    Run.result_bind_of_ok (Run.result_forM fun _ => result_lines _), Run.result_bind_of_ok rfl]
  rfl

theorem output_tell : (tell s j).output = j.report s := by
  unfold tell
  rw [Run.output_bind_of_ok rfl, Run.output_bind_of_ok (result_logChecks s j),
    Run.output_bind_of_ok (Run.result_forM fun _ => result_lines _), Run.output_bind_of_ok rfl,
    silent_logChecks, Run.output_forM fun _ => result_lines _]
  simp only [output_lines, Run.output_out, Run.output_pure, summary_run, Job.report]
  simp

end Tell

/-! ## Loading -/

theorem result_loadChecklist_eq_ok_iff {s : Session} {file : String} {l : Checklist} :
    (loadChecklist s file).result = .ok l ↔ Loads s file l := by
  unfold loadChecklist
  rw [Run.result_bind_eq_ok_iff]
  simp only [Run.ofExcept, Result.mapError_eq_ok_iff, Checklist.load_eq_ok_iff,
    Checklist.issues_eq_nil_iff_sound]
  constructor
  · rintro ⟨text, hread, ⟨table, hparse, htable⟩, hsound⟩
    exact ⟨⟨text, table, hread, hparse, htable⟩, hsound⟩
  · rintro ⟨⟨text, table, hread, hparse, htable⟩, hsound⟩
    exact ⟨text, hread, ⟨table, hparse, htable⟩, hsound⟩

theorem silent_loadChecklist (s : Session) (file : String) : (loadChecklist s file).Silent :=
  (Run.silent_ofExcept _).bind fun _ _ => Run.silent_ofExcept _

theorem sourceFor_eq_ok_iff {s : Session} {path? : Option String} {file source : String} :
    sourceFor s path? file = .ok source ↔
      path?.or (s.settings.answerFor? file) = some source := by
  unfold sourceFor
  cases path? with
  | some path => simp
  | none =>
    cases s.settings.answerFor? file with
    | some answer => simp
    | none => simp

theorem result_runOne_eq_ok_iff {s : Session} {file source : String} {b : Bool} :
    (runOne s file source).result = .ok b ↔
      ∃ l d, Loads s file l ∧ s.volume.read source = .ok d ∧
        allPassed (l.run .standard d) = b := by
  rw [runOne_eq_tell]
  simp only [Run.result_bind_eq_ok_iff, result_loadChecklist_eq_ok_iff, Session.result_loadSource,
    Result.mapError_eq_ok_iff, result_tell, Except.ok.injEq, exists_and_left]

/-- Nothing is printed about a checklist that cannot be loaded, or whose source cannot. -/
theorem allOrNothing_runOne (s : Session) (file source : String) :
    (runOne s file source).AllOrNothing := by
  rw [runOne_eq_tell]
  refine .after_silent (silent_loadChecklist s file) fun l => ?_
  refine .after_silent (s.silent_loadSource source) fun d => ?_
  unfold Run.AllOrNothing
  rw [output_tell, result_tell]
  simp [Job.report]

/-! ## Several checklists -/

section All

variable {s : Session} {path? : Option String}

/-- A checklist and a source that can be loaded are run. -/
theorem result_runOne_of_ready {j : Job} (h : j.Ready s path?) :
    (runOne s j.file j.source).result =
      .ok (allPassed (j.checklist.run .standard j.document)) :=
  result_runOne_eq_ok_iff.2 ⟨_, _, h.checklist_loads, h.source_loads, rfl⟩

theorem output_runOne_of_ready {j : Job} (h : j.Ready s path?) :
    (runOne s j.file j.source).output = j.report s := by
  have hl := result_loadChecklist_eq_ok_iff.2 h.checklist_loads
  have hd : (s.loadSource j.source).result = .ok j.document := by
    rw [s.result_loadSource, h.source_loads]
    rfl
  rw [runOne_eq_tell, Run.output_bind_of_ok hl, Run.output_bind_of_ok hd, output_tell,
    silent_loadChecklist, s.silent_loadSource]
  rfl

theorem exists_ready_of_result_runOne {file source : String} {b : Bool}
    (hsource : sourceFor s path? file = .ok source)
    (h : (runOne s file source).result = .ok b) :
    ∃ j : Job, j.file = file ∧ j.Ready s path? ∧
      allPassed (j.checklist.run .standard j.document) = b := by
  obtain ⟨l, d, hl, hd, hpassed⟩ := result_runOne_eq_ok_iff.1 h
  exact ⟨⟨file, l, source, d⟩, rfl, ⟨hl, sourceFor_eq_ok_iff.1 hsource, hd⟩, hpassed⟩

theorem result_runAll_cons_eq_ok_iff {file : String} {files : List String} {b : Bool} :
    (runAll s path? (file :: files)).result = .ok b ↔
      ∃ j : Job, j.file = file ∧ j.Ready s path? ∧
        ∃ others, (runAll s path? files).result = .ok others ∧
          (allPassed (j.checklist.run .standard j.document) && others) = b := by
  rw [runAll]
  constructor
  · intro h
    obtain ⟨source, hsource, h⟩ := Run.result_bind_eq_ok_iff.1 h
    obtain ⟨passed, hpassed, h⟩ := Run.result_bind_eq_ok_iff.1 h
    obtain ⟨-, -, h⟩ := Run.result_bind_eq_ok_iff.1 h
    obtain ⟨others, hothers, h⟩ := Run.result_bind_eq_ok_iff.1 h
    obtain ⟨j, hfile, hready, rfl⟩ := exists_ready_of_result_runOne hsource hpassed
    cases h
    exact ⟨j, hfile, hready, others, hothers, rfl⟩
  · rintro ⟨j, rfl, hready, others, hothers, rfl⟩
    have hsource := sourceFor_eq_ok_iff.2 hready.source_given
    rw [Run.result_bind_of_ok (a := j.source) hsource,
      Run.result_bind_of_ok (result_runOne_of_ready hready), Run.result_bind_of_ok rfl,
      Run.result_bind_of_ok hothers]
    rfl

/-- Checklists go well exactly if all of them can be loaded with their sources, and all their
    checks are met. -/
theorem result_runAll_eq_true_iff {files : List String} :
    (runAll s path? files).result = .ok true ↔
      ∀ file ∈ files, ∃ j : Job, j.file = file ∧ j.Ready s path? ∧ j.Passes := by
  induction files with
  | nil => simp [runAll]
  | cons file files ih =>
    rw [result_runAll_cons_eq_ok_iff, List.forall_mem_cons, ← ih]
    constructor
    · rintro ⟨j, hfile, hready, others, hothers, hpassed⟩
      rw [Bool.and_eq_true] at hpassed
      obtain ⟨hpassed, rfl⟩ := hpassed
      exact ⟨⟨j, hfile, hready, Checklist.allPassed_run_iff.1 hpassed⟩, hothers⟩
    · rintro ⟨⟨j, hfile, hready, hpasses⟩, hothers⟩
      refine ⟨j, hfile, hready, true, hothers, ?_⟩
      rw [Checklist.allPassed_run_iff.2 hpasses]
      rfl

theorem output_runAll_cons_of_ready {j : Job} (h : j.Ready s path?) (files : List String) :
    (runAll s path? (j.file :: files)).output =
      j.report s ++ [""] ++ (runAll s path? files).output := by
  have hsource := sourceFor_eq_ok_iff.2 h.source_given
  -- the others are run whatever the result is
  have hothers (passed : Bool) :
      (runAll s path? files >>= fun others => pure (passed && others)).output =
        (runAll s path? files).output := by
    cases hresult : (runAll s path? files).result with
    | ok others => rw [Run.output_bind_of_ok hresult, Run.output_pure, List.append_nil]
    | error f => rw [Run.output_bind_of_error hresult]
  rw [runAll, Run.output_bind_of_ok (a := j.source) hsource,
    Run.output_bind_of_ok (result_runOne_of_ready h), Run.output_bind_of_ok rfl, hothers,
    output_runOne_of_ready h]
  simp

theorem output_runAll_cons_of_not_ready {file : String}
    (h : ∀ j : Job, j.file = file → ¬ j.Ready s path?) (files : List String) :
    (runAll s path? (file :: files)).output = [] := by
  rw [runAll]
  cases hsource : sourceFor s path? file with
  | error f => rfl
  | ok source =>
    rw [Run.output_bind_of_ok rfl, Run.output_ofExcept, List.nil_append]
    cases hresult : (runOne s file source).result with
    | error f =>
      rw [Run.output_bind_of_error hresult]
      exact (allOrNothing_runOne s file source).2 ⟨f, hresult⟩
    | ok b =>
      obtain ⟨j, hfile, hready, -⟩ := exists_ready_of_result_runOne hsource hresult
      exact absurd hready (h j hfile)

/-- What is printed about checklists: the reports of all those in front of the first that cannot
    be loaded, or whose source cannot, and of no others. -/
theorem exists_output_runAll (files : List String) :
    ∃ (jobs : List Job) (rest : List String),
      files = jobs.map Job.file ++ rest ∧ (∀ j ∈ jobs, j.Ready s path?) ∧
        (∀ j : Job, rest.head? = some j.file → ¬ j.Ready s path?) ∧
        (runAll s path? files).output = jobs.flatMap fun j => j.report s ++ [""] := by
  induction files with
  | nil => exact ⟨[], [], rfl, by simp, by simp, rfl⟩
  | cons file files ih =>
    by_cases h : ∃ j : Job, j.file = file ∧ j.Ready s path?
    · obtain ⟨j, rfl, hready⟩ := h
      obtain ⟨jobs, rest, rfl, hjobs, hrest, houtput⟩ := ih
      refine ⟨j :: jobs, rest, rfl, List.forall_mem_cons.2 ⟨hready, hjobs⟩, hrest, ?_⟩
      rw [output_runAll_cons_of_ready hready, houtput, List.flatMap_cons]
    · have hnone : ∀ j : Job, j.file = file → ¬ j.Ready s path? := by
        intro j hfile hready
        exact h ⟨j, hfile, hready⟩
      refine ⟨[], file :: files, rfl, by simp, fun j hj => ?_, ?_⟩
      · exact hnone j (Option.some.inj hj).symm
      · rw [output_runAll_cons_of_not_ready hnone, List.flatMap_nil]

end All

/-! ## The command -/

/-- The checklists that are in a directory. -/
def listed (v : Volume) (dir : String) : List String :=
  match v.look dir with
  | .ok entry => (entry.filesAt dir).filter fun p => Path.extension? p == some "toml"
  | .error _ => []

theorem checklistsIn_eq_ok_iff {v : Volume} {dir : String} {files : List String} :
    checklistsIn v dir = .ok files ↔ files = listed v dir ∧ files ≠ [] := by
  unfold checklistsIn listed
  cases v.look dir with
  | error e =>
    show Except.error _ = Except.ok files ↔ files = [] ∧ files ≠ []
    simp
  | ok entry =>
    let found := (entry.filesAt dir).filter fun p => Path.extension? p == some "toml"
    show (if found.isEmpty then .error (Failure.noChecklists dir) else .ok found) =
      Except.ok files ↔ files = found ∧ files ≠ []
    generalize found = found
    cases found with
    | nil => simp
    | cons file others =>
      constructor
      · rintro ⟨⟩
        exact ⟨rfl, List.cons_ne_nil file others⟩
      · rintro ⟨rfl, -⟩
        rfl

end CheckSources

theorem Program.exitCode_eq_zero_iff {r : Run Bool} : exitCode r = 0 ↔ r.result = .ok true := by
  obtain ⟨lines, result⟩ := r
  cases result with
  | error f => simp [exitCode]
  | ok b => cases b <;> simp [exitCode]

namespace CheckSources

/-- The command that checks all checklists of a directory exits with 0 exactly if there are any,
    every one of them can be loaded with its source, and every check of every one of them is met:
    its query succeeds, with a number of matches within the bounds. And it prints the reports of
    all checklists in front of the first that cannot be loaded, or whose source cannot, whether
    their checks are met or not. A report tells of every check whether it is met, and counts it
    once, as met or as not met. -/
theorem exitCode_and_reports (s : Session) (path? : Option String) :
    let run := Program.command s (.check none path?)
    let files := listed s.volume s.settings.proofDir
    (Program.exitCode run = 0 ↔
      files ≠ [] ∧ ∀ file ∈ files, ∃ j : Job, j.file = file ∧ j.Ready s path? ∧ j.Passes) ∧
    (∃ (jobs : List Job) (rest : List String),
      files = jobs.map Job.file ++ rest ∧ (∀ j ∈ jobs, j.Ready s path?) ∧
        (∀ j : Job, rest.head? = some j.file → ¬ j.Ready s path?) ∧
        run.output = jobs.flatMap fun j => j.report s ++ [""]) ∧
    (∀ j : Job, j.Ready s path? → ∀ c ∈ j.checklist.checks,
      c.Told s j.document ((c.run .standard j.document).report s)) ∧
    ∀ j : Job, j.passed + j.failed = j.checklist.checks.length := by
  intro run files
  have hrun : run = (Run.ofExcept (checklistsIn s.volume s.settings.proofDir) >>=
      fun checklists => runAll s path? checklists) := rfl
  refine ⟨?_, ?_, fun j hready c hc => ?_, Job.passed_add_failed⟩
  · rw [Program.exitCode_eq_zero_iff, hrun, Run.result_bind_eq_ok_iff]
    simp only [Run.ofExcept, checklistsIn_eq_ok_iff, result_runAll_eq_true_iff, and_assoc,
      exists_eq_left]
    rfl
  · by_cases hfiles : files = []
    · -- without checklists the command fails at once
      refine ⟨[], [], hfiles, by simp, by simp, ?_⟩
      cases hchecklists : checklistsIn s.volume s.settings.proofDir with
      | error f => rw [hrun, hchecklists]; rfl
      | ok found =>
        obtain ⟨rfl, hne⟩ := checklistsIn_eq_ok_iff.1 hchecklists
        exact absurd hfiles hne
    · have hchecklists := checklistsIn_eq_ok_iff.2 ⟨rfl, hfiles⟩
      rw [hrun, hchecklists, Run.output_bind_of_ok rfl, Run.output_ofExcept, List.nil_append]
      exact exists_output_runAll files
  · exact Check.told_run (hready.checklist_loads.sound.hasQuery hc) s j.document

end CheckSources

end TreeQuery
