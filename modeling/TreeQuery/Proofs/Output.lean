import TreeQuery.Command.Find
import TreeQuery.Proofs.Result

/-!
# What is printed before a failure

The command that finds nodes prints as it goes, document by document, and resolves the selector
anew for each of them. Still it prints nothing if it fails: all documents are loaded before the
first is searched, and a selector that can be resolved once can be resolved for all of them.

* `Run.Silent`: a run that prints nothing on the output, whatever it prints beside it.
* `Run.Aside`: a run that prints nothing on the output and ends well, such as a note.
* `Run.AllOrNothing`: a run that prints on the output exactly if it ends well.
* `Find.silent_loadAll`: documents are loaded silently.
* `Find.result_searchAll_of_ok`: what a search of several documents comes to.
* `Find.silent_searchAll_of_error`: a search that fails has been silent.
* `Find.output_run_eq_nil_iff_failed`: the command prints nothing exactly if it fails.
-/

namespace TreeQuery

/-! ## Silent runs -/

namespace Run

variable {α β : Type} {r : Run α} {next : α → Run β}

theorem result_bind_of_ok {a : α} (h : r.result = .ok a) (next : α → Run β) :
    (r >>= next).result = (next a).result := by
  rw [bind_of_ok h]

theorem result_bind_of_error {f : Failure} (h : r.result = .error f) (next : α → Run β) :
    (r >>= next).result = .error f := by
  rw [bind_of_error h]

/-- Nothing is printed on the output. -/
def Silent (r : Run α) : Prop :=
  r.output = []

theorem silent_pure (a : α) : (pure a : Run α).Silent :=
  output_pure a

theorem silent_note (text : String) : (note text).Silent :=
  output_note text

theorem silent_ofExcept (result : Except Failure α) : (ofExcept result).Silent :=
  output_ofExcept result

theorem Silent.bind (hr : r.Silent) (hnext : ∀ a, r.result = .ok a → (next a).Silent) :
    (r >>= next).Silent := by
  unfold Silent at *
  cases h : r.result with
  | error f => rw [output_bind_of_error h, hr]
  | ok a => rw [output_bind_of_ok h, hr, hnext a h, List.append_nil]

theorem silent_forM {items : List α} {f : α → Run Unit} (h : ∀ a, (f a).Silent) :
    (items.forM f).Silent := by
  induction items with
  | nil => exact silent_pure ()
  | cons a items ih =>
    show (f a >>= fun _ => items.forM f).Silent
    exact (h a).bind fun _ _ => ih

/-- Going through a list ends well if every step does. -/
theorem result_forM {items : List α} {f : α → Run Unit} (h : ∀ a, (f a).result = .ok ()) :
    (items.forM f).result = .ok () := by
  induction items with
  | nil => rfl
  | cons a items ih =>
    show (f a >>= fun _ => items.forM f).result = .ok ()
    rw [result_bind_of_ok (h a), ih]

/-- What is printed when a list is gone through, if every step ends well. -/
theorem output_forM {items : List α} {f : α → Run Unit} (h : ∀ a, (f a).result = .ok ()) :
    (items.forM f).output = items.flatMap fun a => (f a).output := by
  induction items with
  | nil => rfl
  | cons a items ih =>
    show (f a >>= fun _ => items.forM f).output = _
    rw [output_bind_of_ok (h a), ih, List.flatMap_cons]

/-- A run that ends well and prints nothing on the output. -/
structure Aside (r : Run Unit) : Prop where
  silent : r.Silent
  ends : r.result = .ok ()

theorem Aside.bind {r r' : Run Unit} (h : r.Aside) (h' : r'.Aside) : (r >>= fun _ => r').Aside where
  silent := h.silent.bind fun _ _ => h'.silent
  ends := by rw [result_bind_of_ok h.ends, h'.ends]

/-- A run that prints on the output exactly if it ends well. -/
def AllOrNothing (r : Run α) : Prop :=
  r.output = [] ↔ ∃ f, r.result = .error f

/-- What comes first may fail, as long as it is silent. -/
theorem AllOrNothing.after_silent (hr : r.Silent) (hnext : ∀ a, (next a).AllOrNothing) :
    (r >>= next).AllOrNothing := by
  unfold AllOrNothing Silent at *
  cases h : r.result with
  | error f =>
    rw [output_bind_of_error h, result_bind_of_error h]
    simp [hr]
  | ok a =>
    rw [output_bind_of_ok h, result_bind_of_ok h, hr, List.nil_append]
    exact hnext a

/-- What comes first may print, as long as it is silent when it fails, and what comes then prints
    and does not fail. -/
theorem AllOrNothing.before_end (hr : ∀ f, r.result = .error f → r.Silent)
    (hnext : ∀ a, (next a).output ≠ [] ∧ ∃ b, (next a).result = .ok b) :
    (r >>= next).AllOrNothing := by
  unfold AllOrNothing
  cases h : r.result with
  | error f =>
    rw [output_bind_of_error h, result_bind_of_error h, hr f h]
    simp
  | ok a =>
    obtain ⟨houtput, b, hb⟩ := hnext a
    rw [output_bind_of_ok h, result_bind_of_ok h, hb]
    simp [houtput]

end Run

theorem Log.silent_write (notes : Log.Notes) (part : Log.Part) (text : String) :
    (Log.write notes part text).Silent := by
  cases notes with
  | off => exact Run.silent_pure ()
  | plain => exact Run.silent_note _
  | coloured => exact Run.silent_note _

theorem Log.result_write (notes : Log.Notes) (part : Log.Part) (text : String) :
    (Log.write notes part text).result = .ok () := by
  cases notes <;> rfl

/-! ## One document -/

namespace Session

theorem silent_loadSource (s : Session) (path : String) : (s.loadSource path).Silent := by
  refine (Run.silent_ofExcept _).bind fun d _ => ?_
  dsimp only
  split
  · exact (Run.silent_forM fun f => Run.silent_note _).bind fun _ _ => Run.silent_pure d
  · exact Run.silent_pure d

/-- A source can be loaded exactly if it can be read; its faults do not matter. -/
theorem result_loadSource (s : Session) (path : String) :
    (s.loadSource path).result = (s.volume.read path).mapError (.source path) := by
  unfold loadSource
  cases s.volume.read path with
  | error e => rfl
  | ok d =>
    show (if d.hasFaults then _ else _ : Run Document).result = .ok d
    split
    · rw [Run.result_bind_of_ok (Run.result_forM fun f => rfl)]
      rfl
    · rfl

theorem silent_search (s : Session) (d : Document) (selector : Selector) :
    (s.search d selector).Silent := by
  refine (Run.silent_ofExcept _).bind fun q _ => ?_
  exact (Log.silent_write _ _ _).bind fun _ _ => Run.silent_pure _

theorem result_search_of_ok (s : Session) (d : Document) {selector : Selector} {q : Query}
    (h : Query.ofSelector .standard selector = .ok q) :
    (s.search d selector).result = .ok (q.run d.topLevel) := by
  have hlog : (Log.matched s.notes selector q d.topLevel).result = .ok () :=
    Log.result_write _ _ _
  rw [search, h]
  show (Log.matched s.notes selector q d.topLevel >>= fun _ => pure (q.run d.topLevel)).result = _
  rw [Run.result_bind_of_ok hlog, Run.result_pure]

theorem result_search_of_error (s : Session) (d : Document) {selector : Selector} {e : QueryError}
    (h : Query.ofSelector .standard selector = .error e) :
    (s.search d selector).result = .error (.query e) := by
  rw [search, h]
  rfl

end Session

/-! ## Several documents -/

namespace Find

theorem silent_loadAll (s : Session) (paths : List String) : (loadAll s paths).Silent := by
  induction paths with
  | nil => exact Run.silent_pure []
  | cons path paths ih =>
    refine (s.silent_loadSource path).bind fun d _ => ?_
    exact ih.bind fun more _ => Run.silent_pure _

/-- If a selector can be resolved, the search of any documents ends well: with the matches of all
    of them. -/
theorem result_searchAll_of_ok (s : Session) (json : Bool) {selector : Selector} {q : Query}
    (h : Query.ofSelector .standard selector = .ok q) (documents : List (String × Document)) :
    (searchAll s selector json documents).result =
      .ok (documents.flatMap fun (path, d) => (q.run d.topLevel).map (Match.mk path)) := by
  induction documents with
  | nil => rfl
  | cons document rest ih =>
    obtain ⟨path, d⟩ := document
    rw [searchAll, Run.result_bind_of_ok (s.result_search_of_ok d h)]
    dsimp only
    -- printing the matches of this document does not keep the others from being searched
    split
    · rw [Run.result_bind_of_ok (Run.result_forM fun m => rfl), Run.result_bind_of_ok ih]
      rfl
    · rw [Run.result_bind_of_ok ih]
      rfl

/-- A search fails only at its first document, before anything is printed. -/
theorem silent_searchAll_of_error {s : Session} {selector : Selector} {json : Bool}
    {documents : List (String × Document)} {f : Failure}
    (hf : (searchAll s selector json documents).result = .error f) :
    (searchAll s selector json documents).Silent := by
  cases h : Query.ofSelector .standard selector with
  | ok q =>
    rw [result_searchAll_of_ok s json h] at hf
    cases hf
  | error e =>
    cases documents with
    | nil => exact Run.silent_pure []
    | cons document rest =>
      obtain ⟨path, d⟩ := document
      show Run.output (searchAll s selector json ((path, d) :: rest)) = []
      rw [searchAll, Run.output_bind_of_error (s.result_search_of_error d h)]
      exact s.silent_search d selector

/-! ## The command -/

/-- The command prints nothing on the output exactly if it fails: because the text is no selector,
    a path leads nowhere or into directories that cannot be gone through, a file cannot be read,
    or the selector cannot be resolved. So no matches are printed before a failure. -/
theorem output_run_eq_nil_iff_failed (s : Session) (text : String) (paths : List String)
    (json : Bool) :
    (run s text paths json).output = [] ↔ ∃ f, (run s text paths json).result = .error f := by
  show (run s text paths json).AllOrNothing
  refine .after_silent (Run.silent_ofExcept _) fun selector => ?_
  refine .after_silent (Run.silent_ofExcept _) fun files => ?_
  refine .after_silent (silent_loadAll s files) fun documents => ?_
  refine .before_end (fun f hf => silent_searchAll_of_error hf) fun found => ?_
  -- the last line is printed in both modes
  dsimp only
  split
  · exact ⟨List.cons_ne_nil _ _, _, rfl⟩
  · exact ⟨List.cons_ne_nil _ _, _, rfl⟩

end Find

end TreeQuery
