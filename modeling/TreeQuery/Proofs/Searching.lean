import TreeQuery.Proofs.Matching
import TreeQuery.Proofs.Output

/-!
# What a search of files ends with

A selector is resolved anew for each document that is searched, and for nothing else. So a selector
that cannot be resolved is refused as soon as there is a file to search; but where paths lead to no
file at all, it is not noticed, and the command reports that nothing was found.

Results:
* `Find.exists_result_loadAll`: files that can be read can be loaded, one document for each.
* `Find.run_without_files`: where there are no files, the command counts no matches, whatever the
  selector is.
* `Find.run_with_files_of_refused`: where there are files, it fails with the error of the selector.
* `Find.run_of_refused`: both together.
-/

namespace TreeQuery.Find

/-- The paths that are searched: those that are given, or the one of the settings. -/
def searched (s : Session) (paths : List String) : List String :=
  if paths.isEmpty then [s.settings.codePath] else paths

/-- What is printed last. -/
def total (s : Session) (json : Bool) (files : List String) (found : List Match) : String :=
  if json then (Json.array (found.map Match.toJson)).write
  else s.paint .bold
    (toString found.length ++ " match(es) in " ++ toString files.length ++ " file(s)")

theorem run_eq_total (s : Session) (text : String) (paths : List String) (json : Bool) :
    run s text paths json = (do
      let selector ← Run.ofExcept ((Selector.parse text).mapError .selector)
      let files ← Run.ofExcept (filesOfAll s.volume (searched s paths))
      let documents ← loadAll s files
      let found ← searchAll s selector json documents
      Run.out (total s json files found)
      return !found.isEmpty) := by
  cases json with
  | true => rfl
  | false => rfl

variable {s : Session} {text : String} {selector : Selector} {paths files : List String}

/-! ## Without files -/

theorem total_nil (s : Session) (json : Bool) :
    total s json [] [] = if json then "[]" else s.paint .bold "0 match(es) in 0 file(s)" := by
  cases json with
  | true =>
    show (Json.array []).write = "[]"
    decide
  | false => rfl

/-- Where there are no files, no matches are counted. The selector is read, but not resolved. -/
theorem run_without_files (json : Bool) (hparse : Selector.parse text = .ok selector)
    (hfiles : filesOfAll s.volume (searched s paths) = .ok []) :
    (run s text paths json).result = .ok false ∧
      (run s text paths json).output =
        [if json then "[]" else s.paint .bold "0 match(es) in 0 file(s)"] := by
  rw [run_eq_total, hparse, hfiles, ← total_nil]
  exact ⟨rfl, rfl⟩

/-! ## With files -/

theorem exists_result_loadAll (h : ∀ file ∈ files, ∃ d, s.volume.read file = .ok d) :
    ∃ documents, (loadAll s files).result = .ok documents ∧ documents.map (·.1) = files := by
  induction files with
  | nil => exact ⟨[], rfl, rfl⟩
  | cons file files ih =>
    rw [List.forall_mem_cons] at h
    obtain ⟨⟨d, hd⟩, hfiles⟩ := h
    obtain ⟨documents, hdocuments, hpaths⟩ := ih hfiles
    have hload : (s.loadSource file).result = .ok d := by
      rw [s.result_loadSource, hd]
      rfl
    refine ⟨(file, d) :: documents, ?_, by rw [List.map_cons, hpaths]⟩
    rw [loadAll, Run.result_bind_of_ok hload, Run.result_bind_of_ok hdocuments]
    rfl

theorem result_searchAll_of_error (s : Session) (json : Bool) {e : QueryError}
    (h : Query.ofSelector .standard selector = .error e) {documents : List (String × Document)}
    (hne : documents ≠ []) :
    (searchAll s selector json documents).result = .error (.query e) := by
  cases documents with
  | nil => exact absurd rfl hne
  | cons document rest =>
    obtain ⟨path, d⟩ := document
    rw [searchAll, Run.result_bind_of_error (s.result_search_of_error d h)]

/-- Where there are files, a selector that cannot be resolved is refused. -/
theorem run_with_files_of_refused (json : Bool) {e : QueryError}
    (hparse : Selector.parse text = .ok selector)
    (hrefused : Query.ofSelector .standard selector = .error e)
    (hfiles : filesOfAll s.volume (searched s paths) = .ok files)
    (hreadable : ∀ file ∈ files, ∃ d, s.volume.read file = .ok d) (hne : files ≠ []) :
    (run s text paths json).result = .error (.query e) ∧ (run s text paths json).output = [] := by
  obtain ⟨documents, hload, hpaths⟩ := exists_result_loadAll hreadable
  have hdocuments : documents ≠ [] := by
    rintro rfl
    exact hne hpaths.symm
  have hsearch := result_searchAll_of_error s json hrefused hdocuments
  have hsilent : (searchAll s selector json documents).output = [] :=
    silent_searchAll_of_error hsearch
  have hloaded : (loadAll s files).output = [] := silent_loadAll s files
  rw [run_eq_total, hparse, hfiles]
  constructor
  · rw [Run.result_bind_of_ok rfl, Run.result_bind_of_ok rfl, Run.result_bind_of_ok hload,
      Run.result_bind_of_error hsearch]
  · rw [Run.output_bind_of_ok rfl, Run.output_bind_of_ok rfl, Run.output_bind_of_ok hload,
      Run.output_bind_of_error hsearch, hsilent, hloaded]
    rfl

/-! ## Selectors that are refused -/

/-- A selector that is refused, whatever nodes it is asked about, ends the command with its error
    if the paths lead to files, all of which can be read. If they lead to none, the command does
    not fail: it reports a count of no matches. -/
theorem run_of_refused (s : Session) (text : String) (paths files : List String) (json : Bool)
    (selector : Selector) (nodes : List Node) (e : QueryError)
    (hparse : Selector.parse text = .ok selector)
    (hrefused : find .standard nodes selector = .error e)
    (hfiles : filesOfAll s.volume (searched s paths) = .ok files)
    (hreadable : ∀ file ∈ files, ∃ d, s.volume.read file = .ok d) :
    (files ≠ [] → (run s text paths json).result = .error (.query e) ∧
      (run s text paths json).output = []) ∧
    (files = [] → (run s text paths json).result = .ok false ∧
      (run s text paths json).output =
        [if json then "[]" else s.paint .bold "0 match(es) in 0 file(s)"]) := by
  have hresolve : Query.ofSelector .standard selector = .error e :=
    Result.map_eq_error_iff.1 hrefused
  constructor
  · intro hne
    exact run_with_files_of_refused json hparse hresolve hfiles hreadable hne
  · rintro rfl
    exact run_without_files json hparse hfiles

/-- An empty directory `e`, and a source `f`. -/
def emptyAndSource : Session where
  volume := ⟨[("e", .dir []), ("f", .file (.text sumDocument))]⟩
  settings := .standard
  colours := false
  notes := .off

/-- A selector of a kind that there is not. -/
def unknownKind : Selector :=
  ⟨"zzz", .empty, true, []⟩

theorem parse_unknownKind : Selector.parse "zzz" = .ok unknownKind := by
  decide +kernel

theorem find_unknownKind (nodes : List Node) :
    find .standard nodes unknownKind =
      .error (.unknownName .nodeKind "zzz" Registry.kindNames) := by
  rfl

/-- In the directory and the source together, a kind that there is not is refused. -/
theorem run_of_refused_unknownKind :
    filesOfAll emptyAndSource.volume ["e", "f"] = .ok ["f"] ∧
      (run emptyAndSource "zzz" ["e", "f"] false).result =
        .error (.query (.unknownName .nodeKind "zzz" Registry.kindNames)) := by
  have hfiles : filesOfAll emptyAndSource.volume ["e", "f"] = .ok ["f"] := rfl
  have hread : emptyAndSource.volume.read "f" = .ok sumDocument := rfl
  have hreadable : ∀ file ∈ ["f"], ∃ d, emptyAndSource.volume.read file = .ok d := by
    intro file hfile
    rw [List.mem_singleton.1 hfile]
    exact ⟨sumDocument, hread⟩
  have hrefused := run_of_refused emptyAndSource "zzz" ["e", "f"] ["f"] false unknownKind [] _
    parse_unknownKind (find_unknownKind []) hfiles hreadable
  exact ⟨hfiles, (hrefused.1 (List.cons_ne_nil _ _)).1⟩

/-- In the directory alone, it is not: the command counts no matches, although the selector is
    refused on any nodes. -/
theorem run_unknownKind_without_files :
    Selector.parse "zzz" = .ok unknownKind ∧
      (∀ nodes, find .standard nodes unknownKind =
        .error (.unknownName .nodeKind "zzz" Registry.kindNames)) ∧
      filesOfAll emptyAndSource.volume ["e"] = .ok [] ∧
      (run emptyAndSource "zzz" ["e"] false).result = .ok false ∧
      (run emptyAndSource "zzz" ["e"] false).output = ["0 match(es) in 0 file(s)"] := by
  have hfiles : filesOfAll emptyAndSource.volume ["e"] = .ok [] := rfl
  exact ⟨parse_unknownKind, find_unknownKind, hfiles,
    run_without_files false parse_unknownKind hfiles⟩

end TreeQuery.Find
