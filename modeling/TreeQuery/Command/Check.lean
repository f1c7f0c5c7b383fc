import TreeQuery.Command.Session

/-!
# Checking sources

The command that runs checklists on source files and reports what became of every check. Without
a checklist to run it runs all those in the directory of checklists, each on its own answer.
-/

namespace TreeQuery

/-- The lines that report an outcome. -/
def Outcome.report (s : Session) (o : Outcome) : List String :=
  let good := s.paint .green "✓"
  let bad := s.paint .red "✗"
  match o.status with
  | .passed => ["  " ++ good ++ " " ++ o.id ++ " (" ++ toString o.matched ++ " match(es))"]
  | .failed expected =>
    ("  " ++ bad ++ " " ++ o.id ++ ": expected " ++ expected.text ++ ", found " ++
      toString o.matched) ::
    (o.message?.map fun message => "    " ++ s.paint .dimmed message).toList
  | .error e => ["  " ++ bad ++ " " ++ o.id ++ ": " ++ e.message]
  | .invalid reason => ["  " ++ bad ++ " " ++ o.id ++ ": " ++ reason.message]

namespace CheckSources

/-- Note how a check went. -/
def logCheck (s : Session) (d : Document) (c : Check) : Run Unit := do
  if let .selector text := c.source then
    if let .ok selector := Selector.parse text then
      if let .ok q := Query.ofSelector .standard selector then
        Log.matched s.notes selector q d.topLevel
  Log.outcome s.notes (c.run .standard d)

/-- The checklist of a file (`load_from_path`). -/
def loadChecklist (s : Session) (path : String) : Run Checklist := do
  let d ← Run.ofExcept ((s.volume.read path).mapError (.checklist path))
  Run.ofExcept ((Checklist.load d.source).mapError (.badChecklist path))

/-- The last line of a report: how many checks passed, and how many did not. -/
def summary (s : Session) (outcomes : List Outcome) : String :=
  let passed := outcomes.countP Outcome.passed
  "  " ++ s.paint .green (toString passed) ++ " passed, " ++
    s.paint .red (toString (outcomes.length - passed)) ++ " failed"

/-- Run a checklist on a source and print the report (`run_proof`). The result says whether all
    checks passed. -/
def runOne (s : Session) (checklist source : String) : Run Bool := do
  let l ← loadChecklist s checklist
  let d ← s.loadSource source
  let title := if l.name.isEmpty then checklist else l.name
  Run.out (s.paint .bold title ++ " " ++ s.paint .dimmed ("(" ++ source ++ ")"))
  l.checks.forM (logCheck s d)
  let outcomes := l.run .standard d
  outcomes.forM fun o => (o.report s).forM Run.out
  Run.out (summary s outcomes)
  return allPassed outcomes

/-- The checklists in a directory, in the order of their names (`discover_proof_files`). -/
def checklistsIn (v : Volume) (dir : String) : Except Failure (List String) := do
  let entry ← (v.look dir).mapError (.directory dir)
  let files := (entry.filesAt dir).filter fun p => Path.extension? p == some "toml"
  if files.isEmpty then .error (.noChecklists dir) else return files

/-- The source that a checklist is run on. -/
def sourceFor (s : Session) (path? : Option String) (checklist : String) :
    Except Failure String :=
  match path? with
  | some path => .ok path
  | none =>
    match s.settings.answerFor? checklist with
    | some answer => .ok answer
    | none => .error (.noAnswer checklist)

/-- Run checklists one after the other (the loop of `cmd_check`). The result says whether all checks
    of all of them passed. -/
def runAll (s : Session) (path? : Option String) : List String → Run Bool
  | [] => pure true
  | checklist :: rest => do
    let source ← Run.ofExcept (sourceFor s path? checklist)
    let passed ← runOne s checklist source
    Run.out ""
    let others ← runAll s path? rest
    return passed && others

/-- Run one checklist, or all those in the directory of checklists (`cmd_check`). -/
def run (s : Session) (checklist? path? : Option String) : Run Bool :=
  match checklist? with
  | some checklist => runOne s checklist (path?.getD s.settings.codePath)
  | none => do
    let checklists ← Run.ofExcept (checklistsIn s.volume s.settings.proofDir)
    runAll s path? checklists

end CheckSources

end TreeQuery
