import TreeQuery.Command.Check
import TreeQuery.Command.Explain
import TreeQuery.Command.Find
import TreeQuery.Command.Help
import TreeQuery.Command.Vocabulary

/-!
# The program

What becomes of a command line: the lines that are printed, and whether it went well.
-/

namespace TreeQuery

/-- What the program finds when it starts. -/
structure Environment where
  volume : Volume
  /-- The path of the working directory. -/
  place : String
  /-- Which mode is asked for, if any. Settings are read in local mode only. -/
  mode? : Option String
  /-- Whether colours are asked for, if anything is said about them. -/
  colours? : Option String
  /-- Whether colours are refused, if anything is said about it. -/
  noColours? : Option String

namespace Environment

/-- Is this local mode? -/
def isLocal (e : Environment) : Bool :=
  e.mode? == some "local"

/-- Are the answers of commands in colours? They are when colours are asked for in any way but
    by a zero, even if they are refused as well. -/
def colours (e : Environment) : Bool :=
  e.colours?.any fun value => value != "0"

/-- Are help and notes in colours? They are when anything is said for colours and nothing against
    them. -/
def asideColours (e : Environment) : Bool :=
  e.colours?.any (!·.isEmpty) && e.noColours?.all (·.isEmpty)

/-- How notes are written, if `verbose` asks for them. -/
def notes (e : Environment) (verbose : Bool) : Log.Notes :=
  if !verbose then .off else if e.asideColours then .coloured else .plain

/-- The name of the settings file in the working directory. -/
def settingsFile : String := "proof.toml"

/-- The settings in force (`Settings::load`). -/
def settings (e : Environment) (notes : Log.Notes) : Run Settings :=
  let path := Path.join e.place settingsFile
  if !e.isLocal then pure .standard
  else if !e.volume.isFile settingsFile then do
    Log.write notes .settings ("local mode without " ++ path ++ ", using defaults")
    return .standard
  else do
    Log.write notes .settings ("loading settings from " ++ path)
    let d ← Run.ofExcept ((e.volume.read settingsFile).mapError (.settings path))
    Run.ofExcept ((Settings.parse d.source).mapError (.badSettings path))

end Environment

namespace Program

/-- Run a command in a session. The result says whether it went well. -/
def command (s : Session) : Command → Run Bool
  | .find selector paths json => Find.run s selector paths json
  | .explain selector => do
    Explain.run selector
    return true
  | .check checklist? path? => CheckSources.run s checklist? path?
  | .list => do
    Vocabulary.run s
    return true

/-- Carry out a request. -/
def request (e : Environment) : Request → Run Bool
  | .help topic => do
    (Help.lines e.asideColours topic).forM Run.out
    return true
  | .version => do
    Run.out Help.version
    return true
  | .run verbose c => do
    let settings ← e.settings (e.notes verbose)
    let notes := e.notes (verbose || settings.verbose)
    Log.write notes .main ("settings: " ++ Log.ofSettings settings)
    command ⟨e.volume, settings, e.colours, notes⟩ c

/-- How the program ends. -/
inductive Ending where
  /-- The command line is wrong. -/
  | misuse
  | done (run : Run Bool)

/-- The program (`main`). -/
def run (e : Environment) (arguments : List String) : Ending :=
  match Arguments.parse? arguments with
  | none => .misuse
  | some r => .done (request e r)

/-- The exit code of a run: one if it failed or did not go well. -/
def exitCode : Run Bool → Nat
  | ⟨_, .ok true⟩ => 0
  | _ => 1

/-- The exit code of the program. -/
def Ending.code : Ending → Nat
  | misuse => 2
  | done run => exitCode run

end Program

end TreeQuery
