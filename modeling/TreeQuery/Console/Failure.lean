import TreeQuery.Checklist.Load
import TreeQuery.Query.Error
import TreeQuery.Volume

/-!
# Failures

What ends a command before it is done. A failure is reported with a message and with the causes
behind it, the nearest one first.
-/

namespace TreeQuery

/-- What ends a command. -/
inductive Failure where
  /-- A text is no selector. -/
  | selector (error : SelectorError)
  /-- A selector cannot be resolved. -/
  | query (error : QueryError)
  /-- There is nothing at a path. -/
  | noPath (path : String)
  /-- The directories at a path cannot be gone through. -/
  | walk (error : WalkError)
  /-- A source cannot be read. -/
  | source (path : String) (cause : ReadError)
  /-- A checklist cannot be read. -/
  | checklist (path : String) (cause : ReadError)
  /-- A checklist is malformed, or has faults. -/
  | badChecklist (path : String) (cause : LoadError)
  /-- The settings cannot be read. -/
  | settings (path : String) (cause : ReadError)
  /-- The settings are malformed. -/
  | badSettings (path : String) (cause : Toml.Error)
  /-- A directory of checklists cannot be read. -/
  | directory (path : String) (cause : ReadError)
  /-- There are no checklists in a directory. -/
  | noChecklists (path : String)
  /-- A checklist has no source to check. -/
  | noAnswer (checklist : String)
  deriving DecidableEq, Repr

namespace Failure

/-- What a message on malformed settings starts with. -/
def settingsLead (path : String) : String :=
  "failed to parse settings (" ++ path ++ "): "

/-- The message of a failure. -/
def message : Failure → String
  | selector e => e.message
  | query e => e.message
  | noPath path => "path does not exist: " ++ path
  | walk e => e.message
  | source path _ => "failed to load " ++ path
  | checklist path e => "failed to read proof file " ++ path ++ ": " ++ e.message
  | badChecklist path e => e.message (some path)
  | settings path e => "failed to read settings " ++ path ++ ": " ++ e.message
  | badSettings path e => settingsLead path ++ e.message
  | directory path _ => "failed to read " ++ path
  | noChecklists path => "No .toml proof files found in " ++ path
  | noAnswer path => "no answer file for " ++ path

/-- The causes of a failure, the nearest one first. -/
def causes : Failure → List String
  | selector _ | query _ | noPath _ | noChecklists _ | noAnswer _ => []
  | walk e => [e.cause.message]
  | source path e => ["I/O error reading " ++ path ++ ": " ++ e.message, e.message]
  | checklist _ e | settings _ e => [e.message]
  | badChecklist _ (.malformed e) | badSettings _ e => [e.message]
  | badChecklist _ (.invalid issues) => [Checklist.issuesText issues]
  | directory path e => [(WalkError.mk path e).message, e.message]

/-- A text in which every line but the first has blanks in front. -/
def indentRest (width : Nat) (text : String) : String :=
  ("\n" ++ String.ofList (List.replicate width ' ')).intercalate (text.splitOn "\n")

/-- The list of causes. They are numbered if there are several. -/
def causeLines : List String → List String
  | [] => []
  | [cause] => ["", "Caused by:", "    " ++ indentRest 4 cause]
  | causes =>
    ["", "Caused by:"] ++ causes.zipIdx.map fun (cause, i) =>
      let number := toString i
      String.ofList (List.replicate (5 - number.length) ' ') ++ number ++ ": " ++
        indentRest 7 cause

/-- A failure as it is reported. -/
def report (f : Failure) : String :=
  "\n".intercalate (("Error: " ++ f.message) :: causeLines f.causes)

end Failure

end TreeQuery
