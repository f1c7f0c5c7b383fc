import TreeQuery.Checklist.Outcome
import TreeQuery.Console.Run
import TreeQuery.Console.Sequence
import TreeQuery.Console.Style
import TreeQuery.Selector.Printer
import TreeQuery.Settings.Basic
import TreeQuery.Text.Quoted

/-!
# Notes on what is going on

Commands that are asked to be verbose write down the settings in force, how many nodes a selector
matched, and what became of each check. Values are shown field by field. A note without colours is
free of terminal sequences; one that it leaves open takes the end of the line with it.
-/

namespace TreeQuery.Log

/-! ## Values -/

/-- A named value with its fields. -/
def record (name : String) (fields : List (String × String)) : String :=
  name ++ " \x7b " ++ ", ".intercalate (fields.map fun (key, value) => key ++ ": " ++ value) ++
    " \x7d"

/-- Settings, field by field. -/
def ofSettings (s : Settings) : String :=
  record "Settings" [
    ("code_file_path", Text.quoted s.codePath),
    ("verbose", if s.verbose then "true" else "false"),
    ("answer_dir", Text.quoted s.answerDir),
    ("proof_dir", Text.quoted s.proofDir),
    ("default_configuration", if s.isDefault then "true" else "false")]

/-- The name of a category. -/
def ofCategory : Category → String
  | .nodeKind => "NodeKind"
  | .operator => "Operator"
  | .construct => "Construct"
  | .builtin => "BuiltInFunction"
  | .refinement => "Pseudo"

/-- An error in a selector, field by field. -/
def ofSelectorError (e : SelectorError) : String :=
  match e with
  | .lexical stray =>
    record "Lexical" [("character", Text.quotedChar stray.character),
      ("position", toString stray.position)]
  | .malformed position fault =>
    record "Malformed" [("position", toString position), ("message", Text.quoted fault.message)]

/-- An error in a query, field by field. -/
def ofQueryError (e : QueryError) : String :=
  match e with
  | .selector e => "Selector(" ++ ofSelectorError e ++ ")"
  | .unknownName category name valid =>
    record "UnknownQueryName" [
      ("category", ofCategory category), ("name", Text.quoted name),
      ("valid", Text.quotedList valid), ("suggestion", Text.quotedOption e.suggestion?)]
  | .unknownMethod method supported =>
    record "UnknownAction" [
      ("method", Text.quoted method), ("supported", Text.quotedList supported),
      ("suggestion", Text.quotedOption e.suggestion?)]
  | .unsupportedParam target name accepted =>
    record "UnsupportedParameter" [
      ("action", Text.quoted target.kindName), ("name", Text.quoted name),
      ("accepted", Text.quotedList accepted)]
  | .missingParam target name valid =>
    record "MissingParameter" [
      ("action", Text.quoted target.kindName), ("param", Text.quoted name),
      ("valid", Text.quotedList valid)]
  | .badArgument refinement argument fault =>
    record "InvalidPseudoArgument" [
      ("pseudo", Text.quoted refinement), ("argument", Text.quotedOption argument),
      ("message", Text.quoted fault.message)]

/-- What became of a check, field by field. -/
def ofStatus : Status → String
  | .passed => "Passed"
  | .failed expected => record "Failed" [("expected", Text.quoted expected.text)]
  | .error e => "Error(" ++ ofQueryError e ++ ")"
  | .invalid reason => record "Invalid" [("reason", Text.quoted reason.message)]

/-! ## Lines -/

/-- The parts of the program that write notes. -/
inductive Part where
  | main
  | settings
  | finder
  | runner
  deriving DecidableEq, Repr

/-- How a note names the part it comes from. -/
def Part.label : Part → String
  | main => "code_proof"
  | settings => "code_proof::config::settings"
  | finder => "code_proof::code::finder"
  | runner => "code_proof::config::runner"

/-- Whether notes are written, and how. -/
inductive Notes where
  | off
  | plain
  | coloured
  deriving DecidableEq, Repr

/-- A note with the end of its line. Its lines after the first are indented. -/
def line (colours : Bool) (part : Part) (text : String) : String :=
  Style.grey.paint colours "[" ++ Style.blue.paint colours "DEBUG" ++ " " ++ part.label ++
    Style.grey.paint colours "]" ++ " " ++ Failure.indentRest 4 text ++ "\n"

/-- Write a note, if notes are wanted. -/
def write (notes : Notes) (part : Part) (text : String) : Run Unit :=
  match notes with
  | .off => pure ()
  | .plain => Run.note (Sequence.visible (line false part text))
  | .coloured => Run.note (line true part text)

/-- Note how many nodes a selector matched, whatever their position. -/
def matched (notes : Notes) (s : Selector) (q : Query) (nodes : List Node) : Run Unit :=
  write notes .finder
    (s.render ++ " matched " ++ toString (q.matched nodes).length ++
      " node(s) before pseudo-filters")

/-- Note what became of a check. -/
def outcome (notes : Notes) (o : Outcome) : Run Unit :=
  write notes .runner
    ("check '" ++ o.id ++ "' matched " ++ toString o.matched ++ ": " ++ ofStatus o.status)

end TreeQuery.Log
