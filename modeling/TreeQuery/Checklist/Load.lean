import TreeQuery.Checklist.Issue
import TreeQuery.Toml.Decode
import TreeQuery.Toml.Parser

/-!
# Reading checklists

A checklist is read from a TOML document, and then examined: one with faults is refused with all
of them. Keys that mean nothing are passed over.
-/

namespace TreeQuery

/-- Why a document gives no checklist (`ConfigError`). -/
inductive LoadError where
  | malformed (cause : Toml.Error)
  | invalid (issues : List Issue)
  deriving DecidableEq, Repr

namespace LoadError

/-- The place of a document in a message, if it has one. -/
def place : Option String → String
  | some path => " (" ++ path ++ ")"
  | none => ""

/-- What a message on a malformed document starts with. -/
def lead (path? : Option String) : String :=
  "failed to parse proof file" ++ place path? ++ ": "

/-- The wording of an error, with the place of the document if it has one. -/
def message (path? : Option String) : LoadError → String
  | malformed cause => lead path? ++ cause.message
  | invalid issues =>
    "invalid proof file" ++ place path? ++ ":\n" ++ Checklist.issuesText issues

end LoadError

namespace Check

/-- The fields of a check, in order. -/
def fields : List String :=
  ["id", "selector", "method", "params", "traverse_children", "min", "max", "message"]

/-- The parameters that a value gives: a table of texts. -/
def params? (v : Toml.Value) : Option Params := do
  let entries ← v.entries?
  let texts ← entries.mapM fun (key, v) => v.text?.map fun text => (key, text)
  return Params.ofList texts

/-- The check that a value gives. -/
def ofValue (v : Toml.Value) : Except Toml.Error Check := do
  match v.record? fields with
  | none => .error (.wrongType "checks")
  | some entries =>
    let id ← Toml.required (·.text?) entries "id"
    let selector? ← Toml.optional (·.text?) entries "selector"
    let method? ← Toml.optional (·.text?) entries "method"
    let given? ← Toml.optional params? entries "params"
    let descend? ← Toml.optional (·.bool?) entries "traverse_children"
    let min? ← Toml.optional (·.count?) entries "min"
    let max? ← Toml.optional (·.count?) entries "max"
    let message? ← Toml.optional (·.text?) entries "message"
    return {
      id, selector?, method?, params := given?.getD .empty, descend?,
      bounds := ⟨min?, max?⟩, message?
    }

end Check

namespace Checklist

/-- The name and the description that a value gives. -/
def titleOfValue (v : Toml.Value) : Except Toml.Error (String × Option String) := do
  match v.record? ["name", "description"] with
  | none => .error (.wrongType "meta")
  | some entries =>
    let name? ← Toml.optional (·.text?) entries "name"
    let description? ← Toml.optional (·.text?) entries "description"
    return (name?.getD "", description?)

/-- The checklist that a table gives. -/
def ofTable (t : Toml.Table) : Except Toml.Error Checklist := do
  let (name, description?) ← match t.get? "meta" with
    | none => pure ("", none)
    | some v => titleOfValue v
  let items? ← Toml.optional (·.items?) t.entries "checks"
  let checks ← (items?.getD []).mapM Check.ofValue
  return ⟨name, description?, checks⟩

/-- A checklist without faults. -/
def validated (l : Checklist) : Except LoadError Checklist :=
  if l.issues.isEmpty then .ok l else .error (.invalid l.issues)

/-- The checklist of a document (`load_from_str`). -/
def load (text : String) : Except LoadError Checklist :=
  match Toml.parse text >>= ofTable with
  | .error e => .error (.malformed e)
  | .ok l => l.validated

end Checklist

end TreeQuery
