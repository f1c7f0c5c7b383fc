import TreeQuery.Console.Run
import TreeQuery.Json
import TreeQuery.Selector.Printer

/-!
# Explaining selectors

The command that shows how a selector is read: its tokens, its parts, and its plainest text.
-/

namespace TreeQuery.Explain

/-- A token as JSON. -/
def ofToken (t : Token) : Json :=
  .object [("position", .number t.position), ("text", .string t.text),
    ("type", .string t.kind.label)]

/-- A refinement as JSON. -/
def ofRefinement (r : Refinement) : Json :=
  .object [("arg", (r.argument.map Json.string).getD .null), ("name", .string r.name)]

/-- The parts of a selector as JSON. -/
def ofSelector (s : Selector) : Json :=
  .object [("node_kind", .string s.kind),
    ("params", .object (s.params.entries.map fun (name, value) => (name, .string value))),
    ("pseudo", .array (s.refinements.map ofRefinement)),
    ("traverse_children", .bool s.descend)]

/-- Show how a selector is read (`cmd_parse`). -/
def run (text : String) : Run Unit := do
  let tokens ← Run.ofExcept ((Selector.tokenize Recognizer.standard text).mapError .selector)
  let selector ← Run.ofExcept ((Selector.parse text).mapError .selector)
  Run.out (Json.object [("filter", ofSelector selector), ("selector", .string selector.render),
    ("tokens", .array (tokens.map ofToken))]).write

end TreeQuery.Explain
