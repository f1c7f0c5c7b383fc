import TreeQuery.Console.Log
import TreeQuery.Console.Style
import TreeQuery.Settings.Load

/-!
# Sessions

What every command works with: the files it can see, the settings in force, and how it prints.
-/

namespace TreeQuery

/-- What a command works with. -/
structure Session where
  volume : Volume
  settings : Settings
  /-- Print in colours. -/
  colours : Bool
  /-- How to write notes on what is going on. -/
  notes : Log.Notes

namespace Session

/-- A text in a style. -/
def paint (s : Session) (style : Style) (text : String) : String :=
  style.paint s.colours text

/-- The document of a source file (`load_code`). Its faults are printed as warnings. -/
def loadSource (s : Session) (path : String) : Run Document := do
  let d ← Run.ofExcept ((s.volume.read path).mapError (.source path))
  if d.hasFaults then
    d.faults.forM fun f =>
      Run.note (s.paint .yellow
        ("Warning: " ++ path ++ ":" ++ toString f.point.line ++ ":" ++ toString f.point.column ++
          ": syntax error") ++ "\n")
  return d

/-- The nodes that a selector finds in a document (`Code::find_filter`). -/
def search (s : Session) (d : Document) (selector : Selector) : Run (List Node) := do
  let q ← Run.ofExcept ((Query.ofSelector .standard selector).mapError .query)
  Log.matched s.notes selector q d.topLevel
  return q.run d.topLevel

end Session

end TreeQuery
