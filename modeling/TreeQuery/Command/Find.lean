import TreeQuery.Command.Session
import TreeQuery.Json

/-!
# Finding nodes

The command that prints the nodes which a selector finds in source files, one to a line or as a
JSON array. All files are loaded before any of them is searched.
-/

namespace TreeQuery.Find

/-! ## Files -/

/-- The source files that a path stands for: itself if it is a file, and all files of the right
    extension below it if it is a directory. -/
def filesOf (v : Volume) (path : String) : Except Failure (List String) :=
  match v.look path with
  | .error _ => .error (.noPath path)
  | .ok (.file _) => .ok [path]
  | .ok (.dir entries) => do
    let files ← (Entry.filesIn path entries).mapError .walk
    return files.filter fun p => Path.extension? p == some "php"

/-- The source files that several paths stand for (`collect_php_files`). -/
def filesOfAll (v : Volume) : List String → Except Failure (List String)
  | [] => .ok []
  | path :: paths => do
    let files ← filesOf v path
    let more ← filesOfAll v paths
    return files ++ more

/-- The documents of several source files, each with its path. -/
def loadAll (s : Session) : List String → Run (List (String × Document))
  | [] => pure []
  | path :: paths => do
    let d ← s.loadSource path
    let more ← loadAll s paths
    return (path, d) :: more

/-! ## Matches -/

/-- A node that was found, and the file it is in (`MatchReport`). -/
structure Match where
  path : String
  node : Node

/-- The first line of a text. -/
def firstLine (text : String) : String :=
  let cs := text.toList
  let line := cs.takeWhile fun c => c != '\n'
  if line.length = cs.length then text
  else
    match line.reverse with
    | '\r' :: back => String.ofList back.reverse
    | _ => String.ofList line

/-- A match on one line. -/
def Match.line (s : Session) (m : Match) : String :=
  let p := m.node.point
  m.path ++ ":" ++ toString p.line ++ ":" ++ toString p.column ++ " " ++
    s.paint .dimmed m.node.kind ++ " " ++ firstLine m.node.text

/-- A match as JSON. -/
def Match.toJson (m : Match) : Json :=
  let p := m.node.point
  .object [("path", .string m.path), ("line", .number p.line), ("column", .number p.column),
    ("kind", .string m.node.kind), ("text", .string m.node.text)]

/-- Search documents one after the other. Unless `json` is asked for, the matches of a document
    are printed as soon as it has been searched. -/
def searchAll (s : Session) (selector : Selector) (json : Bool) :
    List (String × Document) → Run (List Match)
  | [] => pure []
  | (path, d) :: rest => do
    let nodes ← s.search d selector
    let found := nodes.map (Match.mk path)
    if !json then found.forM fun m => Run.out (m.line s)
    let more ← searchAll s selector json rest
    return found ++ more

/-- Find nodes in files (`cmd_find`). The result says whether there are any. -/
def run (s : Session) (text : String) (paths : List String) (json : Bool) : Run Bool := do
  let selector ← Run.ofExcept ((Selector.parse text).mapError .selector)
  let paths := if paths.isEmpty then [s.settings.codePath] else paths
  let files ← Run.ofExcept (filesOfAll s.volume paths)
  let documents ← loadAll s files
  let found ← searchAll s selector json documents
  if json then Run.out (Json.array (found.map Match.toJson)).write
  else
    Run.out (s.paint .bold
      (toString found.length ++ " match(es) in " ++ toString files.length ++ " file(s)"))
  return !found.isEmpty

end TreeQuery.Find
