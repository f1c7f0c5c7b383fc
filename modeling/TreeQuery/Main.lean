import TreeQuery.Command.Program
import TreeQuery.Tree.Listing

/-!
# The command line

Reads the files below the working directory, runs the program on them and prints what it prints.
The syntax tree of a source stands beside it, in a file with `.tree` behind its name; a source
without such a file counts as one without statements.
-/

namespace TreeQuery

/-- The document of a source text, with the listing of its tree if there is one. -/
def sourceDocument (source : String) (listing? : Option String) : Document :=
  match listing?.bind Tree.ofListing? with
  | some tree => ⟨source, tree⟩
  | none => .plain source

/-- The content of a file. -/
def readContent (path : String) : IO Content := do
  let bytes ← IO.FS.readBinFile path
  match String.fromUTF8? bytes with
  | none => return .binary
  | some source =>
    let listing? ← (some <$> IO.FS.readFile (path ++ ".tree")) <|> pure none
    return .text (sourceDocument source listing?)

/-- The volume with the entries of a directory put in, and all that is below them. -/
partial def addEntries (v : Volume) (dir : String) (entries : Array IO.FS.DirEntry) :
    IO Volume := do
  let mut v := v
  for entry in entries do
    let name := Path.join dir entry.fileName
    match (← entry.path.symlinkMetadata).type with
    | .dir => v ← addEntries (v.addDir name) name (← entry.path.readDir)
    | .file => v := v.addFile name (← readContent entry.path.toString)
    | _ => pure ()
  return v

/-- Run the program in the working directory. -/
def commandLine (arguments : List String) : IO UInt32 := do
  let here ← IO.currentDir
  let e : Environment := {
    volume := ← addEntries .empty "" (← here.readDir)
    place := here.toString
    mode? := ← IO.getEnv "PROOF_LIBRARY_MODE"
    colours? := ← IO.getEnv "CLICOLOR_FORCE"
    noColours? := ← IO.getEnv "NO_COLOR"
  }
  let ending := Program.run e arguments
  match ending with
  | .misuse => (Help.lines e.asideColours .program).forM IO.eprintln
  | .done run =>
    for line in run.lines do
      match line with
      | .out text => IO.println text
      | .note text => IO.eprint text
    if let .error f := run.result then IO.eprintln f.report
  return ending.code.toUInt32

end TreeQuery

/-- The command line. -/
def main (arguments : List String) : IO UInt32 :=
  TreeQuery.commandLine arguments
