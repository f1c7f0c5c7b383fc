import TreeQuery.Path
import TreeQuery.Tree.Document

/-!
# Files

The files that a command can see: a tree of directories below the working directory. The
directories above are there too, but nothing in them can be seen. The entries of a directory are
in the order of their names.
-/

namespace TreeQuery

/-- What is in a file. -/
inductive Content where
  /-- A text, with its syntax tree. -/
  | text (document : Document)
  /-- Bytes that are no text. -/
  | binary

/-- A file, or a directory with its entries. -/
inductive Entry where
  | file (content : Content)
  | dir (entries : List (String × Entry))

/-- Why a file cannot be read. -/
inductive ReadError where
  | notFound
  | notDirectory
  | isDirectory
  | nameTooLong
  | nulInPath
  | notText
  deriving DecidableEq, Repr

/-- The wording of such an error. -/
def ReadError.message : ReadError → String
  | notFound => "No such file or directory (os error 2)"
  | notDirectory => "Not a directory (os error 20)"
  | isDirectory => "Is a directory (os error 21)"
  | nameTooLong => "File name too long (os error 36)"
  | nulInPath => "file name contained an unexpected NUL byte"
  | notText => "stream did not contain valid UTF-8"

/-- A place at which going through directories comes to an end, and why. -/
structure WalkError where
  path : String
  cause : ReadError
  deriving DecidableEq, Repr

/-- The wording of such an error. -/
def WalkError.message (e : WalkError) : String :=
  "IO error for operation on " ++ e.path ++ ": " ++ e.cause.message

/-- The length, in bytes, that a path has to stay below. -/
def pathLimit : Nat := 4096

/-- Is a path too long to be used? -/
def isTooLong (path : String) : Bool :=
  pathLimit ≤ path.utf8ByteSize

namespace Entry

/-- Is it a file? -/
def isFile : Entry → Bool
  | file _ => true
  | dir _ => false

mutual

/-- The paths of all files at and below an entry that has the given path. A directory has to be
    opened by its path; a file does not. -/
def filesBelow (path : String) : Entry → Except WalkError (List String)
  | file _ => .ok [path]
  | dir entries => if isTooLong path then .error ⟨path, .nameTooLong⟩ else filesIn path entries

/-- The paths of all files at and below the entries of a directory. -/
def filesIn (path : String) : List (String × Entry) → Except WalkError (List String)
  | [] => .ok []
  | (name, entry) :: entries => do
    let files ← filesBelow (Path.join path name) entry
    let more ← filesIn path entries
    return files ++ more

end

/-- The paths of the files directly in a directory. A file counts as the only one of itself. -/
def filesAt (path : String) : Entry → List String
  | file _ => [path]
  | dir entries =>
    (entries.filter fun e => e.2.isFile).map fun e => Path.join path e.1

end Entry

/-- The files below the working directory. -/
structure Volume where
  entries : List (String × Entry)

namespace Volume

/-! ## Building -/

/-- A volume without files. -/
def empty : Volume :=
  ⟨[]⟩

/-- Entries with an entry of a given name put in its place. -/
def putEntry (name : String) (entry : Entry) : List (String × Entry) → List (String × Entry)
  | [] => [(name, entry)]
  | (other, e) :: rest =>
    if name < other then (name, entry) :: (other, e) :: rest
    else if name = other then (name, entry) :: rest
    else (other, e) :: putEntry name entry rest

/-- Entries with an entry put in at a path; directories on the way are made. -/
def putAt (entry : Entry) : List String → List (String × Entry) → List (String × Entry)
  | [], entries => entries
  | [name], entries => putEntry name entry entries
  | name :: path, entries =>
    let below := match entries.lookup name with
      | some (.dir below) => below
      | _ => []
    putEntry name (.dir (putAt entry path below)) entries

/-- The components of a path that lead anywhere. -/
def components (path : String) : List String :=
  (Path.split path).filter fun c => c != "" && c != "."

/-- The volume with a file put in. -/
def addFile (v : Volume) (path : String) (content : Content) : Volume :=
  ⟨putAt (.file content) (components path) v.entries⟩

/-- The entry at the end of a list of names, if there is one. -/
def entryAt? (entries : List (String × Entry)) : List String → Option Entry
  | [] => some (.dir entries)
  | name :: path =>
    match entries.lookup name with
    | some (.dir below) => entryAt? below path
    | some (.file content) => if path.isEmpty then some (.file content) else none
    | none => none

/-- The volume with a directory put in, unless it is there already. -/
def addDir (v : Volume) (path : String) : Volume :=
  if (entryAt? v.entries (components path)).isSome then v
  else ⟨putAt (.dir []) (components path) v.entries⟩

/-! ## Looking up -/

/-- The greatest length of a component, in bytes. -/
def nameLimit : Nat := 255

/-- Where components lead from an entry. `above` are the directories it is in, the nearest one
    first. -/
def follow (entry : Entry) (above : List Entry) : List String → Except ReadError Entry
  | [] => .ok entry
  | component :: rest =>
    match entry with
    | .file _ => .error .notDirectory
    | .dir entries =>
      if component = "" ∨ component = "." then follow entry above rest
      else if component = ".." then
        match above with
        | parent :: above => follow parent above rest
        | [] => follow (.dir []) [] rest
      else if nameLimit < component.utf8ByteSize then .error .nameTooLong
      else
        match entries.lookup component with
        | some e => follow e (entry :: above) rest
        | none => .error .notFound

/-- The entry that a path leads to. -/
def look (v : Volume) (path : String) : Except ReadError Entry :=
  if path.toList.contains '\x00' then .error .nulInPath
  else if isTooLong path then .error .nameTooLong
  else if path.isEmpty then .error .notFound
  else if path.toList.head? = some '/' then follow (.dir []) [] (Path.split path)
  else follow (.dir v.entries) [] (Path.split path)

/-- Does a path lead to a file? -/
def isFile (v : Volume) (path : String) : Bool :=
  match v.look path with
  | .ok entry => entry.isFile
  | .error _ => false

/-- The text of a file. -/
def read (v : Volume) (path : String) : Except ReadError Document :=
  match v.look path with
  | .ok (.file (.text d)) => .ok d
  | .ok (.file .binary) => .error .notText
  | .ok (.dir _) => .error .isDirectory
  | .error e => .error e

end Volume

end TreeQuery
