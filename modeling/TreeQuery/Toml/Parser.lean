import TreeQuery.Toml.Lexical
import TreeQuery.Toml.Scalar
import TreeQuery.Toml.Table

/-!
# Reading TOML documents

A document is a list of lines: a header, a key with its value, or neither. Values may be nested
up to `nestingLimit` levels.
-/

namespace TreeQuery.Toml

/-- The last part of a key and those before it. -/
def splitKey (parts : List String) : Except Error (List String × String) :=
  match parts.getLast? with
  | some last => .ok (parts.dropLast, last)
  | none => stray []

/-- A key, an equals sign, and a value that `value` reads. `blanks` drops what may stand on the
    two sides of the equals sign. -/
def assignment {α : Type} (blanks : List Char → Except Error (List Char))
    (value : List Char → Except Error (α × List Char)) (cs : List Char) :
    Except Error ((List String × String × α) × List Char) := do
  let (parts, rest) ← key cs
  let (path, last) ← splitKey parts
  match ← blanks rest with
  | '=' :: rest =>
    let (v, rest) ← value (← blanks rest)
    return ((path, last, v), rest)
  | rest => stray rest

/-- What may follow an item of an array or of an inline table: a comma, or the closing bracket.
    True says that it is the comma. -/
def afterItem (closing : Char) (cs : List Char) : Except Error (Bool × List Char) := do
  match ← dropBlanks cs with
  | ',' :: rest => return (true, rest)
  | c :: rest => if c = closing then return (false, rest) else stray (c :: rest)
  | [] => stray []

/-- One item of an array, behind its opening bracket or a comma. -/
def arrayRound (value : List Char → Except Error (Value × List Char)) (read : List Value)
    (cs : List Char) :
    Except Error (Round (List Value) Value × List Char) := do
  match ← dropBlanks cs with
  | ']' :: rest => return (.done (.array false read), rest)
  | cs =>
    let (v, rest) ← value cs
    let (more, rest) ← afterItem ']' rest
    if more then return (.again (read ++ [v]), rest)
    else return (.done (.array false (read ++ [v])), rest)

/-- One entry of an inline table, behind its opening brace or a comma. Its key and its value may
    stand on different lines. -/
def inlineRound (value : List Char → Except Error (Value × List Char)) (read : Table)
    (cs : List Char) :
    Except Error (Round Table Value × List Char) := do
  match ← dropBlanks cs with
  | '\x7d' :: rest => return (.done read.toValue, rest)
  | cs =>
    let ((path, last, v), rest) ← assignment dropBlanks value cs
    let read ← read.assign path last v
    let (more, rest) ← afterItem '\x7d' rest
    if more then return (.again read, rest) else return (.done read.toValue, rest)

/-- A value in which arrays and tables are nested at most `depth` levels. -/
def value (depth : Nat) (cs : List Char) : Except Error (Value × List Char) :=
  match cs with
  | '[' :: rest =>
    match depth with
    | 0 => .error .tooDeep
    | depth + 1 => repeatRounds (arrayRound (value depth)) [] rest
  | '\x7b' :: rest =>
    match depth with
    | 0 => .error .tooDeep
    | depth + 1 => repeatRounds (inlineRound (value depth)) (.empty .inline) rest
  | cs =>
    match string? cs with
    | some result => result.map fun (s, rest) => (.string s, rest)
    | none =>
      let text := run cs
      match scalar? text with
      | some v => .ok (v, cs.drop text.length)
      | none => .error (.badScalar (String.ofList text))

/-! ## Lines -/

/-- A document read in part: its table, and the table that the last header opened. -/
structure Progress where
  root : Table
  here : List String

/-- A header behind its opening brackets: its key, then the closing ones. -/
def header (double : Bool) (cs : List Char) : Except Error (List String × List Char) := do
  let (parts, rest) ← key cs
  match double, rest with
  | true, ']' :: ']' :: rest => return (parts, rest)
  | false, ']' :: rest => return (parts, rest)
  | _, rest => stray rest

/-- The header or the key with its value at the front of a line. -/
def expression (p : Progress) (cs : List Char) : Except Error (Progress × List Char) :=
  match cs with
  | '[' :: '[' :: rest => do
    let (parts, rest) ← header true rest
    let (path, last) ← splitKey parts
    return (⟨← p.root.openElement path last, parts⟩, rest)
  | '[' :: rest => do
    let (parts, rest) ← header false rest
    let (path, last) ← splitKey parts
    return (⟨← p.root.openTable path last, parts⟩, rest)
  | cs => do
    let ((path, last, v), rest) ← assignment (pure ∘ dropSpaces) (value nestingLimit) cs
    return (⟨← p.root.within false p.here (·.assign path last v), p.here⟩, rest)

/-- The next line that says something. -/
def lineRound (p : Progress) (cs : List Char) :
    Except Error (Round Progress Table × List Char) := do
  match ← dropBlanks cs with
  | [] => return (.done p.root, [])
  | cs =>
    let (p, rest) ← expression p cs
    let rest ← dropComment rest
    match rest with
    | [] => return (.done p.root, [])
    | cs =>
      match lineEnd? cs with
      | some rest => return (.again p, rest)
      | none => stray cs

/-- The table of a document. A byte order mark at its front does not belong to it. -/
def parse (text : String) : Except Error Table := do
  let cs := match text.toList with
    | '\ufeff' :: rest => rest
    | cs => cs
  let (root, _) ← repeatRounds lineRound ⟨.empty .header, []⟩ cs
  return root

end TreeQuery.Toml
