import TreeQuery.Text.Quoted

/-!
# JSON reports

The values that reports are made of, and how they are written: two spaces to a level, one item to
a line, and the fields of an object in the order given.
-/

namespace TreeQuery

/-- A JSON value. Reports have no numbers but counts and offsets. -/
inductive Json where
  | null
  | bool (value : Bool)
  | number (value : Nat)
  | string (text : String)
  | array (items : List Json)
  | object (fields : List (String × Json))

namespace Json

/-- How a character is written between quotes. Only quotes, backslashes and control characters
    are escaped. -/
def escape (c : Char) : List Char :=
  match c with
  | '\x22' => ['\\', '\x22']
  | '\\' => ['\\', '\\']
  | '\x08' => ['\\', 'b']
  | '\x0c' => ['\\', 'f']
  | '\n' => ['\\', 'n']
  | '\r' => ['\\', 'r']
  | '\t' => ['\\', 't']
  | c =>
    if c.toNat < 0x20 then
      let digits := Text.hexDigits c.toNat
      ['\\', 'u'] ++ List.replicate (4 - digits.length) '0' ++ digits
    else [c]

/-- A text between quotes. -/
def quote (text : String) : String :=
  String.ofList (['\x22'] ++ text.toList.flatMap escape ++ ['\x22'])

/-- The blanks in front of a line. -/
def margin (depth : Nat) : String :=
  String.ofList (List.replicate (2 * depth) ' ')

/-- Lines between brackets. -/
def block (opening closing : String) (depth : Nat) (lines : List String) : String :=
  if lines.isEmpty then opening ++ closing
  else
    opening ++ "\n" ++ ",\n".intercalate (lines.map (margin (depth + 1) ++ ·)) ++ "\n" ++
      margin depth ++ closing

mutual

/-- A value inside `depth` others. -/
def writeAt (depth : Nat) : Json → String
  | null => "null"
  | bool true => "true"
  | bool false => "false"
  | number n => toString n
  | string text => quote text
  | array items => block "[" "]" depth (writeItems (depth + 1) items)
  | object fields => block "\x7b" "\x7d" depth (writeFields (depth + 1) fields)

/-- The items of an array. -/
def writeItems (depth : Nat) : List Json → List String
  | [] => []
  | item :: items => writeAt depth item :: writeItems depth items

/-- The fields of an object. -/
def writeFields (depth : Nat) : List (String × Json) → List String
  | [] => []
  | (name, value) :: fields =>
    (quote name ++ ": " ++ writeAt depth value) :: writeFields depth fields

end

/-- A value as text. -/
def write (j : Json) : String :=
  j.writeAt 0

end Json

end TreeQuery
