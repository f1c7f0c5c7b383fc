import TreeQuery.Text.Hidden

/-!
# Quoted text

Text as it is shown inside a diagnostic: between double quotes, on one line, with everything
that would not show written as an escape. A single character stands between apostrophes.
-/

namespace TreeQuery.Text

/-- The digits of `n` in base 16, lower case, without leading zeros. -/
def hexDigits (n : Nat) : List Char :=
  Nat.toDigits 16 n

/-- The escape `\u{…}` of a code point. -/
def unicodeEscape (c : Char) : List Char :=
  ['\\', 'u', '\x7b'] ++ hexDigits c.toNat ++ ['\x7d']

/-- How one character is shown between two marks of the kind `quote`. Of the double quote and the
    apostrophe only the one that ends the text is escaped. -/
def escapeChar (quote : Char) (c : Char) : List Char :=
  match c with
  | '\x00' => ['\\', '0']
  | '\t' => ['\\', 't']
  | '\n' => ['\\', 'n']
  | '\r' => ['\\', 'r']
  | '\\' => ['\\', '\\']
  | c => if c = quote then ['\\', c] else if isHidden c then unicodeEscape c else [c]

/-- `s` between double quotes, its hidden characters escaped. -/
def quoted (s : String) : String :=
  String.ofList (['\x22'] ++ s.toList.flatMap (escapeChar '\x22') ++ ['\x22'])

/-- A single character between apostrophes. -/
def quotedChar (c : Char) : String :=
  String.ofList (['\x27'] ++ escapeChar '\x27' c ++ ['\x27'])

/-- A list of quoted texts in brackets. -/
def quotedList (ss : List String) : String :=
  "[" ++ ", ".intercalate (ss.map quoted) ++ "]"

/-- An optional text, quoted. -/
def quotedOption : Option String → String
  | some s => "Some(" ++ quoted s ++ ")"
  | none => "None"

end TreeQuery.Text
