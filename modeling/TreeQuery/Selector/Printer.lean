import TreeQuery.Selector.Basic
import TreeQuery.Token.Lexeme

/-!
# Writing selectors

A selector is written in one canonical way, without blanks and with its parameters in increasing
order. A value that reads as a name or as a number is written as it is, any other between double
quotes with its quotes and backslashes escaped.
-/

namespace TreeQuery

/-- Is `cs` a name? -/
def isName : List Char → Bool
  | [] => false
  | c :: cs => isNameStart c && (c :: cs).all isNameChar

/-- Is `cs` a run of decimal digits, perhaps after a minus sign? -/
def isNumber : List Char → Bool
  | [] => false
  | '-' :: cs => !cs.isEmpty && cs.all Char.isDigit
  | cs => cs.all Char.isDigit

namespace Selector

/-- The escape of a character between double quotes. -/
def escape (c : Char) : List Char :=
  if c = '\\' then ['\\', '\\'] else if c = '\x22' then ['\\', '\x22'] else [c]

/-- How a value is written (`quote_if_needed`). -/
def valueChars (value : List Char) : List Char :=
  if isName value || isNumber value then value
  else ['\x22'] ++ value.flatMap escape ++ ['\x22']

/-- How a parameter is written. -/
def paramChars (entry : String × String) : List Char :=
  entry.1.toList ++ ['='] ++ valueChars entry.2.toList

/-- How the parameters are written, if there are any. -/
def paramsChars (p : Params) : List Char :=
  if p.isEmpty then []
  else ['['] ++ [','].intercalate (p.entries.map paramChars) ++ [']']

/-- How a refinement is written. -/
def refinementChars (r : Refinement) : List Char :=
  match r.argument with
  | some argument => [':'] ++ r.name.toList ++ ['('] ++ valueChars argument.toList ++ [')']
  | none => [':'] ++ r.name.toList

/-- The characters of a selector. -/
def chars (s : Selector) : List Char :=
  (if s.descend then [] else ['>']) ++ s.kind.toList ++ paramsChars s.params ++
    s.refinements.flatMap refinementChars

/-- The canonical text of a selector. -/
def render (s : Selector) : String :=
  String.ofList s.chars

end Selector

end TreeQuery
