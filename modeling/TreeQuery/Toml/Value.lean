/-!
# TOML values

The data that a TOML document holds. A table remembers how it came about, since that decides
whether the document may still add to it; an array remembers whether it is an array of tables
that headers add to.
-/

namespace TreeQuery.Toml

/-- How a table came about. -/
inductive TableForm where
  /-- Written out in braces. Nothing can be added. -/
  | inline
  /-- Opened by a header of its own. -/
  | header
  /-- On the way to a table that a header opened. -/
  | implied
  /-- On the way to a key with dots. -/
  | dotted
  deriving DecidableEq, Repr

/-- A TOML value. Floats and dates are kept as text. -/
inductive Value where
  | string (text : String)
  | integer (number : Int)
  | float (text : String)
  | boolean (value : Bool)
  | datetime (text : String)
  /-- `growing` arrays are those that headers in double brackets add to. -/
  | array (growing : Bool) (items : List Value)
  | table (form : TableForm) (entries : List (String × Value))

/-- Why a text is no TOML document, or not the one that is asked for. -/
inductive Error where
  /-- A character that cannot stand here, or the end of the text. -/
  | unexpected (found : Option Char)
  /-- An escape that stands for no character. -/
  | badEscape
  /-- A text that is no value. -/
  | badScalar (text : String)
  /-- A key that is already in use, or a table that cannot be added to. -/
  | duplicateKey (key : String)
  /-- Arrays and tables inside each other beyond the limit. -/
  | tooDeep
  /-- A value of the wrong type, or a required key without a value. -/
  | wrongType (key : String)
  /-- A key that means nothing here. -/
  | unknownKey (key : String)
  deriving DecidableEq, Repr

/-- The wording of an error. -/
def Error.message : Error → String
  | unexpected (some c) => "unexpected character '" ++ c.toString ++ "'"
  | unexpected none => "unexpected end of text"
  | badEscape => "invalid escape sequence"
  | badScalar text => "invalid value '" ++ text ++ "'"
  | duplicateKey key => "duplicate key '" ++ key ++ "'"
  | tooDeep => "values are nested too deeply"
  | wrongType key => "missing value or wrong type for '" ++ key ++ "'"
  | unknownKey key => "unknown key '" ++ key ++ "'"

end TreeQuery.Toml
