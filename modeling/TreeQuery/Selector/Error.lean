import TreeQuery.Token.Scan

/-!
# Faults in selector text

A selector text is refused at a position, counted in characters, and for a reason.
-/

namespace TreeQuery

/-- What the grammar asks for at some point of a selector. -/
inductive Expected where
  | kind
  | paramName
  | equalsSign
  | paramValue
  | commaOrBracket
  | refinementName
  | argument
  | closingParen
  | colonOrEnd
  deriving DecidableEq, Repr

/-- How a message names what is asked for. -/
def Expected.phrase : Expected → String
  | kind => "a node kind"
  | paramName => "a parameter name"
  | equalsSign => "'=' after parameter name"
  | paramValue => "a parameter value"
  | commaOrBracket => "',' or ']'"
  | refinementName => "a pseudo-filter name after ':'"
  | argument => "a pseudo-filter argument"
  | closingParen => "')'"
  | colonOrEnd => "':' or end of selector"

/-- Why a list of tokens is no selector. -/
inductive Fault where
  /-- There are no tokens but blanks. -/
  | empty
  /-- A token stands where something else is asked for. -/
  | unexpected (expected : Expected) (found : TokenKind) (text : String)
  /-- The tokens end where something is asked for. -/
  | ended (expected : Expected)
  /-- An opening bracket or parenthesis is not closed. -/
  | unclosed (opening : Char)
  /-- A parameter is given twice. -/
  | duplicate (name : String)
  deriving DecidableEq, Repr

/-- The wording of a fault. -/
def Fault.message : Fault → String
  | empty => "empty selector"
  | unexpected expected found text =>
    "expected " ++ expected.phrase ++ ", found " ++ found.label ++ " '" ++ text ++ "'"
  | ended expected => "expected " ++ expected.phrase ++ ", found end of selector"
  | unclosed opening => "unterminated '" ++ opening.toString ++ "'"
  | duplicate name => "duplicate parameter '" ++ name ++ "'"

/-- Why a text is no selector (`SelectorError`). -/
inductive SelectorError where
  /-- A character that starts no token. -/
  | lexical (stray : StrayChar)
  /-- Tokens that make up no selector. -/
  | malformed (position : Nat) (fault : Fault)
  deriving DecidableEq, Repr

namespace SelectorError

/-- The character offset an error points at. -/
def position : SelectorError → Nat
  | lexical stray => stray.position
  | malformed position _ => position

/-- The wording of an error. -/
def message : SelectorError → String
  | lexical stray =>
    "unexpected character '" ++ stray.character.toString ++ "' at position " ++
      toString stray.position
  | malformed position fault =>
    "malformed selector at position " ++ toString position ++ ": " ++ fault.message

end SelectorError

end TreeQuery
