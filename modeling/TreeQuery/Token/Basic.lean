/-!
# Tokens

A selector is read as a list of tokens. A token has a kind, the text it stands for, and the
character offset at which it starts. For a quoted token the text is what stands between the
quotes, with its escapes resolved; for every other token it is the lexeme itself.

The program described here has names of its own. Where a definition stands for one of its types or
functions, here and in the other modules, the docstring gives that name in parentheses.
-/

namespace TreeQuery

/-- The kinds of tokens (`TokenType`). -/
inductive TokenKind where
  | blank
  | colon
  | bracketOpen
  | bracketClose
  | parenOpen
  | parenClose
  | equals
  | comma
  | greaterThan
  | quoted
  | number
  | name
  deriving DecidableEq, Repr

namespace TokenKind

/-- All kinds of tokens. -/
def all : List TokenKind :=
  [blank, colon, bracketOpen, bracketClose, parenOpen, parenClose, equals, comma, greaterThan,
   quoted, number, name]

/-- What a kind is called in messages (`TokenType::as_str`). -/
def label : TokenKind → String
  | blank => "whitespace"
  | colon => "colon"
  | bracketOpen => "bracket-open"
  | bracketClose => "bracket-close"
  | parenOpen => "paren-open"
  | parenClose => "paren-close"
  | equals => "equals"
  | comma => "comma"
  | greaterThan => "greater-than"
  | quoted => "string"
  | number => "number"
  | name => "identifier"

/-- The kind with a given label. -/
def ofLabel? (label : String) : Option TokenKind :=
  all.find? fun kind => kind.label == label

/-- Can a token of this kind be the value of a parameter or the argument of a refinement
    (`TokenType::is_value`)? -/
def isValue : TokenKind → Bool
  | quoted | number | name => true
  | _ => false

end TokenKind

/-- A piece of selector text. -/
structure Token where
  kind : TokenKind
  text : String
  /-- Character offset of the first character of the lexeme. -/
  position : Nat
  deriving DecidableEq, Repr

end TreeQuery
