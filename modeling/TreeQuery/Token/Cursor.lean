import TreeQuery.Token.Scan

/-!
# Cursors

A cursor is a text with a position in it, counted in characters. Positions are 64-bit words. A
cursor is moved by adding to its position, and only then cutting the sum off at the end of the
text: a sum that is too large for a word ends the program, wherever the text ends.

A `Reading` pairs a cursor with the tokens read so far.
-/

namespace TreeQuery

/-- The failure of a sum that is too large for a word. It ends the program. -/
inductive Overflow where
  | add
  deriving DecidableEq, Repr

/-- What the program says of it as it ends. -/
def Overflow.message : Overflow → String
  | add => "attempt to add with overflow"

/-- A position in a text (`SourceReader`). -/
structure Cursor where
  input : List Char
  position : Nat
  deriving DecidableEq, Repr

namespace Cursor

/-- A cursor at the start of a text. -/
def ofString (s : String) : Cursor :=
  ⟨s.toList, 0⟩

/-- The number of characters of the text. -/
def length (c : Cursor) : Nat :=
  c.input.length

/-- Is the cursor at the end of the text (`SourceReader::at_end`)? -/
def atEnd (c : Cursor) : Bool :=
  c.length ≤ c.position

/-- The text from the cursor on. -/
def rest (c : Cursor) : List Char :=
  c.input.drop c.position

/-- The character under the cursor (`SourceReader::current`). -/
def current? (c : Cursor) : Option Char :=
  c.input[c.position]?

/-- The position plus `n`, if the sum is a word. -/
def offset (c : Cursor) (n : UInt64) : Except Overflow Nat :=
  if c.position + n.toNat < UInt64.size then .ok (c.position + n.toNat) else .error .add

/-- The character `n` places after the cursor (`SourceReader::peek`). -/
def peek (c : Cursor) (n : UInt64) : Except Overflow (Option Char) :=
  (c.offset n).map (c.input[·]?)

/-- The cursor `n` places further on, at most at the end of the text (`SourceReader::advance`). -/
def advance (c : Cursor) (n : UInt64) : Except Overflow Cursor :=
  (c.offset n).map fun position => { c with position := min position c.length }

/-- The token of a recognizer at the cursor, and the cursor behind it
    (`TokenHandler::try_consume`). -/
def take? (c : Cursor) (r : Recognizer) : Option (Token × Cursor) :=
  (r.step? c.position c.rest).map fun s => (s.token, { c with position := c.position + s.width })

end Cursor

/-- A cursor and the tokens read so far. -/
structure Reading where
  cursor : Cursor
  tokens : List Token
  deriving DecidableEq, Repr

namespace Reading

/-- A reading that has not started yet. -/
def ofString (s : String) : Reading :=
  ⟨Cursor.ofString s, []⟩

/-- Let a recognizer read on (`TokenHandler::handle`). It accepts, moves the cursor and adds a
    token; or it declines and changes nothing. -/
def read (reading : Reading) (r : Recognizer) : Bool × Reading :=
  match reading.cursor.take? r with
  | some (token, cursor) => (true, ⟨cursor, reading.tokens ++ [token]⟩)
  | none => (false, reading)

end Reading

end TreeQuery
