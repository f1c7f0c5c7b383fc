/-!
# Terminal sequences

A terminal takes some runs of characters as orders: an escape character, and what belongs to it
up to an end that depends on the kind of the sequence. `visible` is what is left of a text when
these sequences and the other control characters are taken out.
-/

namespace TreeQuery.Sequence

/-- Where a character stands: outside all sequences, or in which part of one. -/
inductive Place where
  | outside
  /-- Behind the escape character. -/
  | escape
  /-- In the middle of an escape sequence of more than two characters. -/
  | middle
  /-- In a control sequence, which a bracket opens. -/
  | control
  /-- In an order to the system, which a bell ends. -/
  | order
  /-- At the front of a device string. -/
  | device
  /-- In the numbers of a device string. -/
  | deviceNumbers
  /-- Between the numbers and the text of a device string. -/
  | deviceMiddle
  /-- In the text of a string, which a string terminator ends. -/
  | string
  deriving DecidableEq, Repr

/-- Is the code of `c` in a range? -/
def within (low high : Nat) (c : Char) : Bool :=
  low ≤ c.toNat && c.toNat ≤ high

/-- Blanks other than the space. They show, control characters though they are. -/
def isBlank (c : Char) : Bool :=
  c == '\t' || c == '\n' || c == '\x0c' || c == '\r'

/-- Does `c` show outside all sequences? -/
def prints (c : Char) : Bool :=
  (0x20 ≤ c.toNat && c != '\x7f') || isBlank c

/-- Does a character end a string? The terminator is a single byte, which also ends a string as
    a part of a longer character. -/
def endsString (c : Char) : Bool :=
  (String.utf8EncodeChar c).contains 0x9C

namespace Place

/-- The place behind a character that follows the escape character. -/
def afterEscape (c : Char) : Place :=
  if c == '[' then control
  else if c == ']' then order
  else if c == 'P' then device
  else if c == 'X' || c == '^' || c == '_' then string
  else if within 0x20 0x2F c then middle
  else if within 0x30 0x7E c then outside
  else escape

/-- The place behind a character. An escape character starts a sequence everywhere, and two
    control characters cancel one everywhere. -/
def next (p : Place) (c : Char) : Place :=
  if c == '\x1b' then escape
  else if c == '\x18' || c == '\x1a' then outside
  else
    match p with
    | outside => outside
    | escape => afterEscape c
    | middle => if within 0x30 0x7E c then outside else middle
    | control => if within 0x40 0x7E c then outside else control
    | order => if c == '\x07' then outside else order
    | device =>
      if within 0x20 0x2F c then deviceMiddle
      else if within 0x30 0x3F c then deviceNumbers
      else if within 0x40 0x7E c then string
      else device
    | deviceNumbers =>
      if within 0x20 0x2F c then deviceMiddle
      else if within 0x3C 0x7E c then string
      else deviceNumbers
    | deviceMiddle => if within 0x30 0x7E c then string else deviceMiddle
    | string => if endsString c then outside else string

/-- Does a character show at a place? Blanks show inside the shorter sequences too. -/
def shows (p : Place) (c : Char) : Bool :=
  match p with
  | outside => prints c
  | escape | middle | control => isBlank c
  | order | device | deviceNumbers | deviceMiddle | string => false

end Place

/-- What is known between two characters. -/
structure State where
  place : Place
  /-- Did the last character show? After a blank in a sequence the text shows up to the next
      character that does not print; there the sequence goes on. -/
  showing : Bool
  deriving DecidableEq, Repr

/-- The state behind a character. A character beyond ASCII that shows ends the sequence that a
    blank has interrupted. -/
def State.next (s : State) (c : Char) : State :=
  if s.showing && prints c then ⟨if c.toNat < 0x80 then s.place else .outside, true⟩
  else ⟨s.place.next c, s.place.shows c⟩

/-- The characters that show, from a state on. -/
def keep (s : State) : List Char → List Char
  | [] => []
  | c :: rest => if (s.next c).showing then c :: keep (s.next c) rest else keep (s.next c) rest

/-- What is left of a text without sequences and control characters. -/
def visible (text : String) : String :=
  String.ofList (keep ⟨.outside, true⟩ text.toList)

end TreeQuery.Sequence
