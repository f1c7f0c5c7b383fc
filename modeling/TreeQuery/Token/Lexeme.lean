import TreeQuery.Text.Blank
import TreeQuery.Token.Basic

/-!
# Lexemes

A recognizer accepts one kind of lexeme at the start of a text, or declines. An accepted lexeme
says how many characters it takes up (`width`) and what it stands for (`text`).

Every lexeme takes up at least one character and no more than there are (`lexeme?_width`), which
is why reading one lexeme after the other comes to an end.
-/

namespace TreeQuery

/-- What a recognizer found at the start of a text. -/
structure Lexeme where
  /-- What the lexeme stands for. -/
  text : List Char
  /-- The number of characters it takes up. -/
  width : Nat
  deriving DecidableEq, Repr

/-- A recognizer for one kind of lexeme (`TokenHandler`). -/
inductive Recognizer where
  /-- A run of blanks (`WhitespaceHandler`). -/
  | blank
  /-- A single character, read as a token of the given kind (`SymbolHandler`). -/
  | symbol (char : Char) (kind : TokenKind)
  /-- Text between two quotes or two apostrophes, with backslash escapes (`StringHandler`). -/
  | quoted
  /-- A run of decimal digits, perhaps after a minus sign (`NumberHandler`). -/
  | number
  /-- A name (`IdentifierHandler`): see `isNameStart` and `isNameChar`. -/
  | name
  deriving DecidableEq, Repr

/-! ## Character classes -/

/-- The characters a name may start with (`IdentifierHandler::is_start`): ASCII letters and the
    underscore. -/
def isNameStart (c : Char) : Bool :=
  c.isAlpha || c == '_'

/-- The characters a name may go on with (`IdentifierHandler::is_continue`): ASCII letters and
    digits, underscore and minus. -/
def isNameChar (c : Char) : Bool :=
  c.isAlphanum || c == '_' || c == '-'

/-- The two characters that open and close a quoted text. -/
def isQuote (c : Char) : Bool :=
  c == '\x22' || c == '\x27'

/-- What a character stands for after a backslash. -/
def unescape : Char → Char
  | 'n' => '\n'
  | 't' => '\t'
  | 'r' => '\r'
  | c => c

/-! ## Recognition -/

namespace Recognizer

/-- The kind of the tokens a recognizer makes (`TokenHandler::token_type`). -/
def kind : Recognizer → TokenKind
  | blank => .blank
  | symbol _ kind => kind
  | quoted => .quoted
  | number => .number
  | name => .name

/-- The lexeme that a run of characters makes up, if there is any. -/
def run (cs : List Char) : Option Lexeme :=
  if cs.isEmpty then none else some ⟨cs, cs.length⟩

/-- Quoted text after its opening `quote`, up to and with the closing one. A backslash takes the
    character after it along, so that a quote behind it does not close the text. -/
def quotedTail (quote : Char) : List Char → Option Lexeme
  | [] => none
  | c :: cs =>
    if c = quote then some ⟨[], 1⟩
    else if c = '\\' then
      match cs with
      | [] => none
      | escaped :: cs =>
        (quotedTail quote cs).map fun tail => ⟨unescape escaped :: tail.text, tail.width + 2⟩
    else (quotedTail quote cs).map fun tail => ⟨c :: tail.text, tail.width + 1⟩

/-- The lexeme of a recognizer at the start of a text, or `none` if it declines. -/
def lexeme? : Recognizer → List Char → Option Lexeme
  | blank, cs => run (cs.takeWhile Text.isBlank)
  | symbol _ _, [] => none
  | symbol char _, c :: _ => if c = char then some ⟨[char], 1⟩ else none
  | quoted, [] => none
  | quoted, c :: cs =>
    if isQuote c then (quotedTail c cs).map fun tail => ⟨tail.text, tail.width + 1⟩ else none
  | number, '-' :: cs =>
    (run (cs.takeWhile Char.isDigit)).map fun digits => ⟨'-' :: digits.text, digits.width + 1⟩
  | number, cs => run (cs.takeWhile Char.isDigit)
  | name, [] => none
  | name, c :: cs => if isNameStart c then run ((c :: cs).takeWhile isNameChar) else none

/-- The recognizers for selectors, in the order in which they are asked (`default_handlers`). -/
def standard : List Recognizer :=
  [blank, symbol ':' .colon, symbol '[' .bracketOpen, symbol ']' .bracketClose,
   symbol '(' .parenOpen, symbol ')' .parenClose, symbol '=' .equals, symbol ',' .comma,
   symbol '>' .greaterThan, quoted, number, name]

/-! ## Every lexeme is a proper start of the text -/

theorem run_width {cs : List Char} {l : Lexeme} (h : run cs = some l) :
    0 < l.width ∧ l.width = cs.length ∧ l.text = cs := by
  unfold run at h
  cases cs with
  | nil => simp at h
  | cons c cs =>
    simp only [List.isEmpty_cons, Bool.false_eq_true, if_false, Option.some.injEq] at h
    subst h
    simp

theorem length_takeWhile_le {α : Type} (p : α → Bool) (cs : List α) :
    (cs.takeWhile p).length ≤ cs.length :=
  (List.takeWhile_prefix p).length_le

theorem quotedTail_width {quote : Char} {cs : List Char} {l : Lexeme}
    (h : quotedTail quote cs = some l) : 0 < l.width ∧ l.width ≤ cs.length := by
  fun_induction quotedTail quote cs generalizing l with
  | case1 => simp at h
  | case2 cs =>
    simp only [Option.some.injEq] at h
    subst h
    simp
  | case3 => simp at h
  | case4 escaped cs hq ih =>
    obtain ⟨tail, ht, rfl⟩ := Option.map_eq_some_iff.1 h
    have := ih ht
    simp only [List.length_cons]
    omega
  | case5 c cs hq hb ih =>
    obtain ⟨tail, ht, rfl⟩ := Option.map_eq_some_iff.1 h
    have := ih ht
    simp only [List.length_cons]
    omega

/-- A lexeme takes up at least one character, and no more than the text has. -/
theorem lexeme?_width {r : Recognizer} {cs : List Char} {l : Lexeme} (h : r.lexeme? cs = some l) :
    0 < l.width ∧ l.width ≤ cs.length := by
  unfold lexeme? at h
  split at h
  · obtain ⟨h₁, h₂, -⟩ := run_width h
    have := length_takeWhile_le Text.isBlank cs
    omega
  · simp at h
  · split at h
    · simp only [Option.some.injEq] at h
      subst h
      simp
    · simp at h
  · simp at h
  · split at h
    · obtain ⟨tail, ht, rfl⟩ := Option.map_eq_some_iff.1 h
      have := quotedTail_width ht
      simp only [List.length_cons]
      omega
    · simp at h
  · obtain ⟨digits, hd, rfl⟩ := Option.map_eq_some_iff.1 h
    obtain ⟨h₁, h₂, -⟩ := run_width hd
    rename_i cs
    have := length_takeWhile_le Char.isDigit cs
    simp only [List.length_cons]
    omega
  · obtain ⟨h₁, h₂, -⟩ := run_width h
    have := length_takeWhile_le Char.isDigit cs
    omega
  · simp at h
  · split at h
    · obtain ⟨h₁, h₂, -⟩ := run_width h
      rename_i c cs _
      have := length_takeWhile_le isNameChar (c :: cs)
      omega
    · simp at h

end Recognizer

end TreeQuery
