import TreeQuery.Toml.Value

/-!
# Blanks, strings and keys of TOML

Each function reads one phrase from the front of a text and hands on what is left.
-/

namespace TreeQuery.Toml

/-- The error at the front of a text. -/
def stray {α : Type} (cs : List Char) : Except Error α :=
  .error (.unexpected cs.head?)

/-- What one round of a loop comes to: another round, or a result. -/
inductive Round (σ ρ : Type) where
  | again (state : σ)
  | done (result : ρ)

/-- Rounds until one is done. Each takes at least one character, so the length of the text bounds
    their number. -/
def rounds {σ ρ : Type} (round : σ → List Char → Except Error (Round σ ρ × List Char)) :
    Nat → σ → List Char → Except Error (ρ × List Char)
  | 0, _, cs => stray cs
  | fuel + 1, state, cs =>
    match round state cs with
    | .error e => .error e
    | .ok (.again state, rest) => rounds round fuel state rest
    | .ok (.done result, rest) => .ok (result, rest)

/-- Rounds over a text. -/
def repeatRounds {σ ρ : Type} (round : σ → List Char → Except Error (Round σ ρ × List Char))
    (state : σ) (cs : List Char) : Except Error (ρ × List Char) :=
  rounds round (cs.length + 1) state cs

/-! ## Blanks and comments -/

/-- May a character stand for itself in a comment or in a string? -/
def isPlain (c : Char) : Bool :=
  c == '\t' || (0x20 ≤ c.toNat && c.toNat != 0x7F)

/-- Space and tab. -/
def isSpace (c : Char) : Bool :=
  c == ' ' || c == '\t'

/-- A text without the spaces and tabs at its front. -/
def dropSpaces (cs : List Char) : List Char :=
  cs.dropWhile isSpace

/-- What follows a line end at the front of a text. -/
def lineEnd? : List Char → Option (List Char)
  | '\n' :: rest => some rest
  | '\r' :: '\n' :: rest => some rest
  | _ => none

/-- What follows the text of a comment: a line end, or nothing. -/
def dropCommentText : List Char → Except Error (List Char)
  | [] => .ok []
  | '\n' :: rest => .ok ('\n' :: rest)
  | '\r' :: '\n' :: rest => .ok ('\r' :: '\n' :: rest)
  | c :: rest => if isPlain c then dropCommentText rest else stray (c :: rest)

/-- A text without the spaces and the comment at its front. -/
def dropComment (cs : List Char) : Except Error (List Char) :=
  match dropSpaces cs with
  | '#' :: rest => dropCommentText rest
  | rest => .ok rest

/-- A text without the spaces, comments and line ends at its front. -/
def dropBlanks (cs : List Char) : Except Error (List Char) := do
  let (_, rest) ← repeatRounds (fun (_ : Unit) cs => do
    let rest ← dropComment cs
    match lineEnd? rest with
    | some rest => return (.again (), rest)
    | none => return (.done (), rest)) () cs
  return rest

/-! ## Strings -/

/-- The value of a hexadecimal digit. -/
def hexDigit? (c : Char) : Option Nat :=
  if c.isDigit then some (c.toNat - '0'.toNat)
  else if 'a' ≤ c && c ≤ 'f' then some (c.toNat - 'a'.toNat + 10)
  else if 'A' ≤ c && c ≤ 'F' then some (c.toNat - 'A'.toNat + 10)
  else none

/-- The character whose code point is given by `count` hexadecimal digits. -/
def codePoint (count : Nat) (cs : List Char) : Except Error (Char × List Char) :=
  let digits := (cs.take count).filterMap hexDigit?
  let n := digits.foldl (fun n d => 16 * n + d) 0
  if digits.length = count ∧ n.isValidChar then .ok (Char.ofNat n, cs.drop count)
  else .error .badEscape

/-- The character of an escape, behind its backslash. -/
def escape : List Char → Except Error (Char × List Char)
  | 'b' :: rest => .ok ('\x08', rest)
  | 't' :: rest => .ok ('\t', rest)
  | 'n' :: rest => .ok ('\n', rest)
  | 'f' :: rest => .ok ('\x0c', rest)
  | 'r' :: rest => .ok ('\r', rest)
  | 'e' :: rest => .ok ('\x1b', rest)
  | '\x22' :: rest => .ok ('\x22', rest)
  | '\\' :: rest => .ok ('\\', rest)
  | 'x' :: rest => codePoint 2 rest
  | 'u' :: rest => codePoint 4 rest
  | 'U' :: rest => codePoint 8 rest
  | _ => .error .badEscape

/-- One character of a string in double quotes. The state is the string so far, backwards. -/
def basicRound (read : List Char) :
    List Char → Except Error (Round (List Char) String × List Char)
  | '\x22' :: rest => .ok (.done (String.ofList read.reverse), rest)
  | '\\' :: rest => do
    let (c, rest) ← escape rest
    return (.again (c :: read), rest)
  | c :: rest => if isPlain c then .ok (.again (c :: read), rest) else stray (c :: rest)
  | [] => stray []

/-- One character of a string in single quotes. -/
def literalRound (read : List Char) :
    List Char → Except Error (Round (List Char) String × List Char)
  | '\x27' :: rest => .ok (.done (String.ofList read.reverse), rest)
  | c :: rest => if isPlain c then .ok (.again (c :: read), rest) else stray (c :: rest)
  | [] => stray []

/-- A text without the spaces and line ends at its front. -/
def dropLineEnds : List Char → List Char
  | '\n' :: rest => dropLineEnds rest
  | '\r' :: '\n' :: rest => dropLineEnds rest
  | ' ' :: rest => dropLineEnds rest
  | '\t' :: rest => dropLineEnds rest
  | cs => cs

/-- What follows a backslash at the end of a line: the text goes on at the next character that is
    neither blank nor a line end. -/
def continuation? (cs : List Char) : Option (List Char) :=
  (lineEnd? (dropSpaces cs)).map dropLineEnds

/-- The end of a string over several lines. Up to two quotes right before the three closing ones
    belong to the string. -/
def longEnd? (quote : Char) (cs : List Char) : Option (List Char × List Char) :=
  let count := (cs.takeWhile fun c => c == quote).length
  if count < 3 then none
  else
    let own := min (count - 3) 2
    some (List.replicate own quote, cs.drop (own + 3))

/-- One character of a string over several lines. `escapes` says whether backslashes are
    special. -/
def longRound (quote : Char) (escapes : Bool) (read : List Char) (cs : List Char) :
    Except Error (Round (List Char) String × List Char) :=
  match longEnd? quote cs with
  | some (own, rest) => .ok (.done (String.ofList (read.reverse ++ own)), rest)
  | none =>
    match cs with
    | [] => stray []
    | '\n' :: rest => .ok (.again ('\n' :: read), rest)
    | '\r' :: '\n' :: rest => .ok (.again ('\n' :: '\r' :: read), rest)
    | '\\' :: rest =>
      if escapes then
        match continuation? rest with
        | some rest => .ok (.again read, rest)
        | none => do
          let (c, rest) ← escape rest
          return (.again (c :: read), rest)
      else .ok (.again ('\\' :: read), rest)
    | c :: rest => if isPlain c then .ok (.again (c :: read), rest) else stray (c :: rest)

/-- A string over several lines, behind its three opening quotes. A line end right there does not
    belong to it. -/
def longString (quote : Char) (escapes : Bool) (cs : List Char) :
    Except Error (String × List Char) :=
  repeatRounds (longRound quote escapes) [] ((lineEnd? cs).getD cs)

/-- A string on one line, if there is one. -/
def shortString? : List Char → Option (Except Error (String × List Char))
  | '\x22' :: rest => some (repeatRounds basicRound [] rest)
  | '\x27' :: rest => some (repeatRounds literalRound [] rest)
  | _ => none

/-- A string, if there is one. -/
def string? : List Char → Option (Except Error (String × List Char))
  | '\x22' :: '\x22' :: '\x22' :: rest => some (longString '\x22' true rest)
  | '\x27' :: '\x27' :: '\x27' :: rest => some (longString '\x27' false rest)
  | cs => shortString? cs

/-! ## Keys -/

/-- The characters of a key without quotes. -/
def isBareKeyChar (c : Char) : Bool :=
  c.isAlphanum || c == '_' || c == '-'

/-- A key without dots. -/
def simpleKey (cs : List Char) : Except Error (String × List Char) :=
  match shortString? cs with
  | some result => result
  | none =>
    let key := cs.takeWhile isBareKeyChar
    if key.isEmpty then stray cs else .ok (String.ofList key, cs.drop key.length)

/-- How many parts a key may have, and how deep arrays and tables may be nested inside a value. -/
def nestingLimit : Nat := 80

/-- A key, as the list of its parts between dots. What is left has no spaces at its front. -/
def key (cs : List Char) : Except Error (List String × List Char) := do
  let (parts, rest) ← repeatRounds (fun (read : List String) cs => do
    let (part, rest) ← simpleKey (dropSpaces cs)
    match dropSpaces rest with
    | '.' :: rest => return (.again (read ++ [part]), rest)
    | rest => return (.done (read ++ [part]), rest)) [] cs
  if nestingLimit < parts.length then .error .tooDeep else return (parts, rest)

end TreeQuery.Toml
