import TreeQuery.Token.Lexeme

/-!
# Scanning

A text is cut into tokens from left to right: at each position the first recognizer of a chain
that accepts makes the token, and the next token starts where its lexeme ends. The scan fails at
the first position where the whole chain declines.
-/

namespace TreeQuery

/-- The position at which no recognizer accepts, and the character there. -/
structure StrayChar where
  character : Char
  position : Nat
  deriving DecidableEq, Repr

/-- A token together with the width of its lexeme. -/
structure Step where
  token : Token
  width : Nat
  deriving DecidableEq, Repr

/-- The token a recognizer makes at the start of `cs`, which is at `position` in the text. -/
def Recognizer.step? (r : Recognizer) (position : Nat) (cs : List Char) : Option Step :=
  (r.lexeme? cs).map fun l => ⟨⟨r.kind, String.ofList l.text, position⟩, l.width⟩

/-- The token of the first recognizer in the chain that accepts. -/
def firstStep? (chain : List Recognizer) (position : Nat) (cs : List Char) : Option Step :=
  chain.findSome? fun r => r.step? position cs

theorem Recognizer.step?_width {r : Recognizer} {position : Nat} {cs : List Char} {s : Step}
    (h : r.step? position cs = some s) : 0 < s.width ∧ s.width ≤ cs.length := by
  obtain ⟨l, hl, rfl⟩ := Option.map_eq_some_iff.1 h
  exact lexeme?_width hl

theorem firstStep?_width {chain : List Recognizer} {position : Nat} {cs : List Char} {s : Step}
    (h : firstStep? chain position cs = some s) : 0 < s.width ∧ s.width ≤ cs.length := by
  obtain ⟨r, -, hr⟩ := List.exists_of_findSome?_eq_some h
  exact r.step?_width hr

/-- The tokens of `cs`, whose first character is at `position` in the text. -/
def scanFrom (chain : List Recognizer) (position : Nat) (cs : List Char) :
    Except StrayChar (List Token) :=
  match cs with
  | [] => .ok []
  | c :: rest =>
    match _h : firstStep? chain position (c :: rest) with
    | none => .error ⟨c, position⟩
    | some s =>
      (scanFrom chain (position + s.width) ((c :: rest).drop s.width)).map (s.token :: ·)
termination_by cs.length
decreasing_by
  have := firstStep?_width _h
  simp only [List.length_drop, List.length_cons] at *
  omega

/-- The tokens of a text (the loop of `SelectorParser::tokenize`). -/
def scan (chain : List Recognizer) (input : String) : Except StrayChar (List Token) :=
  scanFrom chain 0 input.toList

end TreeQuery
