import TreeQuery.Selector.Basic
import TreeQuery.Selector.Error

/-!
# Reading selectors

The grammar, over tokens with the blanks left out:

    selector   := [ ">" ] name [ "[" param { "," param } "]" ] { ":" refinement }
    param      := name "=" value
    refinement := name [ "(" value ")" ]
    value      := name | number | quoted

A leading `>` keeps the query to the given nodes. No parameter may be given twice. Each function
below reads one phrase from the front of a token list and hands on what is left; `stop` is the
length of the selector text, where a fault at its end is reported.
-/

namespace TreeQuery.Selector

/-- A token that stands where `expected` is asked for (`unexpected`). -/
def unexpected (expected : Expected) (found : Token) : SelectorError :=
  .malformed found.position (.unexpected expected found.kind found.text)

/-- Tokens that end where `expected` is asked for. -/
def ended (stop : Nat) (expected : Expected) : SelectorError :=
  .malformed stop (.ended expected)

/-- Read one token, which has to be acceptable (`FilterBuilder::expect`). -/
def readToken (accept : TokenKind → Bool) (expected : Expected) (stop : Nat) :
    List Token → Except SelectorError (Token × List Token)
  | [] => .error (ended stop expected)
  | token :: rest =>
    if accept token.kind then .ok (token, rest) else .error (unexpected expected token)

/-- Read `name "=" value`. -/
def readParam (stop : Nat) (tokens : List Token) :
    Except SelectorError ((Token × Token) × List Token) := do
  let (name, tokens) ← readToken (· == .name) .paramName stop tokens
  let (_, tokens) ← readToken (· == .equals) .equalsSign stop tokens
  let (value, tokens) ← readToken TokenKind.isValue .paramValue stop tokens
  return ((name, value), tokens)

/-- Read `[ "(" value ")" ]`. -/
def readArgument (stop : Nat) :
    List Token → Except SelectorError (Option String × List Token)
  | [] => .ok (none, [])
  | opening :: rest =>
    if opening.kind = .parenOpen then
      match readToken TokenKind.isValue .argument stop rest with
      | .error e => .error e
      | .ok (_, []) => .error (.malformed opening.position (.unclosed '('))
      | .ok (value, closing :: rest) =>
        if closing.kind = .parenClose then .ok (some value.text, rest)
        else .error (unexpected .closingParen closing)
    else .ok (none, opening :: rest)

/-! ## Phrases shorten what is left -/

theorem readToken_length {accept : TokenKind → Bool} {expected : Expected} {stop : Nat}
    {tokens rest : List Token} {t : Token}
    (h : readToken accept expected stop tokens = .ok (t, rest)) :
    tokens.length = rest.length + 1 := by
  cases tokens with
  | nil => simp [readToken] at h
  | cons token tokens =>
    simp only [readToken] at h
    split at h
    · simp only [Except.ok.injEq, Prod.mk.injEq] at h
      simp [h.2]
    · simp at h

theorem readParam_length {stop : Nat} {tokens rest : List Token} {p : Token × Token}
    (h : readParam stop tokens = .ok (p, rest)) : rest.length < tokens.length := by
  simp only [readParam, bind, Except.bind, pure, Except.pure] at h
  split at h
  · simp at h
  · rename_i h₁
    split at h
    · simp at h
    · rename_i h₂
      split at h
      · simp at h
      · rename_i h₃
        simp only [Except.ok.injEq, Prod.mk.injEq] at h
        have h₁ := readToken_length h₁
        have h₂ := readToken_length h₂
        have h₃ := readToken_length h₃
        rw [← h.2]
        omega

theorem readArgument_length {stop : Nat} {tokens rest : List Token} {a : Option String}
    (h : readArgument stop tokens = .ok (a, rest)) : rest.length ≤ tokens.length := by
  cases tokens with
  | nil =>
    simp only [readArgument, Except.ok.injEq, Prod.mk.injEq] at h
    simp [← h.2]
  | cons opening tokens =>
    simp only [readArgument] at h
    split at h
    · split at h
      · simp at h
      · simp at h
      · rename_i h₁
        have h₁ := readToken_length h₁
        split at h
        · simp only [Except.ok.injEq, Prod.mk.injEq] at h
          rw [← h.2]
          simp only [List.length_cons] at *
          omega
        · simp at h
    · simp only [Except.ok.injEq, Prod.mk.injEq] at h
      simp [← h.2]

/-! ## Lists of phrases -/

/-- Read `param { "," param } "]"` after the bracket at position `opening`
    (`FilterBuilder::read_params`). The parameters read so far are `seen`. -/
def readParams (stop opening : Nat) (seen : Params) (tokens : List Token) :
    Except SelectorError (Params × List Token) :=
  match _h : readParam stop tokens with
  | .error e => .error e
  | .ok ((name, value), rest) =>
    if seen.contains name.text then .error (.malformed name.position (.duplicate name.text))
    else
      match _hr : rest with
      | [] => .error (.malformed opening (.unclosed '['))
      | separator :: rest =>
        match separator.kind with
        | .comma => readParams stop opening (seen.insert name.text value.text) rest
        | .bracketClose => .ok (seen.insert name.text value.text, rest)
        | _ => .error (unexpected .commaOrBracket separator)
termination_by tokens.length
decreasing_by
  have := readParam_length _h
  simp only [List.length_cons] at *
  omega

/-- Read `{ ":" refinement }` up to the end of the tokens (`FilterBuilder::read_pseudo`). -/
def readRefinements (stop : Nat) (tokens : List Token) :
    Except SelectorError (List Refinement) :=
  match tokens with
  | [] => .ok []
  | colon :: rest =>
    if colon.kind = .colon then
      match _hn : readToken (· == .name) .refinementName stop rest with
      | .error e => .error e
      | .ok (name, rest) =>
        match _ha : readArgument stop rest with
        | .error e => .error e
        | .ok (argument, rest) =>
          (readRefinements stop rest).map (⟨name.text, argument⟩ :: ·)
    else .error (unexpected .colonOrEnd colon)
termination_by tokens.length
decreasing_by
  have := readToken_length _hn
  have := readArgument_length _ha
  simp only [List.length_cons]
  omega

/-- Read `[ "[" param { "," param } "]" ]`. -/
def readParamBlock (stop : Nat) : List Token → Except SelectorError (Params × List Token)
  | [] => .ok (.empty, [])
  | token :: rest =>
    if token.kind = .bracketOpen then readParams stop token.position .empty rest
    else .ok (.empty, token :: rest)

/-- Read `[ ">" ]`: is the query to descend? -/
def readDescend : List Token → Bool × List Token
  | [] => (true, [])
  | token :: rest => if token.kind = .greaterThan then (false, rest) else (true, token :: rest)

/-- The selector that tokens without blanks make up (`FilterBuilder::run`). -/
def ofSolidTokens (stop : Nat) (tokens : List Token) : Except SelectorError Selector := do
  if tokens.isEmpty then throw (.malformed 0 .empty)
  let (descend, tokens) := readDescend tokens
  let (kind, tokens) ← readToken (· == .name) .kind stop tokens
  let (params, tokens) ← readParamBlock stop tokens
  let refinements ← readRefinements stop tokens
  return ⟨kind.text, params, descend, refinements⟩

/-- The selector that tokens make up. Blanks between them do not matter. -/
def ofTokens (stop : Nat) (tokens : List Token) : Except SelectorError Selector :=
  ofSolidTokens stop (tokens.filter fun token => token.kind != .blank)

/-- The tokens of a selector text (`SelectorParser::tokenize`). -/
def tokenize (chain : List Recognizer) (text : String) : Except SelectorError (List Token) :=
  (scan chain text).mapError .lexical

/-- The selector a text stands for, with the recognizers of `chain` (`SelectorParser::parse`). -/
def parseWith (chain : List Recognizer) (text : String) : Except SelectorError Selector := do
  let tokens ← tokenize chain text
  ofTokens text.toList.length tokens

/-- The selector a text stands for (`parse_selector`). -/
def parse (text : String) : Except SelectorError Selector :=
  parseWith Recognizer.standard text

end TreeQuery.Selector
