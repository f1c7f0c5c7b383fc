import TreeQuery.Proofs.Faults

/-!
# Tokens that stand elsewhere

Where tokens stand does not matter to how they are read. If all places are moved, the same is read,
or the same fault is reported, at the place that the old one is moved to.

* `Token.moved`, `SelectorError.moved`: tokens and errors at other places.
* `relocated`: a result at other places. `relocated_bind`: it is made up of relocated parts.
* `readToken_moved` to `readRefinements_moved`: one lemma for each reader.
* `ofSolidTokens_moved`: the whole selector.
-/

namespace TreeQuery

/-- A token that stands elsewhere. -/
def Token.moved (f : Nat → Nat) (t : Token) : Token :=
  { t with position := f t.position }

theorem solidTokens_map_moved (f : Nat → Nat) (ts : List Token) :
    solidTokens (ts.map (Token.moved f)) = (solidTokens ts).map (Token.moved f) := by
  rw [solidTokens, List.filter_map]
  rfl

/-- The error that is reported if all places are moved. That there are no tokens is reported at the
    start of a text, whatever its length. -/
def SelectorError.moved (f : Nat → Nat) : SelectorError → SelectorError
  | lexical stray => .lexical { stray with position := f stray.position }
  | malformed position .empty => .malformed position .empty
  | malformed position fault => .malformed (f position) fault

namespace Selector

variable {α β : Type} (f : Nat → Nat)

/-- A result in which the places that an error points at are moved, and so are those in what is
    read, by `g`. -/
def relocated (g : α → α) : Except SelectorError α → Except SelectorError α
  | .ok a => .ok (g a)
  | .error e => .error (e.moved f)

variable {f}

theorem relocated_bind {g : α → α} {k : β → β} {x y : Except SelectorError α}
    {next next' : α → Except SelectorError β} (hx : y = relocated f g x)
    (hnext : ∀ a, next' (g a) = relocated f k (next a)) :
    (y >>= next') = relocated f k (x >>= next) := by
  subst hx
  cases x with
  | error e => rfl
  | ok a => exact hnext a

theorem readToken_moved (accept : TokenKind → Bool) (expected : Expected) (stop : Nat)
    (tokens : List Token) :
    readToken accept expected (f stop) (tokens.map (Token.moved f)) =
      relocated f (Prod.map (Token.moved f) (List.map (Token.moved f)))
        (readToken accept expected stop tokens) := by
  cases tokens with
  | nil => rfl
  | cons t tokens =>
    rw [List.map_cons, readToken, readToken]
    show (if accept t.kind then _ else _) = _
    split_ifs
    · rfl
    · rfl

theorem readParam_moved (stop : Nat) (tokens : List Token) :
    readParam (f stop) (tokens.map (Token.moved f)) =
      relocated f (Prod.map (Prod.map (Token.moved f) (Token.moved f)) (List.map (Token.moved f)))
        (readParam stop tokens) := by
  unfold readParam
  refine relocated_bind (readToken_moved _ _ stop tokens) ?_
  rintro ⟨name, tokens⟩
  refine relocated_bind (readToken_moved _ _ stop tokens) ?_
  rintro ⟨equals, tokens⟩
  refine relocated_bind (readToken_moved _ _ stop tokens) ?_
  rintro ⟨value, tokens⟩
  rfl

theorem readParam_moved_ok {stop : Nat} {tokens rest : List Token} {name value : Token}
    (h : readParam stop tokens = .ok ((name, value), rest)) :
    readParam (f stop) (tokens.map (Token.moved f)) =
      .ok ((name.moved f, value.moved f), rest.map (Token.moved f)) := by
  rw [readParam_moved, h]
  rfl

theorem readArgument_moved (stop : Nat) (tokens : List Token) :
    readArgument (f stop) (tokens.map (Token.moved f)) =
      relocated f (Prod.map id (List.map (Token.moved f))) (readArgument stop tokens) := by
  cases tokens with
  | nil => rfl
  | cons opening tokens =>
    rw [List.map_cons, readArgument, readArgument, readToken_moved]
    show (if opening.kind = .parenOpen then _ else _) = _
    split_ifs with hopening
    · cases readToken TokenKind.isValue .argument stop tokens with
      | error e => rfl
      | ok read =>
        obtain ⟨value, rest⟩ := read
        cases rest with
        | nil => rfl
        | cons closing rest =>
          show (if closing.kind = .parenClose then _ else _) =
            relocated f _ (if closing.kind = .parenClose then _ else _)
          split_ifs
          · rfl
          · rfl
    · rfl

theorem readParams_eq (stop opening : Nat) (seen : Params) (tokens : List Token) :
    readParams stop opening seen tokens =
      (readParam stop tokens >>= fun ((name, value), rest) =>
        if seen.contains name.text then .error (.malformed name.position (.duplicate name.text))
        else
          match rest with
          | [] => .error (.malformed opening (.unclosed '['))
          | separator :: rest =>
            match separator.kind with
            | .comma => readParams stop opening (seen.insert name.text value.text) rest
            | .bracketClose => .ok (seen.insert name.text value.text, rest)
            | _ => .error (unexpected .commaOrBracket separator)) := by
  rw [readParams]
  split
  · rename_i e hread
    rw [hread]
    rfl
  · rename_i name value rest hread
    conv_rhs => rw [hread]
    cases rest with
    | nil => rfl
    | cons separator rest => rfl

theorem readParams_moved (stop opening : Nat) (seen : Params) (tokens : List Token) :
    readParams (f stop) (f opening) seen (tokens.map (Token.moved f)) =
      relocated f (Prod.map id (List.map (Token.moved f)))
        (readParams stop opening seen tokens) := by
  fun_induction readParams stop opening seen tokens with
  | case1 seen tokens e hread =>
    rw [readParams_eq, readParam_moved, hread]
    rfl
  | case2 seen tokens name value rest hread hseen =>
    rw [readParams_eq, readParam_moved, hread]
    exact if_pos hseen
  | case3 seen tokens name value hnew hread =>
    rw [readParams_eq, readParam_moved, hread]
    exact if_neg hnew
  | case4 seen tokens name value hnew separator rest hread hcomma _ ih =>
    have hcomma : (separator.moved f).kind = .comma := hcomma
    rw [readParams_of_readParam (readParam_moved_ok hread) hnew, hcomma]
    exact ih
  | case5 seen tokens name value hnew separator rest hread hclose =>
    have hclose : (separator.moved f).kind = .bracketClose := hclose
    rw [readParams_of_readParam (readParam_moved_ok hread) hnew, hclose]
    rfl
  | case6 seen tokens name value hnew separator rest hread hcomma hclose =>
    rw [readParams_of_readParam (readParam_moved_ok hread) hnew]
    split
    · exact absurd ‹_› hcomma
    · exact absurd ‹_› hclose
    · rfl

theorem readRefinements_cons (stop : Nat) (colon : Token) (tokens : List Token) :
    readRefinements stop (colon :: tokens) =
      if colon.kind = .colon then do
        let (name, tokens) ← readToken (· == .name) .refinementName stop tokens
        let (argument, tokens) ← readArgument stop tokens
        (readRefinements stop tokens).map (⟨name.text, argument⟩ :: ·)
      else .error (unexpected .colonOrEnd colon) := by
  rw [readRefinements]
  split_ifs
  · split
    · rename_i e hname
      rw [hname]
      rfl
    · rename_i name rest hname
      rw [hname]
      show _ = (readArgument stop rest >>= fun (argument, tokens) =>
        (readRefinements stop tokens).map (⟨name.text, argument⟩ :: ·))
      split
      · rename_i e hargument
        rw [hargument]
        rfl
      · rename_i argument rest' hargument
        rw [hargument]
        rfl
  · rfl

theorem readRefinements_moved (stop : Nat) (tokens : List Token) :
    readRefinements (f stop) (tokens.map (Token.moved f)) =
      relocated f id (readRefinements stop tokens) := by
  fun_induction readRefinements stop tokens with
  | case1 =>
    rw [List.map_nil, readRefinements]
    rfl
  | case2 colon rest hcolon e hname =>
    rw [List.map_cons, readRefinements_cons, readToken_moved, hname]
    exact if_pos hcolon
  | case3 colon rest hcolon name rest' hname e hargument =>
    rw [List.map_cons, readRefinements_cons, readToken_moved, hname]
    refine (if_pos hcolon).trans ?_
    show (readArgument (f stop) (rest'.map (Token.moved f)) >>= _) = _
    rw [readArgument_moved, hargument]
    rfl
  | case4 colon rest hcolon name rest' hname argument rest'' hargument ih =>
    rw [List.map_cons, readRefinements_cons, readToken_moved, hname]
    refine (if_pos hcolon).trans ?_
    show (readArgument (f stop) (rest'.map (Token.moved f)) >>= _) = _
    rw [readArgument_moved, hargument]
    show (readRefinements (f stop) (rest''.map (Token.moved f))).map _ = _
    rw [ih]
    cases readRefinements stop rest'' with
    | error e => rfl
    | ok rs => rfl
  | case5 colon rest hcolon =>
    rw [List.map_cons, readRefinements_cons]
    exact if_neg hcolon

theorem readParamBlock_moved (stop : Nat) (tokens : List Token) :
    readParamBlock (f stop) (tokens.map (Token.moved f)) =
      relocated f (Prod.map id (List.map (Token.moved f))) (readParamBlock stop tokens) := by
  cases tokens with
  | nil => rfl
  | cons t tokens =>
    rw [List.map_cons, readParamBlock, readParamBlock]
    show (if t.kind = .bracketOpen then _ else _) = _
    split_ifs
    · exact readParams_moved stop t.position .empty tokens
    · rfl

theorem readDescend_moved (tokens : List Token) :
    readDescend (tokens.map (Token.moved f)) =
      Prod.map id (List.map (Token.moved f)) (readDescend tokens) := by
  cases tokens with
  | nil => rfl
  | cons t tokens =>
    rw [List.map_cons, readDescend, readDescend]
    show (if t.kind = .greaterThan then _ else _) = _
    split_ifs
    · rfl
    · rfl

/-- Tokens that stand elsewhere are read as the same selector, or refused for the same reason. -/
theorem ofSolidTokens_moved (stop : Nat) (tokens : List Token) :
    ofSolidTokens (f stop) (tokens.map (Token.moved f)) =
      relocated f id (ofSolidTokens stop tokens) := by
  cases tokens with
  | nil => rfl
  | cons t tokens =>
    unfold ofSolidTokens
    rw [readDescend_moved]
    obtain ⟨descend, tokens⟩ := readDescend (t :: tokens)
    refine relocated_bind (readToken_moved _ _ stop tokens) ?_
    rintro ⟨kind, tokens⟩
    refine relocated_bind (readParamBlock_moved stop tokens) ?_
    rintro ⟨params, tokens⟩
    refine relocated_bind (readRefinements_moved stop tokens) ?_
    intro refinements
    rfl

end Selector

end TreeQuery
