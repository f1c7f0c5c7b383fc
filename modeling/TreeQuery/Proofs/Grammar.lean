import TreeQuery.Proofs.Params
import TreeQuery.Proofs.Result
import TreeQuery.Selector.Parser

/-!
# The grammar of selectors

The grammar of selectors as relations between tokens and what they say, and the proof that
`Selector.ofTokens` reads exactly the sentences of this grammar in which no parameter is given
twice. The grammar sees of a token its kind and its text; where it stands does not matter.

* `Sentence`: the grammar, without the condition on parameters.
* `Denotes`: the tokens are a sentence, its parameters are different, and a selector is what it
  says.
* `ofSolidTokens_eq_ok_iff`: tokens without blanks are read as a selector iff they denote it.
* `ofSolidTokens_malformed`: tokens that are no selector are refused as malformed.
* `ofTokens_reads_grammar`: both, for tokens with blanks between them.
-/

namespace TreeQuery

/-- What the grammar sees of a token: its kind and its text. -/
abbrev Word := TokenKind × String

/-- A token without its position. -/
def Token.word (t : Token) : Word :=
  (t.kind, t.text)

@[simp] theorem Token.word_eq_iff {t : Token} {kind : TokenKind} {text : String} :
    t.word = (kind, text) ↔ t.kind = kind ∧ t.text = text := by
  rw [Token.word, Prod.mk.injEq]

/-! ## Sentences -/

namespace Grammar

/-- `value := name | number | quoted` -/
def IsValue (kind : TokenKind) : Prop :=
  kind = .name ∨ kind = .number ∨ kind = .quoted

/-- `param := name "=" value` -/
inductive Param : List Word → String × String → Prop
  | pair {kind : TokenKind} (key equals value : String) (h : IsValue kind) :
      Param [(.name, key), (.equals, equals), (kind, value)] (key, value)

/-- `param { "," param }` -/
inductive ParamList : List Word → List (String × String) → Prop
  | one {ws : List Word} {p : String × String} (hp : Param ws p) : ParamList ws [p]
  | more {ws vs : List Word} {p : String × String} {ps : List (String × String)} (comma : String)
      (hp : Param ws p) (hps : ParamList vs ps) :
      ParamList (ws ++ (.comma, comma) :: vs) (p :: ps)

/-- `[ "[" param { "," param } "]" ]` -/
inductive ParamBlock : List Word → List (String × String) → Prop
  | absent : ParamBlock [] []
  | present {ws : List Word} {ps : List (String × String)} (opening closing : String)
      (h : ParamList ws ps) :
      ParamBlock ((.bracketOpen, opening) :: (ws ++ [(.bracketClose, closing)])) ps

/-- `refinement := name [ "(" value ")" ]` -/
inductive Narrowing : List Word → Refinement → Prop
  | plain (name : String) : Narrowing [(.name, name)] ⟨name, none⟩
  | withArgument {kind : TokenKind} (name opening value closing : String) (h : IsValue kind) :
      Narrowing [(.name, name), (.parenOpen, opening), (kind, value), (.parenClose, closing)]
        ⟨name, some value⟩

/-- `{ ":" refinement }` -/
inductive Narrowings : List Word → List Refinement → Prop
  | nil : Narrowings [] []
  | cons {ws vs : List Word} {r : Refinement} {rs : List Refinement} (colon : String)
      (hr : Narrowing ws r) (hrs : Narrowings vs rs) :
      Narrowings ((.colon, colon) :: (ws ++ vs)) (r :: rs)

/-- `[ ">" ]`: without the mark, the query descends. -/
inductive Mark : List Word → Bool → Prop
  | absent : Mark [] true
  | present (text : String) : Mark [(.greaterThan, text)] false

/-- What a sentence says, with its parameters in the order in which they are written. -/
structure Meaning where
  descend : Bool
  kind : String
  pairs : List (String × String)
  refinements : List Refinement

/-- `selector := [ ">" ] name [ "[" param { "," param } "]" ] { ":" refinement }` -/
inductive Sentence : List Word → Meaning → Prop
  | intro {ms ps rs : List Word} {descend : Bool} {pairs : List (String × String)}
      {refinements : List Refinement} (kind : String) (hm : Mark ms descend)
      (hp : ParamBlock ps pairs) (hr : Narrowings rs refinements) :
      Sentence (ms ++ (.name, kind) :: (ps ++ rs)) ⟨descend, kind, pairs, refinements⟩

/-- The words are a sentence in which no parameter is given twice, and the selector is what it
    says: the same kind, the same mark, the same refinements, and the map of its parameters. -/
def Denotes (words : List Word) (s : Selector) : Prop :=
  ∃ pairs, Sentence words ⟨s.descend, s.kind, pairs, s.refinements⟩ ∧ (pairs.map (·.1)).Nodup ∧
    ∀ k v, s.params.get? k = some v ↔ (k, v) ∈ pairs

theorem isValue_iff {kind : TokenKind} : kind.isValue ↔ IsValue kind := by
  cases kind <;> simp [TokenKind.isValue, IsValue]

/-- Refinements start with a colon, if there are any. -/
theorem Narrowings.head_ne {tokens : List Token} {rs : List Refinement} {kind : TokenKind}
    (h : Narrowings (tokens.map Token.word) rs) (hk : kind ≠ .colon) :
    ∀ t ∈ tokens.head?, t.kind ≠ kind := by
  generalize hws : tokens.map Token.word = ws at h
  cases h with
  | nil =>
    obtain rfl := List.map_eq_nil_iff.1 hws
    simp
  | cons colon hr hrs =>
    obtain ⟨t, tokens, rfl, ht, -⟩ := List.map_eq_cons_iff.1 hws
    obtain ⟨ht, -⟩ := Token.word_eq_iff.1 ht
    simpa [ht] using hk.symm

end Grammar

/-! ## What the readers accept -/

namespace Selector

open Grammar Result

theorem readToken_eq_ok_iff {accept : TokenKind → Bool} {expected : Expected} {stop : Nat}
    {tokens rest : List Token} {t : Token} :
    readToken accept expected stop tokens = .ok (t, rest) ↔
      tokens = t :: rest ∧ accept t.kind := by
  cases tokens with
  | nil => simp [readToken]
  | cons token tokens =>
    rw [readToken]
    split_ifs with h
    · simp only [Except.ok.injEq, Prod.mk.injEq, List.cons.injEq]
      constructor
      · rintro ⟨rfl, rfl⟩
        exact ⟨⟨rfl, rfl⟩, h⟩
      · exact And.left
    · simp only [List.cons.injEq, false_iff]
      rintro ⟨⟨rfl, -⟩, h'⟩
      exact h h'

theorem readParam_eq_ok_iff {stop : Nat} {tokens rest : List Token} {name value : Token} :
    readParam stop tokens = .ok ((name, value), rest) ↔
      ∃ equals, tokens = name :: equals :: value :: rest ∧ name.kind = .name ∧
        equals.kind = .equals ∧ value.kind.isValue := by
  unfold readParam
  simp only [bind_eq_ok_iff, Prod.exists, readToken_eq_ok_iff, pure, Except.pure,
    Except.ok.injEq, beq_iff_eq, Prod.mk.injEq]
  constructor
  · rintro ⟨_, _, ⟨rfl, hn⟩, equals, _, ⟨rfl, he⟩, _, _, ⟨rfl, hv⟩, ⟨rfl, rfl⟩, rfl⟩
    exact ⟨equals, rfl, hn, he, hv⟩
  · rintro ⟨equals, rfl, hn, he, hv⟩
    exact ⟨name, _, ⟨rfl, hn⟩, equals, _, ⟨rfl, he⟩, value, _, ⟨rfl, hv⟩, ⟨rfl, rfl⟩, rfl⟩

/-- An argument is read if there is an opening parenthesis, and only then. -/
theorem readArgument_eq_ok_iff {stop : Nat} {tokens rest : List Token} {a : Option String} :
    readArgument stop tokens = .ok (a, rest) ↔
      (a = none ∧ rest = tokens ∧ ∀ t ∈ tokens.head?, t.kind ≠ .parenOpen) ∨
      ∃ opening value closing, tokens = opening :: value :: closing :: rest ∧
        opening.kind = .parenOpen ∧ value.kind.isValue ∧ closing.kind = .parenClose ∧
        a = some value.text := by
  cases tokens with
  | nil =>
    simp only [readArgument, Except.ok.injEq, Prod.mk.injEq]
    constructor
    · rintro ⟨rfl, rfl⟩
      exact .inl ⟨rfl, rfl, by simp⟩
    · rintro (⟨rfl, rfl, -⟩ | ⟨_, _, _, heq, -⟩)
      · exact ⟨rfl, rfl⟩
      · cases heq
  | cons opening tokens =>
    rw [readArgument]
    split_ifs with ho
    · constructor
      · intro h
        right
        split at h
        · cases h
        · cases h
        · rename_i value closing rest' hread
          obtain ⟨rfl, hv⟩ := readToken_eq_ok_iff.1 hread
          split_ifs at h with hc
          simp only [Except.ok.injEq, Prod.mk.injEq] at h
          obtain ⟨rfl, rfl⟩ := h
          exact ⟨opening, value, closing, rfl, ho, hv, hc, rfl⟩
      · rintro (⟨-, -, h⟩ | ⟨_, value, closing, heq, -, hv, hc, rfl⟩)
        · exact absurd ho (h opening (by simp))
        · obtain ⟨rfl, rfl⟩ := List.cons.inj heq
          have hread : readToken TokenKind.isValue .argument stop (value :: closing :: rest) =
              .ok (value, closing :: rest) := readToken_eq_ok_iff.2 ⟨rfl, hv⟩
          simp [hread, hc]
    · simp only [Except.ok.injEq, Prod.mk.injEq]
      constructor
      · rintro ⟨rfl, rfl⟩
        exact .inl ⟨rfl, rfl, by simpa using ho⟩
      · rintro (⟨rfl, rfl, -⟩ | ⟨_, value, closing, heq, ho', -⟩)
        · exact ⟨rfl, rfl⟩
        · obtain ⟨rfl, -⟩ := List.cons.inj heq
          exact absurd ho' ho

/-! ## Parameters -/

theorem exists_equals_of_readParam {stop : Nat} {tokens rest : List Token} {name value : Token}
    (h : readParam stop tokens = .ok ((name, value), rest)) :
    ∃ equals, tokens = name :: equals :: value :: rest ∧
      Param ([name, equals, value].map Token.word) (name.text, value.text) := by
  obtain ⟨equals, rfl, hn, he, hv⟩ := readParam_eq_ok_iff.1 h
  refine ⟨equals, rfl, ?_⟩
  have hp := Param.pair name.text equals.text value.text (isValue_iff.1 hv)
  rwa [← hn, ← he] at hp

theorem param_of_readParam {stop : Nat} {tokens rest : List Token} {name value : Token}
    (h : readParam stop tokens = .ok ((name, value), rest)) :
    ∃ ts, tokens = ts ++ rest ∧ Param (ts.map Token.word) (name.text, value.text) := by
  obtain ⟨equals, rfl, hp⟩ := exists_equals_of_readParam h
  exact ⟨[name, equals, value], rfl, hp⟩

theorem readParam_of_param {stop : Nat} {ts rest : List Token} {p : String × String}
    (h : Param (ts.map Token.word) p) :
    ∃ name value, readParam stop (ts ++ rest) = .ok ((name, value), rest) ∧
      (name.text, value.text) = p := by
  generalize hws : ts.map Token.word = ws at h
  obtain ⟨key, equals, value, hv⟩ := h
  simp only [List.map_eq_cons_iff, List.map_eq_nil_iff, Token.word_eq_iff] at hws
  obtain ⟨n, _, rfl, ⟨hn, rfl⟩, e, _, rfl, ⟨he, -⟩, v, _, rfl, ⟨rfl, rfl⟩, rfl⟩ := hws
  exact ⟨n, v, readParam_eq_ok_iff.2 ⟨e, rfl, hn, he, isValue_iff.2 hv⟩, rfl⟩

theorem readParams_sound {stop opening : Nat} {seen p : Params} {tokens rest : List Token}
    (h : readParams stop opening seen tokens = .ok (p, rest)) :
    ∃ ts closing pairs, tokens = ts ++ closing :: rest ∧ closing.kind = .bracketClose ∧
      ParamList (ts.map Token.word) pairs ∧ Params.Grows seen pairs p := by
  fun_induction readParams stop opening seen tokens with
  | case1 => cases h
  | case2 => cases h
  | case3 => cases h
  | case4 seen tokens name value hnew separator rest' hread hcomma _ ih =>
    obtain ⟨ts, rfl, hp⟩ := param_of_readParam hread
    obtain ⟨us, closing, pairs, rfl, hc, hps, hgrows⟩ := ih h
    refine ⟨ts ++ separator :: us, closing, (name.text, value.text) :: pairs, by simp, hc, ?_,
      hnew, hgrows⟩
    have hlist := ParamList.more separator.text hp hps
    rw [← hcomma] at hlist
    rwa [List.map_append, List.map_cons]
  | case5 seen tokens name value hnew separator rest' hread hclose =>
    obtain ⟨ts, rfl, hp⟩ := param_of_readParam hread
    simp only [Except.ok.injEq, Prod.mk.injEq] at h
    obtain ⟨rfl, rfl⟩ := h
    exact ⟨ts, separator, [(name.text, value.text)], rfl, hclose, .one hp, hnew, rfl⟩
  | case6 => cases h

/-- The reading of parameters after one of them and the token behind it. -/
theorem readParams_of_readParam {stop opening : Nat} {seen : Params} {tokens rest : List Token}
    {name value separator : Token}
    (h : readParam stop tokens = .ok ((name, value), separator :: rest))
    (hnew : ¬ seen.contains name.text) :
    readParams stop opening seen tokens =
      match separator.kind with
      | .comma => readParams stop opening (seen.insert name.text value.text) rest
      | .bracketClose => .ok (seen.insert name.text value.text, rest)
      | _ => .error (unexpected .commaOrBracket separator) := by
  rw [readParams]
  split
  · rename_i e he
    rw [h] at he
    cases he
  · rename_i name' value' rest' he
    rw [h] at he
    cases he
    exact if_neg hnew

theorem readParams_complete {stop opening : Nat} {seen p : Params} {ts rest : List Token}
    {closing : Token} {pairs : List (String × String)}
    (h : ParamList (ts.map Token.word) pairs) (hc : closing.kind = .bracketClose)
    (hgrows : Params.Grows seen pairs p) :
    readParams stop opening seen (ts ++ closing :: rest) = .ok (p, rest) := by
  generalize hws : ts.map Token.word = ws at h
  induction h generalizing seen ts with
  | one hp =>
    subst hws
    obtain ⟨hnew, rfl⟩ := hgrows
    obtain ⟨name, value, hread, rfl⟩ := readParam_of_param hp
    rw [readParams_of_readParam hread hnew, hc]
  | more comma hp hps ih =>
    obtain ⟨ts, us, rfl, rfl, hus⟩ := List.map_eq_append_iff.1 hws
    obtain ⟨separator, us, rfl, hsep, hus⟩ := List.map_eq_cons_iff.1 hus
    obtain ⟨hcomma, -⟩ := Token.word_eq_iff.1 hsep
    obtain ⟨hnew, hgrows⟩ := hgrows
    rw [List.append_assoc, List.cons_append]
    obtain ⟨name, value, hread, rfl⟩ := readParam_of_param hp
    rw [readParams_of_readParam hread hnew, hcomma]
    exact ih hgrows hus

/-- The parameters in brackets, if there are any, in front of something that is no bracket. -/
theorem readParamBlock_sound {stop : Nat} {p : Params} {tokens rest : List Token}
    (h : readParamBlock stop tokens = .ok (p, rest)) :
    ∃ ts pairs, tokens = ts ++ rest ∧ ParamBlock (ts.map Token.word) pairs ∧
      Params.Grows .empty pairs p := by
  cases tokens with
  | nil =>
    simp only [readParamBlock, Except.ok.injEq, Prod.mk.injEq] at h
    obtain ⟨rfl, rfl⟩ := h
    exact ⟨[], [], rfl, .absent, rfl⟩
  | cons opening tokens =>
    rw [readParamBlock] at h
    split_ifs at h with ho
    · obtain ⟨ts, closing, pairs, rfl, hc, hps, hgrows⟩ := readParams_sound h
      refine ⟨opening :: (ts ++ [closing]), pairs, by simp, ?_, hgrows⟩
      have hblock := ParamBlock.present opening.text closing.text hps
      rw [← ho, ← hc] at hblock
      rwa [List.map_cons, List.map_append]
    · simp only [Except.ok.injEq, Prod.mk.injEq] at h
      obtain ⟨rfl, rfl⟩ := h
      exact ⟨[], [], rfl, .absent, rfl⟩

theorem readParamBlock_complete {stop : Nat} {p : Params} {ts rest : List Token}
    {pairs : List (String × String)} (h : ParamBlock (ts.map Token.word) pairs)
    (hgrows : Params.Grows .empty pairs p) (hrest : ∀ t ∈ rest.head?, t.kind ≠ .bracketOpen) :
    readParamBlock stop (ts ++ rest) = .ok (p, rest) := by
  generalize hws : ts.map Token.word = ws at h
  cases h with
  | absent =>
    obtain rfl := List.map_eq_nil_iff.1 hws
    obtain rfl : p = .empty := hgrows
    cases rest with
    | nil => rfl
    | cons t rest =>
      have ht : t.kind ≠ .bracketOpen := hrest t (by simp)
      rw [List.nil_append, readParamBlock, if_neg ht]
  | present opening closing hps =>
    obtain ⟨o, ts, rfl, ho, hts⟩ := List.map_eq_cons_iff.1 hws
    obtain ⟨ts, cs, rfl, rfl, hcs⟩ := List.map_eq_append_iff.1 hts
    obtain ⟨c, _, rfl, hc, hnil⟩ := List.map_eq_cons_iff.1 hcs
    obtain rfl := List.map_eq_nil_iff.1 hnil
    rw [List.cons_append, readParamBlock, if_pos (Token.word_eq_iff.1 ho).1, List.append_assoc]
    exact readParams_complete hps (Token.word_eq_iff.1 hc).1 hgrows

/-! ## Refinements -/

theorem narrowing_of_readArgument {stop : Nat} {tokens rest : List Token} {name : Token}
    {a : Option String} (hn : name.kind = .name) (h : readArgument stop tokens = .ok (a, rest)) :
    ∃ ts, tokens = ts ++ rest ∧ Narrowing ((name :: ts).map Token.word) ⟨name.text, a⟩ := by
  rcases readArgument_eq_ok_iff.1 h with ⟨rfl, rfl, -⟩ |
    ⟨opening, value, closing, rfl, ho, hv, hc, rfl⟩
  · refine ⟨[], rfl, ?_⟩
    have hr := Narrowing.plain name.text
    rwa [← hn] at hr
  · refine ⟨[opening, value, closing], rfl, ?_⟩
    have hr := Narrowing.withArgument name.text opening.text value.text closing.text
      (isValue_iff.1 hv)
    rwa [← hn, ← ho, ← hc] at hr

theorem readArgument_of_narrowing {stop : Nat} {ts rest : List Token} {r : Refinement}
    (h : Narrowing (ts.map Token.word) r) (hrest : ∀ t ∈ rest.head?, t.kind ≠ .parenOpen) :
    ∃ name us, ts = name :: us ∧ name.kind = .name ∧ name.text = r.name ∧
      readArgument stop (us ++ rest) = .ok (r.argument, rest) := by
  generalize hws : ts.map Token.word = ws at h
  cases h with
  | plain name =>
    simp only [List.map_eq_cons_iff, List.map_eq_nil_iff, Token.word_eq_iff] at hws
    obtain ⟨n, _, rfl, ⟨hn, rfl⟩, rfl⟩ := hws
    exact ⟨n, [], rfl, hn, rfl, readArgument_eq_ok_iff.2 (.inl ⟨rfl, rfl, hrest⟩)⟩
  | withArgument name opening value closing hv =>
    simp only [List.map_eq_cons_iff, List.map_eq_nil_iff, Token.word_eq_iff] at hws
    obtain ⟨n, _, rfl, ⟨hn, rfl⟩, o, _, rfl, ⟨ho, -⟩, v, _, rfl, ⟨rfl, rfl⟩, c, _, rfl,
      ⟨hc, -⟩, rfl⟩ := hws
    exact ⟨n, [o, v, c], rfl, hn, rfl,
      readArgument_eq_ok_iff.2 (.inr ⟨o, v, c, rfl, ho, isValue_iff.2 hv, hc, rfl⟩)⟩

theorem readRefinements_sound {stop : Nat} {tokens : List Token} {rs : List Refinement}
    (h : readRefinements stop tokens = .ok rs) : Narrowings (tokens.map Token.word) rs := by
  fun_induction readRefinements stop tokens generalizing rs with
  | case1 =>
    cases h
    exact .nil
  | case2 => cases h
  | case3 => cases h
  | case4 colon tokens hcolon name rest hread argument rest' harg ih =>
    obtain ⟨rs, hrs, rfl⟩ := map_eq_ok_iff.1 h
    obtain ⟨rfl, hn⟩ := readToken_eq_ok_iff.1 hread
    rw [beq_iff_eq] at hn
    obtain ⟨ts, rfl, hr⟩ := narrowing_of_readArgument hn harg
    have hrs := Narrowings.cons colon.text hr (ih hrs)
    rw [← hcolon, ← List.map_append] at hrs
    exact hrs
  | case5 => cases h

/-- The reading of refinements after the colon, the name and the argument of one of them. -/
theorem readRefinements_of_readArgument {stop : Nat} {colon name : Token} {tokens rest : List Token}
    {a : Option String} (hc : colon.kind = .colon) (hn : name.kind = .name)
    (h : readArgument stop tokens = .ok (a, rest)) :
    readRefinements stop (colon :: name :: tokens) =
      (readRefinements stop rest).map (⟨name.text, a⟩ :: ·) := by
  have hread : readToken (· == .name) .refinementName stop (name :: tokens) = .ok (name, tokens) :=
    readToken_eq_ok_iff.2 ⟨rfl, beq_iff_eq.2 hn⟩
  rw [readRefinements, if_pos hc]
  split
  · rename_i e he
    rw [hread] at he
    cases he
  · rename_i name' rest' he
    rw [hread] at he
    cases he
    split
    · rename_i e ha
      rw [h] at ha
      cases ha
    · rename_i a' rest' ha
      rw [h] at ha
      cases ha
      rfl

theorem readRefinements_complete {stop : Nat} {tokens : List Token} {rs : List Refinement}
    (h : Narrowings (tokens.map Token.word) rs) : readRefinements stop tokens = .ok rs := by
  generalize hws : tokens.map Token.word = ws at h
  induction h generalizing tokens with
  | nil =>
    obtain rfl := List.map_eq_nil_iff.1 hws
    rw [readRefinements]
  | cons colon hr hrs ih =>
    obtain ⟨c, tokens, rfl, hc, hws⟩ := List.map_eq_cons_iff.1 hws
    obtain ⟨ts, us, rfl, rfl, rfl⟩ := List.map_eq_append_iff.1 hws
    -- what follows is another refinement or nothing, so that no argument is missed
    have hrest : ∀ t ∈ us.head?, t.kind ≠ .parenOpen := hrs.head_ne (by decide)
    obtain ⟨name, ts, rfl, hn, hname, harg⟩ := readArgument_of_narrowing hr hrest
    rw [List.cons_append, readRefinements_of_readArgument (Token.word_eq_iff.1 hc).1 hn harg,
      ih rfl, hname]
    rfl

/-! ## Selectors -/

theorem mark_of_readDescend {tokens rest : List Token} {descend : Bool}
    (h : readDescend tokens = (descend, rest)) :
    ∃ ts, tokens = ts ++ rest ∧ Mark (ts.map Token.word) descend := by
  cases tokens with
  | nil =>
    cases h
    exact ⟨[], rfl, .absent⟩
  | cons t tokens =>
    rw [readDescend] at h
    split_ifs at h with ht
    · cases h
      refine ⟨[t], rfl, ?_⟩
      have hm := Mark.present t.text
      rwa [← ht] at hm
    · cases h
      exact ⟨[], rfl, .absent⟩

theorem readDescend_of_mark {ts rest : List Token} {descend : Bool}
    (h : Mark (ts.map Token.word) descend) (hrest : ∀ t ∈ rest.head?, t.kind ≠ .greaterThan) :
    readDescend (ts ++ rest) = (descend, rest) := by
  generalize hws : ts.map Token.word = ws at h
  cases h with
  | absent =>
    obtain rfl := List.map_eq_nil_iff.1 hws
    cases rest with
    | nil => rfl
    | cons t rest =>
      have ht : t.kind ≠ .greaterThan := hrest t (by simp)
      rw [List.nil_append, readDescend, if_neg ht]
  | present text =>
    simp only [List.map_eq_cons_iff, List.map_eq_nil_iff, Token.word_eq_iff] at hws
    obtain ⟨t, _, rfl, ⟨ht, -⟩, rfl⟩ := hws
    rw [List.cons_append, readDescend, if_pos ht, List.nil_append]

/-- A selector is read phrase by phrase. -/
theorem ofSolidTokens_eq_ok_iff_phrases {stop : Nat} {tokens : List Token} {s : Selector} :
    ofSolidTokens stop tokens = .ok s ↔
      ∃ kind rest rest', readDescend tokens = (s.descend, kind :: rest) ∧ kind.kind = .name ∧
        kind.text = s.kind ∧ readParamBlock stop rest = .ok (s.params, rest') ∧
        readRefinements stop rest' = .ok s.refinements := by
  obtain ⟨k, params, descend, refinements⟩ := s
  cases tokens with
  | nil =>
    simp [ofSolidTokens, readDescend, throw, throwThe, MonadExceptOf.throw, bind, Except.bind]
  | cons t tokens =>
    unfold ofSolidTokens
    simp only [List.isEmpty_cons, Bool.false_eq_true, if_false, bind_eq_ok_iff, Prod.exists,
      readToken_eq_ok_iff, beq_iff_eq, pure, Except.pure, Except.ok.injEq, Selector.mk.injEq]
    constructor
    · rintro ⟨kind, rest, ⟨hmark, hk⟩, params, rest', hp, refinements, hr, rfl, rfl, rfl, rfl⟩
      exact ⟨kind, rest, rest', Prod.ext rfl hmark, hk, rfl, hp, hr⟩
    · rintro ⟨kind, rest, rest', hmark, hk, rfl, hp, hr⟩
      exact ⟨kind, rest, ⟨congrArg Prod.snd hmark, hk⟩, params, rest', hp, refinements, hr, rfl,
        rfl, congrArg Prod.fst hmark, rfl⟩

theorem ofSolidTokens_sound {stop : Nat} {tokens : List Token} {s : Selector}
    (h : ofSolidTokens stop tokens = .ok s) : Denotes (tokens.map Token.word) s := by
  obtain ⟨kind, rest, rest', hmark, hk, hkind, hp, hr⟩ := ofSolidTokens_eq_ok_iff_phrases.1 h
  obtain ⟨ms, rfl, hm⟩ := mark_of_readDescend hmark
  obtain ⟨ps, pairs, rfl, hps, hgrows⟩ := readParamBlock_sound hp
  obtain ⟨hd, hv⟩ := Params.grows_empty_iff.1 hgrows
  refine ⟨pairs, ?_, hd, hv⟩
  rw [List.map_append, List.map_cons, List.map_append, Token.word, hk, hkind]
  exact Sentence.intro s.kind hm hps (readRefinements_sound hr)

theorem ofSolidTokens_complete {stop : Nat} {tokens : List Token} {s : Selector}
    (h : Denotes (tokens.map Token.word) s) : ofSolidTokens stop tokens = .ok s := by
  obtain ⟨pairs, hsentence, hd, hv⟩ := h
  generalize hws : tokens.map Token.word = ws at hsentence
  cases hsentence with
  | intro _ hm hp hr =>
    obtain ⟨ms, rest, rfl, rfl, hrest⟩ := List.map_eq_append_iff.1 hws
    obtain ⟨kind, rest, rfl, hkind, hrest⟩ := List.map_eq_cons_iff.1 hrest
    obtain ⟨ps, rs, rfl, rfl, rfl⟩ := List.map_eq_append_iff.1 hrest
    obtain ⟨hk, hkind⟩ := Token.word_eq_iff.1 hkind
    have hrest : ∀ t ∈ rs.head?, t.kind ≠ .bracketOpen := hr.head_ne (by decide)
    refine ofSolidTokens_eq_ok_iff_phrases.2 ⟨kind, ps ++ rs, rs, ?_, hk, hkind, ?_, ?_⟩
    · exact readDescend_of_mark hm (by simp [hk])
    · exact readParamBlock_complete hp (Params.grows_empty_iff.2 ⟨hd, hv⟩) hrest
    · exact readRefinements_complete hr

/-- Tokens without blanks are read as a selector iff they denote it. -/
theorem ofSolidTokens_eq_ok_iff {stop : Nat} {tokens : List Token} {s : Selector} :
    ofSolidTokens stop tokens = .ok s ↔ Denotes (tokens.map Token.word) s :=
  ⟨ofSolidTokens_sound, ofSolidTokens_complete⟩

/-! ## Refusals -/

/-- The error says that tokens make up no selector. -/
def IsMalformed (e : SelectorError) : Prop :=
  ∃ position fault, e = .malformed position fault

theorem readToken_malformed {accept : TokenKind → Bool} {expected : Expected} {stop : Nat}
    {tokens : List Token} {e : SelectorError}
    (h : readToken accept expected stop tokens = .error e) : IsMalformed e := by
  cases tokens with
  | nil =>
    cases h
    exact ⟨_, _, rfl⟩
  | cons t tokens =>
    rw [readToken] at h
    split_ifs at h
    cases h
    exact ⟨_, _, rfl⟩

theorem readParam_malformed {stop : Nat} {tokens : List Token} {e : SelectorError}
    (h : readParam stop tokens = .error e) : IsMalformed e := by
  unfold readParam at h
  simp only [bind_eq_error_iff, Prod.exists, pure, Except.pure] at h
  rcases h with h | ⟨_, _, -, h | ⟨_, _, -, h | ⟨_, _, -, h⟩⟩⟩
  · exact readToken_malformed h
  · exact readToken_malformed h
  · exact readToken_malformed h
  · cases h

theorem readArgument_malformed {stop : Nat} {tokens : List Token} {e : SelectorError}
    (h : readArgument stop tokens = .error e) : IsMalformed e := by
  cases tokens with
  | nil => cases h
  | cons opening tokens =>
    rw [readArgument] at h
    split_ifs at h
    split at h
    · rename_i e' hread
      cases h
      exact readToken_malformed hread
    · cases h
      exact ⟨_, _, rfl⟩
    · split_ifs at h
      cases h
      exact ⟨_, _, rfl⟩

theorem readParams_malformed {stop opening : Nat} {seen : Params} {tokens : List Token}
    {e : SelectorError} (h : readParams stop opening seen tokens = .error e) : IsMalformed e := by
  fun_induction readParams stop opening seen tokens with
  | case1 seen tokens e' hread =>
    cases h
    exact readParam_malformed hread
  | case2 =>
    cases h
    exact ⟨_, _, rfl⟩
  | case3 =>
    cases h
    exact ⟨_, _, rfl⟩
  | case4 seen tokens name value hnew separator rest hread hcomma _ ih => exact ih h
  | case5 => cases h
  | case6 =>
    cases h
    exact ⟨_, _, rfl⟩

theorem readParamBlock_malformed {stop : Nat} {tokens : List Token} {e : SelectorError}
    (h : readParamBlock stop tokens = .error e) : IsMalformed e := by
  cases tokens with
  | nil => cases h
  | cons t tokens =>
    rw [readParamBlock] at h
    split_ifs at h
    exact readParams_malformed h

theorem readRefinements_malformed {stop : Nat} {tokens : List Token} {e : SelectorError}
    (h : readRefinements stop tokens = .error e) : IsMalformed e := by
  fun_induction readRefinements stop tokens with
  | case1 => cases h
  | case2 colon rest hcolon e' hread =>
    cases h
    exact readToken_malformed hread
  | case3 colon rest hcolon name rest' hread e' harg =>
    cases h
    exact readArgument_malformed harg
  | case4 colon rest hcolon name rest' hread argument rest'' harg ih =>
    exact ih (map_eq_error_iff.1 h)
  | case5 =>
    cases h
    exact ⟨_, _, rfl⟩

theorem ofSolidTokens_malformed {stop : Nat} {tokens : List Token} {e : SelectorError}
    (h : ofSolidTokens stop tokens = .error e) : IsMalformed e := by
  cases tokens with
  | nil =>
    cases h
    exact ⟨_, _, rfl⟩
  | cons t tokens =>
    unfold ofSolidTokens at h
    simp only [List.isEmpty_cons, Bool.false_eq_true, if_false, bind_eq_error_iff, Prod.exists,
      pure, Except.pure] at h
    rcases h with h | ⟨_, _, -, h | ⟨_, _, -, h | ⟨_, -, h⟩⟩⟩
    · exact readToken_malformed h
    · exact readParamBlock_malformed h
    · exact readRefinements_malformed h
    · cases h

/-! ## Tokens with blanks -/

/-- What the grammar sees of tokens: all of them but the blanks. -/
def solidWords (tokens : List Token) : List Word :=
  (tokens.filter fun t => t.kind != .blank).map Token.word

theorem ofTokens_eq_ok_iff {stop : Nat} {tokens : List Token} {s : Selector} :
    ofTokens stop tokens = .ok s ↔ Denotes (solidWords tokens) s := by
  rw [ofTokens, ofSolidTokens_eq_ok_iff, solidWords]

theorem solidWords_eq_filter (tokens : List Token) :
    solidWords tokens = (tokens.map Token.word).filter fun w => w.1 != .blank := by
  rw [solidWords, List.filter_map]
  rfl

/-- A text is read as a selector iff it can be cut into tokens that denote it. -/
theorem parse_eq_ok_iff {text : String} {s : Selector} :
    parse text = .ok s ↔
      ∃ tokens, scan Recognizer.standard text = .ok tokens ∧ Denotes (solidWords tokens) s := by
  simp only [parse, parseWith, tokenize, bind_eq_ok_iff, mapError_eq_ok_iff, ofTokens_eq_ok_iff]

/-- Tokens are read as a selector exactly if, without blanks, they are a sentence of the grammar
    with different parameters, and then as the selector that the sentence denotes. All others are
    refused as malformed. -/
theorem ofTokens_reads_grammar (stop : Nat) (tokens : List Token) :
    (∀ s, ofTokens stop tokens = .ok s ↔ Denotes (solidWords tokens) s) ∧
      ((∃ s, Denotes (solidWords tokens) s) ∨
        ∃ position fault, ofTokens stop tokens = .error (.malformed position fault)) := by
  refine ⟨fun s => ofTokens_eq_ok_iff, ?_⟩
  cases h : ofTokens stop tokens with
  | ok s => exact .inl ⟨s, ofTokens_eq_ok_iff.1 h⟩
  | error e =>
    obtain ⟨position, fault, rfl⟩ := ofSolidTokens_malformed h
    exact .inr ⟨position, fault, rfl⟩

end Selector

end TreeQuery
