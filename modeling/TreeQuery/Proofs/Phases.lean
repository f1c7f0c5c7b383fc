import TreeQuery.Proofs.Grammar

/-!
# Beginnings of sentences

Which words can be the beginning of a sentence of the grammar of selectors. A sentence is read
word by word; what may follow depends on the phase that the reading is in, and on nothing else.

* `Viable`: some words behind these make up a sentence.
* `Phase`, `Phase.next`: the phases of reading, and which kinds of words lead from one to another.
  `Phase.asked` lists these kinds.
* `Phase.Rest`: in terms of the grammar, what may follow in a phase. `rest_of_next` is the step of
  the proof that a reading of words is one of a sentence.
* `sentence_iff_run`: the words of a sentence lead to a phase in which it may end.
* `viable_iff_run`: words are the beginning of a sentence iff they lead to some phase.
-/

namespace TreeQuery.Grammar

/-- The words are the beginning of a sentence, or all of it. -/
def Viable (ws : List Word) : Prop :=
  ∃ more m, Sentence (ws ++ more) m

/-- The words are the beginning of a sentence, and more words are needed. -/
def Unfinished (ws : List Word) : Prop :=
  Viable ws ∧ ¬ ∃ m, Sentence ws m

/-- What the grammar asks for next. -/
inductive Phase where
  /-- The mark or the kind. -/
  | start
  /-- The kind. -/
  | kind
  /-- Parameters, refinements or the end. -/
  | block
  | paramName
  | equalsSign
  | paramValue
  /-- Another parameter, or the end of the parameters. -/
  | separator
  /-- Refinements or the end. -/
  | refinements
  | refinementName
  /-- An argument, another refinement or the end. -/
  | opening
  | argument
  | closing
  deriving DecidableEq, Repr

namespace Phase

/-- The phase after a word of some kind, if it may follow. -/
def next : Phase → TokenKind → Option Phase
  | start, .greaterThan => some kind
  | start, .name => some block
  | kind, .name => some block
  | block, .bracketOpen => some paramName
  | block, .colon => some refinementName
  | paramName, .name => some equalsSign
  | equalsSign, .equals => some paramValue
  | paramValue, found => if found.isValue then some separator else none
  | separator, .comma => some paramName
  | separator, .bracketClose => some refinements
  | refinements, .colon => some refinementName
  | refinementName, .name => some opening
  | opening, .parenOpen => some argument
  | opening, .colon => some refinementName
  | argument, found => if found.isValue then some closing else none
  | closing, .parenClose => some refinements
  | _, _ => none

/-- May a sentence end here? -/
def final : Phase → Bool
  | block | refinements | opening => true
  | _ => false

/-- The phase after some words, if they may follow. -/
def run (q : Phase) : List Word → Option Phase
  | [] => some q
  | w :: ws => (q.next w.1).bind fun q => q.run ws

theorem run_append (q : Phase) (ws vs : List Word) :
    q.run (ws ++ vs) = (q.run ws).bind fun q => q.run vs := by
  induction ws generalizing q with
  | nil => rfl
  | cons w ws ih =>
    rw [List.cons_append, run, run, Option.bind_assoc]
    exact congrArg _ (funext ih)

theorem run_append_of_eq {q q' : Phase} {ws : List Word} (h : q.run ws = some q')
    (vs : List Word) : q.run (ws ++ vs) = q'.run vs := by
  rw [run_append, h, Option.bind_some]

/-- The kinds of words that may follow. -/
def asked : Phase → List TokenKind
  | start => [.greaterThan, .name]
  | kind | paramName | refinementName => [.name]
  | block => [.bracketOpen, .colon]
  | equalsSign => [.equals]
  | paramValue | argument => [.name, .number, .quoted]
  | separator => [.comma, .bracketClose]
  | refinements => [.colon]
  | opening => [.parenOpen, .colon]
  | closing => [.parenClose]

theorem next_of_not_mem_asked {q : Phase} {found : TokenKind} (h : found ∉ q.asked) :
    q.next found = none := by
  cases q <;> cases found <;> simp_all [asked, next, TokenKind.isValue]

/-- Where a sentence may end, it may also go on with a refinement. -/
theorem next_colon_of_final {q : Phase} (h : q.final) : q.next .colon = some refinementName := by
  cases q with
  | block => rfl
  | refinements => rfl
  | opening => rfl
  | _ => cases h

end Phase

open Phase

/-! ## Sentences are read to their end -/

theorem Param.run {ws : List Word} {p : String × String} (h : Param ws p) :
    paramName.run ws = some separator := by
  obtain ⟨key, equals, value, hv⟩ := h
  simp [Phase.run, next, isValue_iff.2 hv]

theorem ParamList.run {ws : List Word} {ps : List (String × String)} (h : ParamList ws ps) :
    paramName.run ws = some separator := by
  induction h with
  | one hp => exact hp.run
  | more comma hp hps ih =>
    rw [run_append_of_eq hp.run]
    exact ih

theorem ParamBlock.run {ws : List Word} {ps : List (String × String)} (h : ParamBlock ws ps) :
    ∃ q, block.run ws = some q ∧ q.final := by
  cases h with
  | absent => exact ⟨block, rfl, rfl⟩
  | present opening closing h =>
    refine ⟨refinements, ?_, rfl⟩
    show paramName.run _ = _
    rw [run_append_of_eq h.run]
    rfl

theorem Narrowing.run {ws : List Word} {r : Refinement} (h : Narrowing ws r) :
    ∃ q, refinementName.run ws = some q ∧ q.final := by
  cases h with
  | plain name => exact ⟨opening, rfl, rfl⟩
  | withArgument name opening value closing hv =>
    exact ⟨refinements, by simp [Phase.run, next, isValue_iff.2 hv], rfl⟩

theorem Narrowings.run {ws : List Word} {rs : List Refinement} (h : Narrowings ws rs) {q : Phase}
    (hq : q.final) : ∃ q', q.run ws = some q' ∧ q'.final := by
  induction h generalizing q with
  | nil => exact ⟨q, rfl, hq⟩
  | cons colon hr hrs ih =>
    obtain ⟨q', hr, hq'⟩ := hr.run
    rw [Phase.run, next_colon_of_final hq, Option.bind_some, run_append_of_eq hr]
    exact ih hq'

theorem Sentence.run {ws : List Word} {m : Meaning} (h : Sentence ws m) :
    ∃ q, start.run ws = some q ∧ q.final := by
  cases h with
  | intro kind hm hp hr =>
    obtain ⟨q, hp, hq⟩ := hp.run
    have hrest := hr.run hq
    rw [← run_append_of_eq hp] at hrest
    cases hm with
    | absent => exact hrest
    | present text => exact hrest

/-! ## What is read is a sentence -/

/-- Refinements. -/
def Refined (ws : List Word) : Prop :=
  ∃ rs, Narrowings ws rs

/-- Parameters, the bracket that closes them, and refinements. -/
def InBlock (ws : List Word) : Prop :=
  ∃ us closing vs ps, ws = us ++ (.bracketClose, closing) :: vs ∧ ParamList us ps ∧ Refined vs

/-- What follows the kind. -/
def BehindKind (ws : List Word) : Prop :=
  ∃ us vs ps, ws = us ++ vs ∧ ParamBlock us ps ∧ Refined vs

/-- What may follow in a phase, up to the end of the sentence. In the middle of a phrase, it is said
    by what the phrase starts with. -/
def Phase.Rest (q : Phase) (ws : List Word) : Prop :=
  match q with
  | start => ∃ m, Sentence ws m
  | kind => ∃ kind vs, ws = (.name, kind) :: vs ∧ BehindKind vs
  | block => BehindKind ws
  | paramName => InBlock ws
  | equalsSign => ∀ key, InBlock ((.name, key) :: ws)
  | paramValue => ∀ key equals, InBlock ((.name, key) :: (.equals, equals) :: ws)
  | separator => ∀ us p, Param us p → InBlock (us ++ ws)
  | refinements => Refined ws
  | refinementName => ∀ colon, Refined ((.colon, colon) :: ws)
  | opening => ∀ colon name, Refined ((.colon, colon) :: (.name, name) :: ws)
  | argument => ∀ colon name opening,
      Refined ((.colon, colon) :: (.name, name) :: (.parenOpen, opening) :: ws)
  | closing => ∀ colon name opening kind value, IsValue kind →
      Refined ((.colon, colon) :: (.name, name) :: (.parenOpen, opening) :: (kind, value) :: ws)

theorem BehindKind.of_refined {ws : List Word} (h : Refined ws) : BehindKind ws :=
  ⟨[], ws, [], rfl, .absent, h⟩

theorem sentence_of_behindKind {ms ws : List Word} {descend : Bool} (hm : Mark ms descend)
    (kind : String) (h : BehindKind ws) : ∃ m, Sentence (ms ++ (.name, kind) :: ws) m := by
  obtain ⟨us, vs, ps, rfl, hp, rs, hr⟩ := h
  exact ⟨_, .intro kind hm hp hr⟩

theorem rest_nil {q : Phase} (h : q.final) : q.Rest [] := by
  cases q with
  | block => exact .of_refined ⟨[], .nil⟩
  | refinements => exact ⟨[], .nil⟩
  | opening => exact fun colon name => ⟨_, .cons colon (.plain name) .nil⟩
  | _ => cases h

/-- A word that may follow stands in front of what may follow after it. -/
theorem rest_of_next {q q' : Phase} {kind : TokenKind} {text : String} {ws : List Word}
    (h : q.next kind = some q') (hws : q'.Rest ws) : q.Rest ((kind, text) :: ws) := by
  unfold next at h
  split at h
  -- the mark and the kind
  · cases h
    obtain ⟨kind, vs, rfl, hvs⟩ := hws
    exact sentence_of_behindKind (.present text) kind hvs
  · cases h
    exact sentence_of_behindKind .absent text hws
  · cases h
    exact ⟨text, ws, rfl, hws⟩
  · cases h
    obtain ⟨us, closing, vs, ps, rfl, hps, hvs⟩ := hws
    exact ⟨_, vs, ps, by simp, .present text closing hps, hvs⟩
  · cases h
    exact .of_refined (hws text)
  -- parameters
  · cases h
    exact hws text
  · cases h
    exact fun key => hws key text
  · split_ifs at h with hvalue
    cases h
    exact fun key equals => hws _ _ (.pair key equals text (isValue_iff.1 hvalue))
  · cases h
    obtain ⟨us, closing, vs, ps, rfl, hps, hvs⟩ := hws
    exact fun ts p hp => ⟨_, closing, vs, p :: ps, by simp, .more text hp hps, hvs⟩
  · cases h
    exact fun ts p hp => ⟨ts, text, ws, [p], rfl, .one hp, hws⟩
  -- refinements
  · cases h
    exact hws text
  · cases h
    exact fun colon => hws colon text
  · cases h
    exact fun colon name => hws colon name text
  · cases h
    obtain ⟨rs, hrs⟩ := hws text
    exact fun colon name => ⟨_, .cons colon (.plain name) hrs⟩
  · split_ifs at h with hvalue
    cases h
    exact fun colon name opening => hws colon name opening kind text (isValue_iff.1 hvalue)
  · cases h
    obtain ⟨rs, hrs⟩ := hws
    exact fun colon name opening kind value hvalue =>
      ⟨_, .cons colon (.withArgument name opening value text hvalue) hrs⟩
  · cases h

/-- Words that lead to a phase in which a sentence may end are what may follow. -/
theorem rest_of_run {q q' : Phase} {ws : List Word} (h : q.run ws = some q') (hq' : q'.final) :
    q.Rest ws := by
  induction ws generalizing q with
  | nil =>
    cases h
    exact rest_nil hq'
  | cons w ws ih =>
    obtain ⟨p, hp, hws⟩ := Option.bind_eq_some_iff.1 h
    exact rest_of_next hp (ih hws)

/-! ## Sentences and their beginnings -/

theorem sentence_iff_run {ws : List Word} :
    (∃ m, Sentence ws m) ↔ ∃ q, start.run ws = some q ∧ q.final := by
  constructor
  · rintro ⟨m, h⟩
    exact h.run
  · rintro ⟨q, h, hq⟩
    exact rest_of_run h hq

/-- From every phase a sentence can be brought to its end. -/
theorem exists_run_final (q : Phase) : ∃ ws q', q.run ws = some q' ∧ q'.final := by
  cases q with
  | start => exact ⟨[(.name, "")], block, rfl, rfl⟩
  | kind => exact ⟨[(.name, "")], block, rfl, rfl⟩
  | block => exact ⟨[], block, rfl, rfl⟩
  | paramName =>
    exact ⟨[(.name, ""), (.equals, ""), (.name, ""), (.bracketClose, "")], refinements, rfl, rfl⟩
  | equalsSign => exact ⟨[(.equals, ""), (.name, ""), (.bracketClose, "")], refinements, rfl, rfl⟩
  | paramValue => exact ⟨[(.name, ""), (.bracketClose, "")], refinements, rfl, rfl⟩
  | separator => exact ⟨[(.bracketClose, "")], refinements, rfl, rfl⟩
  | refinements => exact ⟨[], refinements, rfl, rfl⟩
  | refinementName => exact ⟨[(.name, "")], opening, rfl, rfl⟩
  | opening => exact ⟨[], opening, rfl, rfl⟩
  | argument => exact ⟨[(.name, ""), (.parenClose, "")], refinements, rfl, rfl⟩
  | closing => exact ⟨[(.parenClose, "")], refinements, rfl, rfl⟩

theorem viable_iff_run {ws : List Word} : Viable ws ↔ ∃ q, start.run ws = some q := by
  constructor
  · rintro ⟨more, m, h⟩
    obtain ⟨q, hrun, -⟩ := h.run
    rw [run_append] at hrun
    obtain ⟨q', hq', -⟩ := Option.bind_eq_some_iff.1 hrun
    exact ⟨q', hq'⟩
  · rintro ⟨q, h⟩
    obtain ⟨more, q', hmore, hq'⟩ := exists_run_final q
    rw [← run_append_of_eq h] at hmore
    obtain ⟨m, hm⟩ := sentence_iff_run.2 ⟨q', hmore, hq'⟩
    exact ⟨more, m, hm⟩

theorem unfinished_iff_run {ws : List Word} :
    Unfinished ws ↔ ∃ q, start.run ws = some q ∧ ¬ q.final := by
  rw [Unfinished, viable_iff_run, sentence_iff_run]
  constructor
  · rintro ⟨⟨q, h⟩, hnot⟩
    exact ⟨q, h, fun hq => hnot ⟨q, h, hq⟩⟩
  · rintro ⟨q, h, hq⟩
    refine ⟨⟨q, h⟩, ?_⟩
    rintro ⟨q', h', hq'⟩
    rw [h] at h'
    cases h'
    exact hq hq'

theorem not_viable_of_next {ws : List Word} {q : Phase} {w : Word} (h : start.run ws = some q)
    (hw : q.next w.1 = none) : ¬ Viable (ws ++ [w]) := by
  rw [viable_iff_run, run_append_of_eq h, run, hw]
  simp

end TreeQuery.Grammar
