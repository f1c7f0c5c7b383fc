import TreeQuery.Proofs.Phases

/-!
# Where selectors are refused

A text that can be cut into tokens and is no selector is refused at the place where it stops being
one. What a fault says is put in terms of the grammar alone.

* `Fault.AppliesTo`: what the faults say about tokens, and about the place they are reported at.
* `Blames`: what an error that is reported while tokens are read from some phase on says about
  these tokens. It has one lemma for each reader (`readToken_blames` to `readRefinements_blames`).
* `Blames.appliesTo`: what it says about the tokens as a whole.
* `parse_fault_applies`: the fault that is reported for a text applies to its tokens.
-/

namespace TreeQuery

open Grammar

/-- The tokens that are not blank. -/
def solidTokens (ts : List Token) : List Token :=
  ts.filter fun t => t.kind != .blank

/-! ## What faults say -/

namespace Grammar

/-- `{ param "," }` -/
inductive LeadingParams : List Word → List (String × String) → Prop
  | nil : LeadingParams [] []
  | cons {ws vs : List Word} {p : String × String} {ps : List (String × String)} (comma : String)
      (hp : Param ws p) (hps : LeadingParams vs ps) :
      LeadingParams (ws ++ (.comma, comma) :: vs) (p :: ps)

end Grammar

namespace Fault

/-- No token behind the bracket closes it. -/
def Unclosed (bracket : Char) (opening : Token) (behind : List Token) : Prop :=
  (bracket = '[' ∧ opening.kind = .bracketOpen ∧ ∀ t ∈ behind, t.kind ≠ .bracketClose) ∨
    (bracket = '(' ∧ opening.kind = .parenOpen ∧ ∀ t ∈ behind, t.kind ≠ .parenClose)

/-- The token `key` is the first name of a parameter that is the name of an earlier one too, among
    the parameters that are complete. -/
def Repeated (tokens : List Token) (key : Token) : Prop :=
  ∃ mark descend kind opening front pairs equals value behind,
    tokens = mark ++ kind :: opening :: (front ++ key :: equals :: value :: behind) ∧
    Mark (mark.map Token.word) descend ∧ kind.kind = .name ∧ opening.kind = .bracketOpen ∧
    LeadingParams (front.map Token.word) pairs ∧ (pairs.map (·.1)).Nodup ∧
    Param ([key, equals, value].map Token.word) (key.text, value.text) ∧
    key.text ∈ pairs.map (·.1)

/-- What a fault that is reported at `position` says about tokens without blanks, if the text has
    `stop` characters. -/
def AppliesTo (fault : Fault) (stop : Nat) (tokens : List Token) (position : Nat) : Prop :=
  match fault with
  | empty => tokens = [] ∧ position = 0
  | unexpected _ kind text =>
    ∃ before behind, tokens = before ++ ⟨kind, text, position⟩ :: behind ∧
      Viable (before.map Token.word) ∧ ¬ Viable (before.map Token.word ++ [(kind, text)])
  | ended _ => Unfinished (tokens.map Token.word) ∧ position = stop
  | unclosed bracket =>
    Unfinished (tokens.map Token.word) ∧
      ∃ before opening behind, tokens = before ++ opening :: behind ∧
        Unclosed bracket opening behind ∧ opening.position = position
  | duplicate name => ∃ key, Repeated tokens key ∧ key.text = name ∧ key.position = position

end Fault

/-! ## Errors of the readers -/

namespace Selector

open Result

theorem run_cons_of_kind {q q' : Phase} {t : Token} {kind : TokenKind} (ht : t.kind = kind)
    (h : q.next kind = some q') (tokens : List Token) :
    q.run ((t :: tokens).map Token.word) = q'.run (tokens.map Token.word) := by
  subst ht
  rw [List.map_cons, Phase.run, Token.word, h, Option.bind_some]

/-- What an error says about the tokens that were still to be read, from some phase on. -/
inductive Blames (stop : Nat) : Phase → List Token → SelectorError → Prop
  | stray {q : Phase} {t : Token} {tokens : List Token} (expected : Expected)
      (h : q.next t.kind = none) : Blames stop q (t :: tokens) (unexpected expected t)
  | ended {q : Phase} (expected : Expected) (h : ¬ q.final) : Blames stop q [] (ended stop expected)
  | unclosed {q q' : Phase} {bracket : Char} {opening : Token} {tokens : List Token}
      (h : Fault.Unclosed bracket opening tokens)
      (hrun : q.run ((opening :: tokens).map Token.word) = some q') (hq' : ¬ q'.final) :
      Blames stop q (opening :: tokens) (.malformed opening.position (.unclosed bracket))
  | later {q q' : Phase} {t : Token} {tokens : List Token} {e : SelectorError}
      (h : q.next t.kind = some q') (he : Blames stop q' tokens e) : Blames stop q (t :: tokens) e

theorem Blames.of_kind {stop : Nat} {q q' : Phase} {t : Token} {tokens : List Token}
    {e : SelectorError} {kind : TokenKind} (ht : t.kind = kind) (h : q.next kind = some q')
    (he : Blames stop q' tokens e) : Blames stop q (t :: tokens) e := by
  subst ht
  exact .later h he

theorem Blames.after {stop : Nat} {q q' : Phase} {ts tokens : List Token} {e : SelectorError}
    (h : q.run (ts.map Token.word) = some q') (he : Blames stop q' tokens e) :
    Blames stop q (ts ++ tokens) e := by
  induction ts generalizing q with
  | nil =>
    cases h
    exact he
  | cons t ts ih =>
    obtain ⟨p, hp, hts⟩ := Option.bind_eq_some_iff.1 h
    exact .later hp (ih hts)

/-- A reader blames the next token if the phase asks for no token that the reader refuses. -/
theorem readToken_blames_of_head {accept : TokenKind → Bool} {expected : Expected} {stop : Nat}
    {tokens : List Token} {e : SelectorError} {q : Phase}
    (h : readToken accept expected stop tokens = .error e) (hq : ¬ q.final)
    (haccept : ∀ t ∈ tokens.head?, t.kind ∈ q.asked → accept t.kind) : Blames stop q tokens e := by
  cases tokens with
  | nil =>
    cases h
    exact .ended expected hq
  | cons t tokens =>
    rw [readToken] at h
    split_ifs at h with ht
    cases h
    exact .stray expected (Phase.next_of_not_mem_asked fun hasked => ht (haccept t rfl hasked))

theorem readToken_blames {accept : TokenKind → Bool} {expected : Expected} {stop : Nat}
    {tokens : List Token} {e : SelectorError} {q : Phase}
    (h : readToken accept expected stop tokens = .error e) (hq : ¬ q.final)
    (haccept : ∀ kind ∈ q.asked, accept kind) : Blames stop q tokens e :=
  readToken_blames_of_head h hq fun t _ => haccept t.kind

theorem readParam_blames {stop : Nat} {tokens : List Token} {e : SelectorError}
    (h : readParam stop tokens = .error e) : Blames stop .paramName tokens e := by
  unfold readParam at h
  simp only [bind_eq_error_iff, Prod.exists, readToken_eq_ok_iff, beq_iff_eq, pure,
    Except.pure] at h
  rcases h with h | ⟨name, _, ⟨rfl, hname⟩, h | ⟨equals, _, ⟨rfl, hequals⟩, h | ⟨_, _, -, h⟩⟩⟩
  · exact readToken_blames h (by decide) (by decide)
  · exact .of_kind hname rfl (readToken_blames h (by decide) (by decide))
  · exact .of_kind hname rfl (.of_kind hequals rfl
      (readToken_blames h (by decide) (by decide)))
  · cases h

theorem readArgument_blames {stop : Nat} {tokens : List Token} {e : SelectorError}
    (h : readArgument stop tokens = .error e) : Blames stop .opening tokens e := by
  cases tokens with
  | nil => cases h
  | cons opening tokens =>
    rw [readArgument] at h
    split_ifs at h with hopening
    split at h
    · rename_i e' hread
      cases h
      exact .of_kind hopening rfl (readToken_blames hread (by decide) (by decide))
    · rename_i value hread
      cases h
      obtain ⟨rfl, hvalue⟩ := readToken_eq_ok_iff.1 hread
      have hrun : Phase.opening.run ([opening, value].map Token.word) = some .closing := by
        simp [Phase.run, Phase.next, Token.word, hopening, hvalue]
      refine .unclosed (.inr ⟨rfl, hopening, fun t ht hclose => ?_⟩) hrun (by decide)
      rw [List.mem_singleton.1 ht] at hclose
      rw [hclose] at hvalue
      cases hvalue
    · rename_i value closing rest hread
      obtain ⟨rfl, hvalue⟩ := readToken_eq_ok_iff.1 hread
      split_ifs at h with hclosing
      cases h
      have hnext : Phase.closing.next closing.kind = none :=
        Phase.next_of_not_mem_asked (mt List.mem_singleton.1 hclosing)
      exact .of_kind hopening rfl (.later (if_pos hvalue) (.stray _ hnext))

/-- In the phase a selector may end, and of the tokens that may follow only a colon can be next. -/
def MayEnd (q : Phase) (tokens : List Token) : Prop :=
  q.final ∧ ∀ t ∈ tokens.head?, t.kind ∈ q.asked → t.kind = .colon

theorem mayEnd_refinements (tokens : List Token) : MayEnd .refinements tokens :=
  ⟨rfl, fun _ _ => List.mem_singleton.1⟩

theorem mayEnd_of_head {q : Phase} {kind : TokenKind} {tokens : List Token} (hq : q.final)
    (hasked : q.asked = [kind, .colon]) (h : ∀ t ∈ tokens.head?, t.kind ≠ kind) :
    MayEnd q tokens := by
  refine ⟨hq, fun t ht hmem => ?_⟩
  rw [hasked] at hmem
  exact List.mem_singleton.1 (List.mem_of_ne_of_mem (h t ht) hmem)

/-- The phase after an argument, or after there is none. -/
theorem mayEnd_of_readArgument {stop : Nat} {tokens rest : List Token} {a : Option String}
    (h : readArgument stop tokens = .ok (a, rest)) :
    ∃ ts q, tokens = ts ++ rest ∧ Phase.opening.run (ts.map Token.word) = some q ∧
      MayEnd q rest := by
  rcases readArgument_eq_ok_iff.1 h with ⟨-, rfl, hhead⟩ |
    ⟨opening, value, closing, rfl, hopening, hvalue, hclosing, -⟩
  · exact ⟨[], .opening, rfl, rfl, mayEnd_of_head rfl rfl hhead⟩
  · refine ⟨[opening, value, closing], .refinements, rfl, ?_, mayEnd_refinements rest⟩
    simp [Phase.run, Phase.next, Token.word, hopening, hvalue, hclosing]

theorem readRefinements_blames {stop : Nat} {tokens : List Token} {e : SelectorError} {q : Phase}
    (hq : MayEnd q tokens) (h : readRefinements stop tokens = .error e) :
    Blames stop q tokens e := by
  fun_induction readRefinements stop tokens generalizing q with
  | case1 => cases h
  | case2 colon rest hcolon e' hread =>
    cases h
    exact .of_kind hcolon (Phase.next_colon_of_final hq.1)
      (readToken_blames hread (by decide) (by decide))
  | case3 colon rest hcolon name rest' hread e' hargument =>
    cases h
    obtain ⟨rfl, hname⟩ := readToken_eq_ok_iff.1 hread
    exact .of_kind hcolon (Phase.next_colon_of_final hq.1)
      (.of_kind (beq_iff_eq.1 hname) rfl (readArgument_blames hargument))
  | case4 colon rest hcolon name rest' hread argument rest'' hargument ih =>
    obtain ⟨rfl, hname⟩ := readToken_eq_ok_iff.1 hread
    obtain ⟨ts, q', rfl, hrun, hq'⟩ := mayEnd_of_readArgument hargument
    exact .of_kind hcolon (Phase.next_colon_of_final hq.1)
      (.of_kind (beq_iff_eq.1 hname) rfl (.after hrun (ih hq' (map_eq_error_iff.1 h))))
  | case5 colon rest hcolon =>
    cases h
    exact .stray _ (Phase.next_of_not_mem_asked fun hasked => hcolon (hq.2 colon rfl hasked))

/-! ## Errors among parameters -/

/-- The token `key` is the name of a complete parameter, and so is it of one in front of it or of
    one of those seen before. Those in front of it have new names. -/
def RepeatedAfter (seen : Params) (tokens : List Token) (key : Token) : Prop :=
  ∃ front pairs p equals value behind, tokens = front ++ key :: equals :: value :: behind ∧
    LeadingParams (front.map Token.word) pairs ∧ Params.Grows seen pairs p ∧
    Param ([key, equals, value].map Token.word) (key.text, value.text) ∧ p.contains key.text

/-- What an error says that is reported while parameters are read. -/
inductive BlamesParams (stop opening : Nat) (seen : Params) (tokens : List Token) :
    SelectorError → Prop
  | blames {e : SelectorError} (h : Blames stop .paramName tokens e) :
      BlamesParams stop opening seen tokens e
  | unclosed (h : Phase.paramName.run (tokens.map Token.word) = some .separator)
      (hclose : ∀ t ∈ tokens, t.kind ≠ .bracketClose) :
      BlamesParams stop opening seen tokens (.malformed opening (.unclosed '['))
  | repeated {key : Token} (h : RepeatedAfter seen tokens key) :
      BlamesParams stop opening seen tokens (.malformed key.position (.duplicate key.text))

theorem ne_bracketClose_of_param {ts : List Token} {p : String × String}
    (h : Param (ts.map Token.word) p) : ∀ t ∈ ts, t.kind ≠ .bracketClose := by
  have hwords : ∀ ws : List Word, Param ws p → ∀ w ∈ ws, w.1 ≠ .bracketClose := by
    rintro _ ⟨key, equals, value, hvalue⟩
    rcases hvalue with rfl | rfl | rfl <;> simp
  exact fun t ht => hwords _ h t.word (List.mem_map_of_mem ht)

/-- What an error among the parameters behind a comma says about all parameters. -/
theorem BlamesParams.after_comma {stop opening : Nat} {seen : Params} {ts tokens : List Token}
    {k v : String} {comma : Token} {e : SelectorError} (hnew : ¬ seen.contains k)
    (hp : Param (ts.map Token.word) (k, v)) (hcomma : comma.kind = .comma)
    (h : BlamesParams stop opening (seen.insert k v) tokens e) :
    BlamesParams stop opening seen (ts ++ comma :: tokens) e := by
  cases h with
  | blames h => exact .blames (.after hp.run (.of_kind hcomma rfl h))
  | unclosed h hclose =>
    refine .unclosed ?_ ?_
    · rw [List.map_append, Phase.run_append_of_eq hp.run, run_cons_of_kind hcomma rfl]
      exact h
    · rw [List.forall_mem_append, List.forall_mem_cons, hcomma]
      exact ⟨ne_bracketClose_of_param hp, by decide, hclose⟩
  | repeated h =>
    obtain ⟨front, pairs, p, equals, value, behind, rfl, hfront, hgrows, hparam, hkey⟩ := h
    refine .repeated ⟨ts ++ comma :: front, (k, v) :: pairs, p, equals, value, behind, by simp, ?_,
      ⟨hnew, hgrows⟩, hparam, hkey⟩
    have hlead := LeadingParams.cons comma.text hp hfront
    rw [← hcomma] at hlead
    rwa [List.map_append, List.map_cons]

theorem readParams_blames {stop opening : Nat} {seen : Params} {tokens : List Token}
    {e : SelectorError} (h : readParams stop opening seen tokens = .error e) :
    BlamesParams stop opening seen tokens e := by
  fun_induction readParams stop opening seen tokens with
  | case1 seen tokens e' hread =>
    cases h
    exact .blames (readParam_blames hread)
  | case2 seen tokens name value rest hread hseen =>
    cases h
    obtain ⟨equals, rfl, hp⟩ := exists_equals_of_readParam hread
    exact .repeated ⟨[], [], seen, equals, value, rest, rfl, .nil, rfl, hp, hseen⟩
  | case3 seen tokens name value hnew hread =>
    cases h
    obtain ⟨ts, rfl, hp⟩ := param_of_readParam hread
    rw [List.append_nil]
    exact .unclosed hp.run (ne_bracketClose_of_param hp)
  | case4 seen tokens name value hnew separator rest hread hcomma _ ih =>
    obtain ⟨ts, rfl, hp⟩ := param_of_readParam hread
    exact (ih h).after_comma hnew hp hcomma
  | case5 => cases h
  | case6 seen tokens name value hnew separator rest hread hcomma hclose =>
    cases h
    obtain ⟨ts, rfl, hp⟩ := param_of_readParam hread
    have hnext : Phase.separator.next separator.kind = none :=
      Phase.next_of_not_mem_asked (by simpa [Phase.asked] using ⟨hcomma, hclose⟩)
    exact .blames (.after hp.run (.stray _ hnext))

/-- The phase after the parameters, or after there are none. -/
theorem mayEnd_of_readParamBlock {stop : Nat} {tokens rest : List Token} {p : Params}
    (h : readParamBlock stop tokens = .ok (p, rest)) :
    ∃ ts q, tokens = ts ++ rest ∧ Phase.block.run (ts.map Token.word) = some q ∧
      MayEnd q rest := by
  cases tokens with
  | nil =>
    cases h
    exact ⟨[], .block, rfl, rfl, mayEnd_of_head rfl rfl (by simp)⟩
  | cons opening tokens =>
    rw [readParamBlock] at h
    split_ifs at h with hopening
    · obtain ⟨ts, closing, pairs, rfl, hclosing, hps, -⟩ := readParams_sound h
      refine ⟨opening :: (ts ++ [closing]), .refinements, by simp, ?_, mayEnd_refinements rest⟩
      rw [run_cons_of_kind hopening rfl, List.map_append, Phase.run_append_of_eq hps.run,
        run_cons_of_kind hclosing rfl]
      rfl
    · cases h
      exact ⟨[], .block, rfl, rfl, mayEnd_of_head rfl rfl (by simpa using hopening)⟩

/-- What an error says that is reported for the parameters behind a kind. -/
theorem readParamBlock_blames {stop : Nat} {tokens : List Token} {e : SelectorError}
    (h : readParamBlock stop tokens = .error e) :
    Blames stop .block tokens e ∨ ∃ opening rest key, tokens = opening :: rest ∧
      opening.kind = .bracketOpen ∧ RepeatedAfter .empty rest key ∧
      e = .malformed key.position (.duplicate key.text) := by
  cases tokens with
  | nil => cases h
  | cons opening tokens =>
    rw [readParamBlock] at h
    split_ifs at h with hopening
    cases readParams_blames h with
    | blames he => exact .inl (.of_kind hopening rfl he)
    | unclosed hparams hclose =>
      have hrun : Phase.block.run ((opening :: tokens).map Token.word) = some .separator :=
        (run_cons_of_kind hopening rfl tokens).trans hparams
      exact .inl (.unclosed (.inl ⟨rfl, hopening, hclose⟩) hrun (by decide))
    | repeated hkey => exact .inr ⟨opening, tokens, _, rfl, hopening, hkey, rfl⟩

/-! ## Errors of whole selectors -/

/-- What is said about the tokens from some place on is true of all tokens. -/
theorem Blames.appliesTo {stop : Nat} {q : Phase} {before tokens : List Token} {e : SelectorError}
    (h : Blames stop q tokens e) (hbefore : Phase.start.run (before.map Token.word) = some q) :
    ∃ position fault, e = .malformed position fault ∧
      fault.AppliesTo stop (before ++ tokens) position := by
  induction h generalizing before with
  | @stray q t tokens expected h =>
    refine ⟨t.position, _, rfl, before, tokens, rfl, viable_iff_run.2 ⟨q, hbefore⟩, ?_⟩
    exact not_viable_of_next hbefore h
  | ended expected h =>
    refine ⟨stop, _, rfl, unfinished_iff_run.2 ⟨_, ?_, h⟩, rfl⟩
    rwa [List.append_nil]
  | @unclosed q q' bracket opening tokens h hrun hq' =>
    refine ⟨opening.position, _, rfl, unfinished_iff_run.2 ⟨q', ?_, hq'⟩, before, opening, tokens,
      rfl, h, rfl⟩
    rw [List.map_append, Phase.run_append_of_eq hbefore, hrun]
  | @later q q' t tokens e h he ih =>
    have ht : Phase.start.run ((before ++ [t]).map Token.word) = some q' := by
      rw [List.map_append, Phase.run_append_of_eq hbefore, run_cons_of_kind rfl h]
      rfl
    obtain ⟨position, fault, he, happlies⟩ := ih ht
    rw [List.append_assoc] at happlies
    exact ⟨position, fault, he, happlies⟩

theorem repeated_of_repeatedAfter {mark rest : List Token} {kind opening key : Token}
    {descend : Bool} (hm : Mark (mark.map Token.word) descend) (hkind : kind.kind = .name)
    (hopening : opening.kind = .bracketOpen) (h : RepeatedAfter .empty rest key) :
    Fault.Repeated (mark ++ kind :: opening :: rest) key := by
  obtain ⟨front, pairs, p, equals, value, behind, rfl, hfront, hgrows, hparam, hkey⟩ := h
  obtain ⟨hnodup, hget⟩ := Params.grows_empty_iff.1 hgrows
  obtain ⟨v, hv⟩ := Params.contains_iff.1 hkey
  have hmem : key.text ∈ pairs.map (·.1) := List.mem_map.2 ⟨(key.text, v), (hget _ _).1 hv, rfl⟩
  exact ⟨mark, descend, kind, opening, front, pairs, equals, value, behind, rfl, hm, hkind,
    hopening, hfront, hnodup, hparam, hmem⟩

/-- The phase after the mark, or after there is none. -/
theorem phase_of_readDescend (t : Token) (tokens : List Token) :
    ∃ mark q, t :: tokens = mark ++ (readDescend (t :: tokens)).2 ∧
      Mark (mark.map Token.word) (readDescend (t :: tokens)).1 ∧
      Phase.start.run (mark.map Token.word) = some q ∧ q.next .name = some .block ∧ ¬ q.final ∧
      ∀ t' ∈ (readDescend (t :: tokens)).2.head?, t'.kind ∈ q.asked → t'.kind == .name := by
  rw [readDescend]
  split_ifs with ht
  · refine ⟨[t], .kind, rfl, ?_, run_cons_of_kind ht rfl [], rfl, by decide,
      fun _ _ hasked => beq_iff_eq.2 (List.mem_singleton.1 hasked)⟩
    have hm := Mark.present t.text
    rwa [← ht] at hm
  · refine ⟨[], .start, rfl, .absent, rfl, rfl, by decide, ?_⟩
    rintro _ ⟨⟩ hasked
    exact beq_iff_eq.2 (List.mem_singleton.1 (List.mem_of_ne_of_mem ht hasked))

/-- The fault that is reported for tokens without blanks applies to them. -/
theorem ofSolidTokens_appliesTo {stop : Nat} {tokens : List Token} {e : SelectorError}
    (h : ofSolidTokens stop tokens = .error e) :
    ∃ position fault, e = .malformed position fault ∧ fault.AppliesTo stop tokens position := by
  cases tokens with
  | nil =>
    cases h
    exact ⟨0, .empty, rfl, rfl, rfl⟩
  | cons t tokens =>
    unfold ofSolidTokens at h
    simp only [List.isEmpty_cons, Bool.false_eq_true, if_false, bind_eq_error_iff, Prod.exists,
      readToken_eq_ok_iff, beq_iff_eq, pure, Except.pure] at h
    obtain ⟨mark, q, hsplit, hm, hmark, hnext, hq, hhead⟩ := phase_of_readDescend t tokens
    rw [hsplit]
    rcases h with h | ⟨kind, rest, ⟨hrest, hkind⟩, h⟩
    · exact (readToken_blames_of_head h hq hhead).appliesTo hmark
    · rw [hrest]
      have hbefore : Phase.start.run ((mark ++ [kind]).map Token.word) = some .block := by
        rw [List.map_append, Phase.run_append_of_eq hmark, run_cons_of_kind hkind hnext]
        rfl
      rw [← List.singleton_append, ← List.append_assoc]
      rcases h with h | ⟨params, rest', hparams, h | ⟨_, -, h⟩⟩
      · rcases readParamBlock_blames h with he | ⟨opening, rest, key, rfl, hopening, hkey, rfl⟩
        · exact he.appliesTo hbefore
        · refine ⟨key.position, _, rfl, key, ?_, rfl, rfl⟩
          rw [List.append_assoc]
          exact repeated_of_repeatedAfter hm hkind hopening hkey
      · obtain ⟨ts, q', rfl, hrun, hq'⟩ := mayEnd_of_readParamBlock hparams
        exact (Blames.after hrun (readRefinements_blames hq' h)).appliesTo hbefore
      · cases h

/-! ## Errors of texts -/

theorem parse_of_scan {text : String} {tokens : List Token}
    (h : scan Recognizer.standard text = .ok tokens) :
    parse text = ofSolidTokens text.length (solidTokens tokens) := by
  rw [parse, parseWith, tokenize, h, String.length_toList]
  rfl

theorem solidTokens_eq_nil_iff {tokens : List Token} :
    solidTokens tokens = [] ↔ ∀ t ∈ tokens, t.kind = .blank := by
  simp [solidTokens]

/-- If a text can be cut into tokens and is no selector, the fault that is reported applies to its
    tokens. That there is nothing to read is reported exactly if there are no tokens but blanks. -/
theorem parse_fault_applies (text : String) (tokens : List Token)
    (h : scan Recognizer.standard text = .ok tokens) :
    (∀ e, parse text = .error e → ∃ position fault, e = .malformed position fault ∧
      fault.AppliesTo text.length (solidTokens tokens) position) ∧
    ((∃ position, parse text = .error (.malformed position .empty)) ↔
      ∀ t ∈ tokens, t.kind = .blank) := by
  rw [parse_of_scan h]
  refine ⟨fun e he => ofSolidTokens_appliesTo he, ?_, fun hblank => ⟨0, ?_⟩⟩
  · rintro ⟨position, he⟩
    obtain ⟨_, _, heq, happlies⟩ := ofSolidTokens_appliesTo he
    cases heq
    exact solidTokens_eq_nil_iff.1 happlies.1
  · rw [solidTokens_eq_nil_iff.2 hblank]
    rfl

/-- A repeated parameter is reported, once its value is read, and not the colon behind it that is
    out of place too. -/
theorem parse_fault_applies_repeated :
    let text := "a [x=1, y=2,x=3:"
    ∃ tokens, scan Recognizer.standard text = .ok tokens ∧
      parse text = .error (.malformed 12 (.duplicate "x")) ∧
      Fault.AppliesTo (.duplicate "x") 16 (solidTokens tokens) 12 := by
  intro text
  have hscan : scan Recognizer.standard text = .ok [⟨.name, "a", 0⟩, ⟨.blank, " ", 1⟩,
      ⟨.bracketOpen, "[", 2⟩, ⟨.name, "x", 3⟩, ⟨.equals, "=", 4⟩, ⟨.number, "1", 5⟩,
      ⟨.comma, ",", 6⟩, ⟨.blank, " ", 7⟩, ⟨.name, "y", 8⟩, ⟨.equals, "=", 9⟩, ⟨.number, "2", 10⟩,
      ⟨.comma, ",", 11⟩, ⟨.name, "x", 12⟩, ⟨.equals, "=", 13⟩, ⟨.number, "3", 14⟩,
      ⟨.colon, ":", 15⟩] := by decide +kernel
  have hparse : parse text = .error (.malformed 12 (.duplicate "x")) := by decide +kernel
  obtain ⟨position, fault, heq, happlies⟩ := (parse_fault_applies text _ hscan).1 _ hparse
  cases heq
  exact ⟨_, hscan, hparse, happlies⟩

end Selector

end TreeQuery
