import TreeQuery.Proofs.Grammar
import TreeQuery.Proofs.Lexing

/-!
# Selectors and their canonical texts

Which selectors are read back from their canonical text, and that every selector that is read
from any text is one of them.

* `IsIdentifier`: the texts that match `[A-Za-z_][A-Za-z0-9_-]*`.
* `Selector.WellNamed`: the kind, the parameters and the refinements of a selector have such
  names. The values may be any text.
* `parse_render_of_wellNamed`: such a selector is read back from its canonical text.
* `wellNamed_of_parse`: such selectors are all that is read from any text.

The first half cuts the canonical text into pieces that are read one after the other (`Reads`).
Each piece is read as a phrase of the grammar, whatever stands behind it, if only it does not
prolong the last lexeme of the piece (`Delimited`).
-/

namespace TreeQuery

/-! ## Identifiers -/

/-- `[A-Za-z_]` -/
def IsIdentifierStart (c : Char) : Prop :=
  ('A' ≤ c ∧ c ≤ 'Z') ∨ ('a' ≤ c ∧ c ≤ 'z') ∨ c = '_'

/-- `[A-Za-z0-9_-]` -/
def IsIdentifierChar (c : Char) : Prop :=
  IsIdentifierStart c ∨ ('0' ≤ c ∧ c ≤ '9') ∨ c = '-'

/-- `[A-Za-z_][A-Za-z0-9_-]*` -/
def IsIdentifier (s : String) : Prop :=
  ∃ c cs, s.toList = c :: cs ∧ IsIdentifierStart c ∧ ∀ d ∈ cs, IsIdentifierChar d

theorem isNameStart_iff {c : Char} : isNameStart c ↔ IsIdentifierStart c := by
  have hle : ∀ a b : Char, a ≤ b ↔ a.toNat ≤ b.toNat := fun a b => UInt32.le_iff_toNat_le
  rw [isNameStart_iff_toNat, IsIdentifierStart, hle, hle, hle, hle, ← Char.toNat_inj]
  rfl

theorem isNameChar_iff_identifierChar {c : Char} : isNameChar c ↔ IsIdentifierChar c := by
  have hle : ∀ a b : Char, a ≤ b ↔ a.toNat ≤ b.toNat := fun a b => UInt32.le_iff_toNat_le
  rw [isNameChar_iff, isNameStart_iff, isDigit_iff_toNat, IsIdentifierChar, hle, hle]
  rfl

theorem isName_iff_identifier {s : String} : isName s.toList ↔ IsIdentifier s := by
  rw [IsIdentifier]
  cases s.toList with
  | nil => simp [isName]
  | cons c cs =>
    rw [isName, Bool.and_eq_true, List.all_eq_true, List.forall_mem_cons, isNameStart_iff]
    constructor
    · rintro ⟨hc, -, hcs⟩
      exact ⟨c, cs, rfl, hc, fun d hd => isNameChar_iff_identifierChar.1 (hcs d hd)⟩
    · rintro ⟨_, _, heq, hc, hcs⟩
      obtain ⟨rfl, rfl⟩ := List.cons.inj heq
      exact ⟨hc, isNameChar_iff_identifierChar.2 (.inl hc),
        fun d hd => isNameChar_iff_identifierChar.2 (hcs d hd)⟩

/-- The names in a selector are identifiers. -/
def Selector.WellNamed (s : Selector) : Prop :=
  IsIdentifier s.kind ∧ (∀ key ∈ s.params.names, IsIdentifier key) ∧
    ∀ r ∈ s.refinements, IsIdentifier r.name

/-! ## The words of a sentence -/

namespace Grammar

theorem Param.name_mem {ws : List Word} {p : String × String} (h : Param ws p) :
    (.name, p.1) ∈ ws := by
  cases h
  simp

theorem ParamList.name_mem {ws : List Word} {ps : List (String × String)} (h : ParamList ws ps) :
    ∀ p ∈ ps, (.name, p.1) ∈ ws := by
  induction h with
  | one hp => simpa using hp.name_mem
  | more comma hp hps ih =>
    intro p hmem
    rcases List.mem_cons.1 hmem with rfl | hmem
    · exact List.mem_append_left _ hp.name_mem
    · exact List.mem_append_right _ (List.mem_cons_of_mem _ (ih p hmem))

theorem ParamBlock.name_mem {ws : List Word} {ps : List (String × String)}
    (h : ParamBlock ws ps) : ∀ p ∈ ps, (.name, p.1) ∈ ws := by
  cases h with
  | absent => simp
  | present opening closing h =>
    intro p hp
    exact List.mem_cons_of_mem _ (List.mem_append_left _ (h.name_mem p hp))

theorem Narrowing.name_mem {ws : List Word} {r : Refinement} (h : Narrowing ws r) :
    (.name, r.name) ∈ ws := by
  cases h <;> simp

theorem Narrowings.name_mem {ws : List Word} {rs : List Refinement} (h : Narrowings ws rs) :
    ∀ r ∈ rs, (.name, r.name) ∈ ws := by
  induction h with
  | nil => simp
  | cons colon hr hrs ih =>
    intro r hmem
    rcases List.mem_cons.1 hmem with rfl | hmem
    · exact List.mem_cons_of_mem _ (List.mem_append_left _ hr.name_mem)
    · exact List.mem_cons_of_mem _ (List.mem_append_right _ (ih r hmem))

/-- All names that a sentence speaks of are among its words. -/
theorem Sentence.name_mem {ws : List Word} {m : Meaning} (h : Sentence ws m) :
    (.name, m.kind) ∈ ws ∧ (∀ p ∈ m.pairs, (.name, p.1) ∈ ws) ∧
      ∀ r ∈ m.refinements, (.name, r.name) ∈ ws := by
  cases h with
  | intro kind hm hp hr =>
    refine ⟨by simp, fun p hmem => ?_, fun r hmem => ?_⟩
    · have := hp.name_mem p hmem
      simp [this]
    · have := hr.name_mem r hmem
      simp [this]

/-- There is no blank among the words. -/
def Solid (ws : List Word) : Prop :=
  ∀ w ∈ ws, w.1 ≠ .blank

theorem IsValue.ne_blank {kind : TokenKind} (h : IsValue kind) : kind ≠ .blank := by
  rcases h with rfl | rfl | rfl <;> decide

theorem Param.solid {ws : List Word} {p : String × String} (h : Param ws p) : Solid ws := by
  obtain ⟨key, equals, value, hv⟩ := h
  simp [Solid, hv.ne_blank]

theorem ParamList.solid {ws : List Word} {ps : List (String × String)} (h : ParamList ws ps) :
    Solid ws := by
  induction h with
  | one hp => exact hp.solid
  | more comma hp hps ih =>
    simp only [Solid, List.forall_mem_append, List.forall_mem_cons]
    exact ⟨hp.solid, by decide, ih⟩

theorem ParamBlock.solid {ws : List Word} {ps : List (String × String)} (h : ParamBlock ws ps) :
    Solid ws := by
  cases h with
  | absent => simp [Solid]
  | present opening closing h =>
    simp only [Solid, List.forall_mem_append, List.forall_mem_cons]
    exact ⟨by decide, h.solid, by decide, by simp⟩

theorem Narrowing.solid {ws : List Word} {r : Refinement} (h : Narrowing ws r) : Solid ws := by
  cases h with
  | plain name => simp [Solid]
  | withArgument name opening value closing hv => simp [Solid, hv.ne_blank]

theorem Narrowings.solid {ws : List Word} {rs : List Refinement} (h : Narrowings ws rs) :
    Solid ws := by
  induction h with
  | nil => simp [Solid]
  | cons colon hr hrs ih =>
    simp only [Solid, List.forall_mem_append, List.forall_mem_cons]
    exact ⟨by decide, hr.solid, ih⟩

theorem Sentence.solid {ws : List Word} {m : Meaning} (h : Sentence ws m) : Solid ws := by
  cases h with
  | intro kind hm hp hr =>
    simp only [Solid, List.forall_mem_append, List.forall_mem_cons]
    refine ⟨?_, by decide, hp.solid, hr.solid⟩
    cases hm <;> simp

end Grammar

/-- A token that is a name has an identifier as its text. -/
theorem scan_name_identifier {text : String} {ts : List Token}
    (h : scan Recognizer.standard text = .ok ts) {t : Token} (ht : t ∈ ts) (hk : t.kind = .name) :
    IsIdentifier t.text := by
  obtain ⟨r, hr, cs, l, hl, hkind, htext⟩ := mem_scanFrom h ht
  have hname : ∀ r ∈ Recognizer.standard, r.kind = .name → r = .name := by decide
  obtain rfl := hname r hr (by rw [← hkind, hk])
  rw [← isName_iff_identifier, htext, String.toList_ofList]
  exact Recognizer.lexeme?_name_isName hl

/-! ## Pieces of text and the words they are read as -/

/-- In front of `rest`, the characters `cs` are read as the words `ws`, wherever they stand. -/
def Reads (cs rest : List Char) (ws : List Word) : Prop :=
  ∀ position, ∃ ts, ts.map Token.word = ws ∧
    scanFrom Recognizer.standard position (cs ++ rest) =
      (scanFrom Recognizer.standard (position + cs.length) rest).map (ts ++ ·)

theorem Reads.nil (rest : List Char) : Reads [] rest [] := by
  intro position
  refine ⟨[], rfl, ?_⟩
  cases h : scanFrom Recognizer.standard position rest with
  | error e => simp [Except.map, h]
  | ok ts => simp [Except.map, h]

theorem Reads.append {cs cs' rest : List Char} {ws ws' : List Word} (h : Reads cs (cs' ++ rest) ws)
    (h' : Reads cs' rest ws') : Reads (cs ++ cs') rest (ws ++ ws') := by
  intro position
  obtain ⟨ts, rfl, hts⟩ := h position
  obtain ⟨ts', rfl, hts'⟩ := h' (position + cs.length)
  refine ⟨ts ++ ts', List.map_append, ?_⟩
  rw [List.append_assoc, hts, hts', List.length_append, Nat.add_assoc]
  cases scanFrom Recognizer.standard (position + (cs.length + cs'.length)) rest with
  | error e => rfl
  | ok us => simp [Except.map]

theorem Reads.lexeme {r : Recognizer} (hr : r ∈ Recognizer.standard) {cs rest text : List Char}
    (h : r.lexeme? (cs ++ rest) = some ⟨text, cs.length⟩) :
    Reads cs rest [(r.kind, String.ofList text)] := by
  intro position
  refine ⟨[⟨r.kind, String.ofList text, position⟩], rfl, ?_⟩
  rw [scanFrom_of_firstStep? (firstStep?_of_accepts (List.Subset.refl _) hr h), List.drop_left]
  rfl

theorem Reads.symbol {char : Char} {kind : TokenKind}
    (h : Recognizer.symbol char kind ∈ Recognizer.standard) (rest : List Char) :
    Reads [char] rest [(kind, String.ofList [char])] :=
  Reads.lexeme h Recognizer.lexeme?_symbol

theorem Reads.name {s : String} {rest : List Char} (h : IsIdentifier s) (hr : Delimited rest) :
    Reads s.toList rest [(.name, s)] := by
  have hname := Recognizer.lexeme?_name (isName_iff_identifier.2 h) hr
  have hreads := Reads.lexeme (by decide) hname
  rwa [String.ofList_toList] at hreads

/-- A value is read back from the way it is written, whatever kind of token that makes. -/
theorem Reads.value (v : String) {rest : List Char} (hr : Delimited rest) :
    ∃ kind, Grammar.IsValue kind ∧ Reads (Selector.valueChars v.toList) rest [(kind, v)] := by
  have hv : String.ofList v.toList = v := String.ofList_toList
  rw [← hv, String.toList_ofList, Selector.valueChars]
  split_ifs with h
  · rw [Bool.or_eq_true] at h
    rcases h with h | h
    · exact ⟨.name, .inl rfl, Reads.lexeme (by decide) (Recognizer.lexeme?_name h hr)⟩
    · exact ⟨.number, .inr (.inl rfl), Reads.lexeme (by decide) (Recognizer.lexeme?_number h hr)⟩
  · exact ⟨.quoted, .inr (.inr rfl), Reads.lexeme (by decide) (Recognizer.lexeme?_quoted _ rest)⟩

/-- Characters are read as the same words wherever they stand. -/
theorem scanFrom_words {chain : List Recognizer} {p : Nat} {cs : List Char} {ts : List Token}
    (h : scanFrom chain p cs = .ok ts) (q : Nat) :
    ∃ us, scanFrom chain q cs = .ok us ∧ us.map Token.word = ts.map Token.word := by
  fun_induction scanFrom chain p cs generalizing q ts with
  | case1 p =>
    cases h
    exact ⟨[], by rw [scanFrom], rfl⟩
  | case2 p c rest hstep => cases h
  | case3 p c rest s hstep ih =>
    obtain ⟨ts, hts, rfl⟩ := Result.map_eq_ok_iff.1 h
    obtain ⟨us, hus, hwords⟩ := ih hts (q + s.width)
    have hstep' := firstStep?_position chain p q (c :: rest)
    rw [hstep, Option.map_some] at hstep'
    refine ⟨⟨s.token.kind, s.token.text, q⟩ :: us, ?_, ?_⟩
    · rw [scanFrom_of_firstStep? hstep', hus]
      rfl
    · rw [List.map_cons, List.map_cons, hwords]
      rfl

/-! ## Phrases -/

namespace Selector

open Grammar

theorem reads_param {e : String × String} {rest : List Char} (he : IsIdentifier e.1)
    (hr : Delimited rest) : ∃ ws, Param ws e ∧ Reads (paramChars e) rest ws := by
  obtain ⟨kind, hk, hvalue⟩ := Reads.value e.2 hr
  have hequals : Reads ['='] (valueChars e.2.toList ++ rest) [(.equals, String.ofList ['='])] :=
    Reads.symbol (by decide) _
  have hname : Reads e.1.toList (['='] ++ (valueChars e.2.toList ++ rest)) [(.name, e.1)] :=
    Reads.name he (delimited_cons (by decide))
  exact ⟨_, .pair e.1 _ e.2 hk, (hname.append hequals).append hvalue⟩

theorem reads_paramList {es : List (String × String)} {rest : List Char} (hne : es ≠ [])
    (hes : ∀ e ∈ es, IsIdentifier e.1) (hr : Delimited rest) :
    ∃ ws, ParamList ws es ∧ Reads ([','].intercalate (es.map paramChars)) rest ws := by
  induction es with
  | nil => exact absurd rfl hne
  | cons e es ih =>
    rw [List.forall_mem_cons] at hes
    cases es with
    | nil =>
      obtain ⟨ws, hp, hparam⟩ := reads_param hes.1 hr
      refine ⟨ws, .one hp, ?_⟩
      rwa [List.map_singleton, List.intercalate_singleton]
    | cons e' es =>
      obtain ⟨vs, hps, hlist⟩ := ih (List.cons_ne_nil e' es) hes.2
      rw [List.map_cons, List.map_cons, List.intercalate_cons_cons, ← List.map_cons,
        List.append_assoc]
      generalize [','].intercalate ((e' :: es).map paramChars) = cs at hlist ⊢
      have hcomma : Reads [','] (cs ++ rest) [(.comma, String.ofList [','])] :=
        Reads.symbol (by decide) _
      have hdelimited : Delimited (([','] ++ cs) ++ rest) := delimited_cons (by decide)
      obtain ⟨ws, hp, hparam⟩ := reads_param hes.1 hdelimited
      exact ⟨_, .more _ hp hps, hparam.append (hcomma.append hlist)⟩

theorem reads_params {p : Params} (hp : ∀ key ∈ p.names, IsIdentifier key) (rest : List Char) :
    ∃ ws, ParamBlock ws p.entries ∧ Reads (paramsChars p) rest ws := by
  unfold paramsChars
  split_ifs with hempty
  · have hnil : p.entries = [] := by simpa [Params.isEmpty] using hempty
    rw [hnil]
    exact ⟨[], .absent, Reads.nil rest⟩
  · have hne : p.entries ≠ [] := by simpa [Params.isEmpty] using hempty
    have hes : ∀ e ∈ p.entries, IsIdentifier e.1 :=
      fun e he => hp e.1 (List.mem_map.2 ⟨e, he, rfl⟩)
    have hdelimited : Delimited ([']'] ++ rest) := delimited_cons (by decide)
    obtain ⟨ws, hps, hlist⟩ := reads_paramList hne hes hdelimited
    have hclosing : Reads [']'] rest [(.bracketClose, String.ofList [']'])] :=
      Reads.symbol (by decide) _
    have hopening : Reads ['['] (([','].intercalate (p.entries.map paramChars) ++ [']']) ++ rest)
        [(.bracketOpen, String.ofList ['['])] := Reads.symbol (by decide) _
    rw [List.append_assoc]
    exact ⟨_, .present _ _ hps, hopening.append (hlist.append hclosing)⟩

theorem reads_refinement {r : Refinement} {rest : List Char} (hn : IsIdentifier r.name)
    (hr : Delimited rest) :
    ∃ ws, Narrowing ws r ∧
      Reads (refinementChars r) rest ((.colon, String.ofList [':']) :: ws) := by
  obtain ⟨name, argument⟩ := r
  unfold refinementChars
  cases argument with
  | none =>
    have hcolon : Reads [':'] (name.toList ++ rest) [(.colon, String.ofList [':'])] :=
      Reads.symbol (by decide) _
    exact ⟨_, .plain name, hcolon.append (Reads.name hn hr)⟩
  | some value =>
    obtain ⟨kind, hk, hvalue⟩ :=
      Reads.value value (delimited_cons (by decide) : Delimited ([')'] ++ rest))
    simp only [List.append_assoc]
    generalize valueChars value.toList = cs at hvalue ⊢
    have hclosing : Reads [')'] rest [(.parenClose, String.ofList [')'])] :=
      Reads.symbol (by decide) _
    have hopening : Reads ['('] ((cs ++ [')']) ++ rest) [(.parenOpen, String.ofList ['('])] :=
      Reads.symbol (by decide) _
    have hname : Reads name.toList ((['('] ++ (cs ++ [')'])) ++ rest) [(.name, name)] :=
      Reads.name hn (delimited_cons (by decide))
    have hcolon : Reads [':'] ((name.toList ++ (['('] ++ (cs ++ [')']))) ++ rest)
        [(.colon, String.ofList [':'])] := Reads.symbol (by decide) _
    exact ⟨_, .withArgument name _ value _ hk,
      hcolon.append (hname.append (hopening.append (hvalue.append hclosing)))⟩

theorem delimited_refinements (rs : List Refinement) : Delimited (rs.flatMap refinementChars) := by
  cases rs with
  | nil => exact delimited_nil
  | cons r rs =>
    obtain ⟨name, argument⟩ := r
    cases argument <;> exact delimited_cons (by decide)

theorem reads_refinements {rs : List Refinement} (hrs : ∀ r ∈ rs, IsIdentifier r.name) :
    ∃ ws, Narrowings ws rs ∧ Reads (rs.flatMap refinementChars) [] ws := by
  induction rs with
  | nil => exact ⟨[], .nil, Reads.nil []⟩
  | cons r rs ih =>
    rw [List.forall_mem_cons] at hrs
    obtain ⟨vs, hnarrowings, hreads⟩ := ih hrs.2
    have hdelimited : Delimited (rs.flatMap refinementChars ++ []) := by
      rw [List.append_nil]
      exact delimited_refinements rs
    obtain ⟨ws, hnarrowing, hread⟩ := reads_refinement hrs.1 hdelimited
    exact ⟨_, .cons _ hnarrowing hnarrowings, hread.append hreads⟩

theorem reads_mark (descend : Bool) (rest : List Char) :
    ∃ ws, Mark ws descend ∧ Reads (if descend then [] else ['>']) rest ws := by
  cases descend with
  | true => exact ⟨[], .absent, Reads.nil rest⟩
  | false => exact ⟨_, .present _, Reads.symbol (by decide) rest⟩

/-- The characters of a selector are read as a sentence that says what the selector says. -/
theorem reads_chars {s : Selector} (h : s.WellNamed) :
    ∃ ws, Sentence ws ⟨s.descend, s.kind, s.params.entries, s.refinements⟩ ∧
      Reads s.chars [] ws := by
  obtain ⟨hkind, hparams, hrefinements⟩ := h
  obtain ⟨rs, hnarrowings, hr⟩ := reads_refinements hrefinements
  obtain ⟨ps, hblock, hp⟩ := reads_params hparams (s.refinements.flatMap refinementChars ++ [])
  have hdelimited :
      Delimited ((paramsChars s.params ++ s.refinements.flatMap refinementChars) ++ []) := by
    rw [List.append_nil, paramsChars]
    split_ifs with hempty
    · exact delimited_refinements s.refinements
    · exact delimited_cons (by decide)
  obtain ⟨ms, hmark, hm⟩ := reads_mark s.descend
    ((s.kind.toList ++ (paramsChars s.params ++ s.refinements.flatMap refinementChars)) ++ [])
  have hk := Reads.name hkind hdelimited
  refine ⟨_, .intro s.kind hmark hblock hnarrowings, ?_⟩
  rw [chars, List.append_assoc, List.append_assoc]
  exact hm.append (hk.append (hp.append hr))

/-! ## Round trip -/

/-- A selector whose names are identifiers is read back from its canonical text. -/
theorem parse_render_of_wellNamed {s : Selector} (h : s.WellNamed) : parse s.render = .ok s := by
  obtain ⟨ws, hsentence, hreads⟩ := reads_chars h
  obtain ⟨ts, rfl, hscan⟩ := hreads 0
  have htokens : scan Recognizer.standard s.render = .ok ts := by
    rw [List.append_nil, scanFrom] at hscan
    rw [scan, render, String.toList_ofList, hscan, Except.map, List.append_nil]
  have hsolid : solidWords ts = ts.map Token.word := by
    rw [solidWords_eq_filter, List.filter_eq_self]
    exact fun w hw => bne_iff_ne.2 (hsentence.solid w hw)
  refine parse_eq_ok_iff.2 ⟨ts, htokens, s.params.entries, ?_, s.params.nodup_names, ?_⟩
  · rwa [hsolid]
  · exact fun k v => Params.get?_eq_some_iff

/-- The names of a selector that is read from a text are identifiers. -/
theorem wellNamed_of_parse {text : String} {s : Selector} (h : parse text = .ok s) :
    s.WellNamed := by
  obtain ⟨ts, hscan, pairs, hsentence, -, hpairs⟩ := parse_eq_ok_iff.1 h
  have hname : ∀ name, (.name, name) ∈ solidWords ts → IsIdentifier name := by
    intro name hmem
    obtain ⟨t, ht, hword⟩ := List.mem_map.1 hmem
    obtain ⟨hkind, rfl⟩ := Token.word_eq_iff.1 hword
    exact scan_name_identifier hscan (List.mem_of_mem_filter ht) hkind
  obtain ⟨hkind, hparams, hrefinements⟩ := hsentence.name_mem
  refine ⟨hname _ hkind, fun key hkey => ?_, fun r hr => hname _ (hrefinements r hr)⟩
  obtain ⟨⟨k, v⟩, he, rfl⟩ := List.mem_map.1 hkey
  exact hname k (hparams (k, v) ((hpairs k v).1 (Params.get?_eq_some_iff.2 he)))

/-- A selector is read back from its canonical text exactly if all its names are identifiers, and
    every selector that is read from any text has such names. So a text that is read at all and
    the canonical text of what it is read as are read as the same selector. -/
theorem parse_render_iff_wellNamed :
    (∀ s : Selector, parse s.render = .ok s ↔ s.WellNamed) ∧
      ∀ (text : String) (s : Selector), parse text = .ok s →
        s.WellNamed ∧ parse s.render = .ok s := by
  refine ⟨fun s => ⟨wellNamed_of_parse, parse_render_of_wellNamed⟩, fun text s h => ?_⟩
  have hs := wellNamed_of_parse h
  exact ⟨hs, parse_render_of_wellNamed hs⟩

/-- A text with blanks, a quoted index and a value that holds a quote, a backslash and a letter
    outside ASCII. Its canonical text is another one. -/
theorem parse_render_quoted_value :
    let s : Selector :=
      ⟨"string", ⟨[("value", "ü \"\\ -")], by decide⟩, false, [⟨"eq", some "-1"⟩]⟩
    parse " > string [value='ü \"\\\\ -'] :eq('-1')" = .ok s ∧
      s.render = ">string[value=\"ü \\\"\\\\ -\"]:eq(-1)" ∧ parse s.render = .ok s := by
  intro s
  have hread : parse " > string [value='ü \"\\\\ -'] :eq('-1')" = .ok s := by decide +kernel
  exact ⟨hread, by decide +kernel, (parse_render_iff_wellNamed.2 _ s hread).2⟩

end Selector

end TreeQuery
