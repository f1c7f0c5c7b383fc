import Mathlib.Data.List.Basic
import TreeQuery.Proofs.Result
import TreeQuery.Selector.Printer
import TreeQuery.Token.Scan

/-!
# Reading lexemes

What the recognizers for selectors read at the start of a text.

* `firstStep?_of_accepts`: at any place at most one of the recognizers for selectors accepts, so
  that the order in which they are asked does not matter.
* `StandsFor`, `Unescapes`: what stands between two quotes, and what it stands for.
  `quotedTail_sound` and `quotedTail_complete`: this is what is read up to the closing quote.
* `lexeme?_name`, `lexeme?_number`, `lexeme?_quoted`: names, numbers and quoted texts are read
  back from the way they are written, if what follows does not prolong them.
-/

namespace TreeQuery

/-! ## Characters as numbers -/

theorem isNameStart_iff_toNat {c : Char} :
    isNameStart c ↔
      (65 ≤ c.toNat ∧ c.toNat ≤ 90) ∨ (97 ≤ c.toNat ∧ c.toNat ≤ 122) ∨ c.toNat = 95 := by
  have hupper : c.isUpper ↔ 65 ≤ c.toNat ∧ c.toNat ≤ 90 := by
    show decide (65 ≤ c.val ∧ c.val ≤ 90) = true ↔ _
    rw [decide_eq_true_iff, UInt32.le_iff_toNat_le, UInt32.le_iff_toNat_le]
    rfl
  have hlower : c.isLower ↔ 97 ≤ c.toNat ∧ c.toNat ≤ 122 := by
    show (decide (97 ≤ c.val) && decide (c.val ≤ 122)) = true ↔ _
    rw [Bool.and_eq_true, decide_eq_true_iff, decide_eq_true_iff, UInt32.le_iff_toNat_le,
      UInt32.le_iff_toNat_le]
    rfl
  have hline : c = '_' ↔ c.toNat = 95 := Char.toNat_inj.symm
  show (c.isUpper || c.isLower || c == '_') = true ↔ _
  rw [Bool.or_eq_true, Bool.or_eq_true, hupper, hlower, beq_iff_eq, hline, or_assoc]

theorem isDigit_iff_toNat {c : Char} : c.isDigit ↔ 48 ≤ c.toNat ∧ c.toNat ≤ 57 :=
  Char.isDigit_iff_toNat

theorem isNameChar_iff {c : Char} : isNameChar c ↔ isNameStart c ∨ c.isDigit ∨ c = '-' := by
  simp only [isNameChar, isNameStart, Char.isAlphanum, Bool.or_eq_true, beq_iff_eq]
  tauto

theorem isQuote_iff {c : Char} : isQuote c ↔ c = '\x22' ∨ c = '\x27' := by
  simp [isQuote]

theorem isBlank_toNat {c : Char} (h : Text.isBlank c) : c.toNat ≤ 32 ∨ 133 ≤ c.toNat := by
  simp [Text.isBlank, Text.blankRanges] at h
  omega

namespace Recognizer

/-! ## Which recognizer a character belongs to -/

/-- Can a lexeme of the recognizer start with `c`? -/
def startsWith : Recognizer → Char → Prop
  | blank, c => Text.isBlank c
  | symbol char _, c => c = char
  | quoted, c => isQuote c
  | number, c => c = '-' ∨ c.isDigit
  | name, c => isNameStart c

theorem takeWhile_eq_nil_iff_head? {p : Char → Bool} {cs : List Char} :
    cs.takeWhile p = [] ↔ ∀ c ∈ cs.head?, ¬ p c := by
  cases cs with
  | nil => simp
  | cons c cs => simp [List.takeWhile_cons]

theorem run_takeWhile_head {p : Char → Bool} {cs : List Char} {l : Lexeme}
    (h : run (cs.takeWhile p) = some l) : ∃ c rest, cs = c :: rest ∧ p c := by
  cases cs with
  | nil => simp [run] at h
  | cons c rest =>
    refine ⟨c, rest, rfl, ?_⟩
    by_contra hp
    rw [List.takeWhile_cons_of_neg hp] at h
    simp [run] at h

theorem lexeme?_startsWith {r : Recognizer} {cs : List Char} {l : Lexeme}
    (h : r.lexeme? cs = some l) : ∃ c rest, cs = c :: rest ∧ r.startsWith c := by
  unfold lexeme? at h
  split at h
  · exact run_takeWhile_head h
  · cases h
  · split_ifs at h with hc
    exact ⟨_, _, rfl, hc⟩
  · cases h
  · split_ifs at h with hc
    exact ⟨_, _, rfl, hc⟩
  · exact ⟨_, _, rfl, .inl rfl⟩
  · obtain ⟨c, rest, rfl, hc⟩ := run_takeWhile_head h
    exact ⟨c, rest, rfl, .inr hc⟩
  · cases h
  · split_ifs at h with hc
    exact ⟨_, _, rfl, hc⟩

/-- The recognizer for selectors whose lexemes start with `c`. -/
def ofStart (c : Char) : Option Recognizer :=
  if isNameStart c then some name
  else if c = '-' ∨ c.isDigit then some number
  else if Text.isBlank c then some blank
  else standard.find? fun
    | quoted => isQuote c
    | symbol char _ => c == char
    | _ => false

theorem ofStart_eq {r : Recognizer} (hr : r ∈ standard) {c : Char} (h : r.startsWith c) :
    ofStart c = some r := by
  simp only [standard, List.mem_cons, List.not_mem_nil, or_false] at hr
  rcases hr with rfl | rfl | rfl | rfl | rfl | rfl | rfl | rfl | rfl | rfl | rfl | rfl
  · rw [startsWith] at h
    have hnat := isBlank_toNat h
    have hn : ¬ isNameStart c := by
      rw [isNameStart_iff_toNat]
      omega
    have hd : ¬ (c = '-' ∨ c.isDigit) := by
      rw [isDigit_iff_toNat, ← Char.toNat_inj, show '-'.toNat = 45 from rfl]
      omega
    rw [ofStart, if_neg hn, if_neg hd, if_pos h]
  -- the symbols are single characters
  iterate 8
    · cases h
      decide
  · rcases isQuote_iff.1 h with rfl | rfl <;> decide
  · rw [startsWith] at h
    have hn : ¬ isNameStart c := by
      rw [isDigit_iff_toNat, ← Char.toNat_inj, show '-'.toNat = 45 from rfl] at h
      rw [isNameStart_iff_toNat]
      omega
    rw [ofStart, if_neg hn, if_pos h]
  · rw [startsWith] at h
    rw [ofStart, if_pos h]

/-- No two recognizers for selectors accept at the same place. -/
theorem eq_of_startsWith {r r' : Recognizer} (hr : r ∈ standard) (hr' : r' ∈ standard) {c : Char}
    (h : r.startsWith c) (h' : r'.startsWith c) : r = r' := by
  have heq := ofStart_eq hr h
  rw [ofStart_eq hr' h'] at heq
  exact (Option.some.inj heq).symm

end Recognizer

theorem findSome?_eq_of_unique {α β : Type} {f : α → Option β} {as : List α} {a : α} {b : β}
    (ha : a ∈ as) (h : f a = some b) (huniq : ∀ a' ∈ as, ∀ b', f a' = some b' → a' = a) :
    as.findSome? f = some b := by
  cases hfind : as.findSome? f with
  | none =>
    rw [List.findSome?_eq_none_iff] at hfind
    rw [hfind a ha] at h
    cases h
  | some b' =>
    obtain ⟨a', ha', hb'⟩ := List.exists_of_findSome?_eq_some hfind
    obtain rfl := huniq a' ha' b' hb'
    rw [← h, hb']

/-- If a recognizer of a chain of recognizers for selectors accepts, then it makes the token. -/
theorem firstStep?_of_accepts {chain : List Recognizer} (hchain : chain ⊆ Recognizer.standard)
    {r : Recognizer} (hr : r ∈ chain) {position : Nat} {cs : List Char} {l : Lexeme}
    (h : r.lexeme? cs = some l) :
    firstStep? chain position cs = some ⟨⟨r.kind, String.ofList l.text, position⟩, l.width⟩ := by
  apply findSome?_eq_of_unique hr
  · rw [Recognizer.step?, h, Option.map_some]
  · intro r' hr' s hs
    obtain ⟨l', hl', -⟩ := Option.map_eq_some_iff.1 hs
    obtain ⟨c, rest, rfl, hc⟩ := Recognizer.lexeme?_startsWith h
    obtain ⟨c', rest', heq, hc'⟩ := Recognizer.lexeme?_startsWith hl'
    obtain ⟨rfl, -⟩ := List.cons.inj heq
    exact Recognizer.eq_of_startsWith (hchain hr') (hchain hr) hc' hc

/-! ## Quoted texts -/

/-- What a character behind a backslash stands for: three letters for a line feed, a tab and a
    carriage return, and any other character for itself. -/
inductive StandsFor : Char → Char → Prop
  | lineFeed : StandsFor 'n' '\n'
  | tab : StandsFor 't' '\t'
  | carriageReturn : StandsFor 'r' '\r'
  | itself {c : Char} : c ≠ 'n' → c ≠ 't' → c ≠ 'r' → StandsFor c c

theorem standsFor_unescape (c : Char) : StandsFor c (unescape c) := by
  unfold unescape
  split
  · exact .lineFeed
  · exact .tab
  · exact .carriageReturn
  · rename_i hn ht hr
    exact .itself hn ht hr

theorem StandsFor.eq {c e : Char} (h : StandsFor c e) : e = unescape c := by
  cases h with
  | lineFeed => rfl
  | tab => rfl
  | carriageReturn => rfl
  | itself hn ht hr =>
    unfold unescape
    split
    · exact absurd rfl hn
    · exact absurd rfl ht
    · exact absurd rfl hr
    · rfl

/-- `body` can stand between two quotes `quote`, and stands for `text`. A backslash takes the
    character behind it along, and a quote that is not taken along would end the text. -/
inductive Unescapes (quote : Char) : List Char → List Char → Prop
  | nil : Unescapes quote [] []
  | plain {c : Char} {body text : List Char} : c ≠ quote → c ≠ '\\' → Unescapes quote body text →
      Unescapes quote (c :: body) (c :: text)
  | escaped {c e : Char} {body text : List Char} : StandsFor c e → Unescapes quote body text →
      Unescapes quote ('\\' :: c :: body) (e :: text)

/-- What is put between quotes stands for what it was made from. -/
theorem unescapes_escape (value : List Char) :
    Unescapes '\x22' (value.flatMap Selector.escape) value := by
  induction value with
  | nil => exact .nil
  | cons c value ih =>
    rw [List.flatMap_cons]
    by_cases hc : c = '\\' ∨ c = '\x22'
    · -- a backslash is put in front, and what is behind one stands for itself
      have hescape : Selector.escape c = ['\\', c] := by
        rcases hc with rfl | rfl <;> decide
      have hitself : StandsFor c c := by
        rcases hc with rfl | rfl <;> exact .itself (by decide) (by decide) (by decide)
      rw [hescape]
      exact .escaped hitself ih
    · rw [not_or] at hc
      have hescape : Selector.escape c = [c] := by
        rw [Selector.escape, if_neg hc.1, if_neg hc.2]
      rw [hescape]
      exact .plain hc.2 hc.1 ih

namespace Recognizer

theorem quotedTail_close (quote : Char) (rest : List Char) :
    quotedTail quote (quote :: rest) = some ⟨[], 1⟩ := by
  rw [quotedTail.eq_def]
  simp only [if_true]

theorem quotedTail_escaped {quote c e : Char} (h : quote ≠ '\\') (he : StandsFor c e)
    (cs : List Char) : quotedTail quote ('\\' :: c :: cs) =
      (quotedTail quote cs).map fun tail => ⟨e :: tail.text, tail.width + 2⟩ := by
  rw [he.eq, quotedTail.eq_def]
  simp only [h.symm, if_false, if_true]

theorem quotedTail_dangling {quote : Char} (h : quote ≠ '\\') : quotedTail quote ['\\'] = none := by
  rw [quotedTail.eq_def]
  simp only [h.symm, if_false, if_true]

theorem quotedTail_plain {quote c : Char} (h : c ≠ quote) (hb : c ≠ '\\') (cs : List Char) :
    quotedTail quote (c :: cs) =
      (quotedTail quote cs).map fun tail => ⟨c :: tail.text, tail.width + 1⟩ := by
  rw [quotedTail.eq_def]
  simp only [h, hb, if_false]

theorem quotedTail_sound {quote : Char} {cs : List Char} {l : Lexeme}
    (h : quotedTail quote cs = some l) :
    ∃ body rest, cs = body ++ quote :: rest ∧ l.width = body.length + 1 ∧
      Unescapes quote body l.text := by
  fun_induction quotedTail quote cs generalizing l with
  | case1 => cases h
  | case2 cs =>
    cases h
    exact ⟨[], cs, rfl, rfl, .nil⟩
  | case3 => cases h
  | case4 c cs hquote ih =>
    obtain ⟨tail, htail, rfl⟩ := Option.map_eq_some_iff.1 h
    obtain ⟨body, rest, rfl, hwidth, hbody⟩ := ih htail
    exact ⟨'\\' :: c :: body, rest, rfl, by simp [hwidth], .escaped (standsFor_unescape c) hbody⟩
  | case5 c cs hquote hbackslash ih =>
    obtain ⟨tail, htail, rfl⟩ := Option.map_eq_some_iff.1 h
    obtain ⟨body, rest, rfl, hwidth, hbody⟩ := ih htail
    exact ⟨c :: body, rest, rfl, by simp [hwidth], .plain hquote hbackslash hbody⟩

theorem quotedTail_complete {quote : Char} (hquote : quote ≠ '\\') {body text : List Char}
    (h : Unescapes quote body text) (rest : List Char) :
    quotedTail quote (body ++ quote :: rest) = some ⟨text, body.length + 1⟩ := by
  induction h with
  | nil => exact quotedTail_close quote rest
  | plain hc hbackslash _ ih =>
    rw [List.cons_append, quotedTail_plain hc hbackslash, ih]
    rfl
  | escaped he _ ih =>
    rw [List.cons_append, List.cons_append, quotedTail_escaped hquote he, ih]
    rfl

end Recognizer

/-! ## Lexemes in front of other text -/

/-- The text does not go on with a character of a name. So a name or a number in front of it ends
    there. -/
def Delimited (cs : List Char) : Prop :=
  ∀ c ∈ cs.head?, ¬ isNameChar c

theorem delimited_nil : Delimited [] := by
  simp [Delimited]

theorem delimited_cons {c : Char} {cs : List Char} (h : ¬ isNameChar c) : Delimited (c :: cs) := by
  simpa [Delimited] using h

theorem takeWhile_append_of_delimited {p : Char → Bool} {cs rest : List Char}
    (h : ∀ c ∈ cs, p c) (hp : ∀ c, p c → isNameChar c) (hr : Delimited rest) :
    (cs ++ rest).takeWhile p = cs := by
  rw [List.takeWhile_append_of_pos h]
  cases rest with
  | nil => simp
  | cons c rest =>
    have hc : ¬ p c := fun hpc => hr c (by simp) (hp c hpc)
    rw [List.takeWhile_cons_of_neg hc, List.append_nil]

namespace Recognizer

theorem run_of_ne_nil {cs : List Char} (h : cs ≠ []) : run cs = some ⟨cs, cs.length⟩ := by
  rw [run, if_neg (by simpa using h)]

theorem lexeme?_symbol {char : Char} {kind : TokenKind} {rest : List Char} :
    (symbol char kind).lexeme? (char :: rest) = some ⟨[char], 1⟩ := by
  rw [lexeme?, if_pos rfl]

theorem lexeme?_name {cs rest : List Char} (h : isName cs) (hr : Delimited rest) :
    name.lexeme? (cs ++ rest) = some ⟨cs, cs.length⟩ := by
  cases cs with
  | nil => cases h
  | cons c cs =>
    simp only [isName, Bool.and_eq_true, List.all_eq_true] at h
    rw [List.cons_append, lexeme?, if_pos h.1, ← List.cons_append,
      takeWhile_append_of_delimited h.2 (fun _ => id) hr]
    exact run_of_ne_nil (List.cons_ne_nil c cs)

theorem run_digits {cs rest : List Char} (hne : cs ≠ []) (h : ∀ c ∈ cs, c.isDigit)
    (hr : Delimited rest) :
    run ((cs ++ rest).takeWhile Char.isDigit) = some ⟨cs, cs.length⟩ := by
  have hdigit : ∀ c : Char, c.isDigit → isNameChar c := fun c hc =>
    isNameChar_iff.2 (.inr (.inl hc))
  rw [takeWhile_append_of_delimited h hdigit hr]
  exact run_of_ne_nil hne

theorem lexeme?_number {cs rest : List Char} (h : isNumber cs) (hr : Delimited rest) :
    number.lexeme? (cs ++ rest) = some ⟨cs, cs.length⟩ := by
  unfold isNumber at h
  split at h
  · cases h
  · rename_i cs
    simp only [Bool.and_eq_true, Bool.not_eq_true', List.isEmpty_eq_false_iff,
      List.all_eq_true] at h
    rw [List.cons_append, lexeme?, run_digits h.1 h.2 hr]
    rfl
  · rename_i hne hminus
    rw [List.all_eq_true] at h
    rw [lexeme?, run_digits hne h hr]
    intro tail heq
    cases cs with
    | nil => exact hne rfl
    | cons c cs =>
      obtain ⟨rfl, -⟩ := List.cons.inj heq
      exact hminus cs rfl

theorem lexeme?_quoted (value rest : List Char) :
    quoted.lexeme? (['\x22'] ++ value.flatMap Selector.escape ++ ['\x22'] ++ rest) =
      some ⟨value, (['\x22'] ++ value.flatMap Selector.escape ++ ['\x22']).length⟩ := by
  simp only [List.append_assoc, List.cons_append, List.nil_append]
  rw [lexeme?, if_pos (by decide), quotedTail_complete (by decide) (unescapes_escape value)]
  simp

theorem lexeme?_name_isName {cs : List Char} {l : Lexeme} (h : name.lexeme? cs = some l) :
    isName l.text := by
  cases cs with
  | nil => cases h
  | cons c cs =>
    rw [lexeme?] at h
    split_ifs at h with hc
    obtain ⟨-, -, htext⟩ := run_width h
    have hchar : isNameChar c := isNameChar_iff.2 (.inl hc)
    rw [List.takeWhile_cons_of_pos hchar] at htext
    rw [htext, isName, hc, Bool.true_and, ← List.takeWhile_cons_of_pos hchar]
    exact List.all_takeWhile

end Recognizer

/-! ## Scanning -/

theorem scanFrom_of_firstStep? {chain : List Recognizer} {position : Nat} {cs : List Char}
    {s : Step} (h : firstStep? chain position cs = some s) :
    scanFrom chain position cs =
      (scanFrom chain (position + s.width) (cs.drop s.width)).map (s.token :: ·) := by
  cases cs with
  | nil =>
    have := firstStep?_width h
    simp only [List.length_nil] at this
    omega
  | cons c rest =>
    rw [scanFrom]
    split
    · rename_i hnone
      rw [h] at hnone
      cases hnone
    · rename_i s' hs'
      rw [h] at hs'
      cases hs'
      rfl

theorem scanFrom_of_declined {chain : List Recognizer} {position : Nat} {c : Char}
    {rest : List Char} (h : firstStep? chain position (c :: rest) = none) :
    scanFrom chain position (c :: rest) = .error ⟨c, position⟩ := by
  rw [scanFrom]
  split
  · rfl
  · rename_i s hs
    rw [h] at hs
    cases hs

/-- Where characters stand does not matter to the step made there, but for its position. -/
theorem firstStep?_position (chain : List Recognizer) (p q : Nat) (cs : List Char) :
    firstStep? chain q cs =
      (firstStep? chain p cs).map fun s => ⟨{ s.token with position := q }, s.width⟩ := by
  unfold firstStep?
  induction chain with
  | nil => rfl
  | cons r chain ih =>
    rw [List.findSome?_cons, List.findSome?_cons, ih, Recognizer.step?, Recognizer.step?]
    cases r.lexeme? cs with
    | none => rfl
    | some l => rfl

/-- Every token of a text is made by one of the recognizers. -/
theorem mem_scanFrom {chain : List Recognizer} {position : Nat} {cs : List Char}
    {ts : List Token} (h : scanFrom chain position cs = .ok ts) {t : Token} (ht : t ∈ ts) :
    ∃ r ∈ chain, ∃ cs l, r.lexeme? cs = some l ∧ t.kind = r.kind ∧
      t.text = String.ofList l.text := by
  fun_induction scanFrom chain position cs generalizing ts with
  | case1 =>
    cases h
    cases ht
  | case2 => cases h
  | case3 position c rest s hstep ih =>
    obtain ⟨ts, hts, rfl⟩ := Result.map_eq_ok_iff.1 h
    rcases List.mem_cons.1 ht with rfl | ht
    · obtain ⟨r, hr, hs⟩ := List.exists_of_findSome?_eq_some hstep
      obtain ⟨l, hl, rfl⟩ := Option.map_eq_some_iff.1 hs
      exact ⟨r, hr, c :: rest, l, hl, rfl, rfl⟩
    · exact ih hts ht

end TreeQuery
