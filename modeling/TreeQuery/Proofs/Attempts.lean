import TreeQuery.Proofs.Cursors
import TreeQuery.Proofs.Scanning

/-!
# Attempts at a lexeme

What a recognizer reads is said of the text at the cursor as a whole. It can also be found step by
step: the cursor is moved on while the characters it comes to belong to the lexeme, and is put back
if there turns out to be no lexeme after all. Both ways lead to the same end, so that a recognizer
that declines leaves no trace, and one that accepts has moved on. A scan therefore ends after at
most as many rounds as the text has characters.

Results:
* `Cursor.Walks`, `Cursor.WalksQuoted`, `Recognizer.Attempts`: the steps of a recognizer.
* `Recognizer.exists_attempts`: every attempt comes to an end.
* `Recognizer.Attempts.takes`: an attempt takes the token that the recognizer reads, or nothing.
* `Reading.read_cases`: what a recognizer may do to a reading.
* `Reading.round`, `Reading.drive`: a scan as a loop that asks one recognizer after the other.
* `Reading.drive_eq_scanFrom`: the loop ends in time, with the tokens of the text.
* `Reading.read_contract_and_scan_ends`: all of this in one statement.
-/

namespace TreeQuery

/-! ## Small steps of a cursor -/

namespace Cursor

/-- The cursor at a given position, or at the end of the text if that comes first. -/
def reset (c : Cursor) (position : Nat) : Cursor :=
  { c with position := min position c.length }

/-- The cursor `n` places further on, wherever the text ends. -/
def skip (c : Cursor) (n : Nat) : Cursor :=
  { c with position := c.position + n }

variable {c c' : Cursor} {ch : Char}

theorem current?_eq_head? (c : Cursor) : c.current? = c.rest.head? :=
  List.head?_drop.symm

theorem rest_skip (c : Cursor) (n : Nat) : (c.skip n).rest = c.rest.drop n :=
  List.drop_drop.symm

theorem skip_skip (c : Cursor) (m n : Nat) : (c.skip m).skip n = c.skip (m + n) := by
  rw [skip, skip, skip, Nat.add_assoc]

theorem rest_of_current? (h : c.current? = some ch) : c.rest = ch :: (c.skip 1).rest := by
  rw [current?_eq_head?] at h
  obtain ⟨cs, hcs⟩ := List.head?_eq_some_iff.1 h
  rw [rest_skip, hcs, List.drop_one, List.tail_cons]

theorem current?_of_rest_nil (h : c.rest = []) : c.current? = none := by
  rw [current?_eq_head?, h, List.head?_nil]

theorem current?_of_rest_cons {cs : List Char} (h : c.rest = ch :: cs) :
    c.current? = some ch ∧ (c.skip 1).rest = cs := by
  rw [current?_eq_head?, rest_skip, h]
  exact ⟨rfl, rfl⟩

theorem position_lt_of_current? (h : c.current? = some ch) : c.position < c.length :=
  (List.getElem?_eq_some_iff.1 h).1

theorem atEnd_iff : c.atEnd ↔ c.rest = [] := by
  rw [atEnd, decide_eq_true_iff]
  exact List.drop_eq_nil_iff.symm

/-! A step that stays inside a text leads as far as it says. In a text of fewer characters than
there are words, the step can be made. -/

theorem eq_skip_of_advance {n : UInt64} (h : c.advance n = .ok c')
    (hinside : c.position + n.toNat ≤ c.length) : c' = c.skip n.toNat := by
  rw [eq_of_advance h, Nat.min_eq_left hinside, skip]

theorem eq_skip_one (hcurrent : c.current? = some ch) (h : c.advance 1 = .ok c') :
    c' = c.skip 1 :=
  eq_skip_of_advance h (position_lt_of_current? hcurrent)

theorem eq_skip_two (hnext : (c.skip 1).current? = some ch) (h : c.advance 2 = .ok c') :
    c' = c.skip 2 :=
  eq_skip_of_advance h (position_lt_of_current? hnext)

theorem current?_of_peek_one {shown : Option Char} (h : c.peek 1 = .ok shown) :
    (c.skip 1).current? = shown :=
  (eq_of_peek h).symm

theorem advance_eq_skip {n : UInt64} (hfit : c.length < UInt64.size)
    (hinside : c.position + n.toNat ≤ c.length) : c.advance n = .ok (c.skip n.toNat) := by
  rw [advance_of_lt (Nat.lt_of_le_of_lt hinside hfit), Nat.min_eq_left hinside, skip]

theorem advance_one (hfit : c.length < UInt64.size) (hcurrent : c.current? = some ch) :
    c.advance 1 = .ok (c.skip 1) :=
  advance_eq_skip hfit (position_lt_of_current? hcurrent)

theorem advance_two (hfit : c.length < UInt64.size) (hnext : (c.skip 1).current? = some ch) :
    c.advance 2 = .ok (c.skip 2) :=
  advance_eq_skip hfit (position_lt_of_current? hnext)

theorem peek_one (hfit : c.length < UInt64.size) (hcurrent : c.current? = some ch) :
    c.peek 1 = .ok (c.skip 1).current? :=
  peek_of_lt (Nat.lt_of_le_of_lt (position_lt_of_current? hcurrent) hfit)

/-! ## Loops -/

/-- The loop that takes characters as long as they satisfy `p`. -/
inductive Walks (p : Char → Bool) : Cursor → List Char → Cursor → Prop
  | stop {c : Cursor} : (∀ ch ∈ c.current?, ¬ p ch) → Walks p c [] c
  | next {c c₁ c' : Cursor} {ch : Char} {text : List Char} : c.current? = some ch → p ch →
      c.advance 1 = .ok c₁ → Walks p c₁ text c' → Walks p c (ch :: text) c'

/-- The loop behind an opening quote. It ends behind the closing quote, with the text in front of
    it; or at the end of the text, perhaps in front of a last backslash, with nothing. -/
inductive WalksQuoted (quote : Char) : Cursor → Option (List Char) → Cursor → Prop
  | close {c c' : Cursor} : c.current? = some quote → c.advance 1 = .ok c' →
      WalksQuoted quote c (some []) c'
  | escaped {c c₁ c' : Cursor} {ch e : Char} {text : Option (List Char)} :
      c.current? = some '\\' → '\\' ≠ quote → c.peek 1 = .ok (some ch) → StandsFor ch e →
      c.advance 2 = .ok c₁ → WalksQuoted quote c₁ text c' →
      WalksQuoted quote c (text.map (e :: ·)) c'
  | dangling {c : Cursor} : c.current? = some '\\' → '\\' ≠ quote → c.peek 1 = .ok none →
      WalksQuoted quote c none c
  | plain {c c₁ c' : Cursor} {ch : Char} {text : Option (List Char)} : c.current? = some ch →
      ch ≠ quote → ch ≠ '\\' → c.advance 1 = .ok c₁ → WalksQuoted quote c₁ text c' →
      WalksQuoted quote c (text.map (ch :: ·)) c'
  | ended {c : Cursor} : c.current? = none → WalksQuoted quote c none c

/-- A loop that takes characters ends: each round leaves fewer of them. -/
theorem exists_walks (p : Char → Bool) (c : Cursor) (hfit : c.length < UInt64.size) :
    ∃ text c', c.Walks p text c' := by
  generalize hcs : c.rest = cs
  induction cs generalizing c with
  | nil => exact ⟨[], c, .stop (by simp [current?_of_rest_nil hcs])⟩
  | cons ch cs ih =>
    obtain ⟨hcurrent, hrest⟩ := current?_of_rest_cons hcs
    by_cases hch : p ch
    · obtain ⟨text, c', hwalk⟩ := ih (c.skip 1) hfit hrest
      exact ⟨ch :: text, c', .next hcurrent hch (advance_one hfit hcurrent) hwalk⟩
    · exact ⟨[], c, .stop (by simp [hcurrent, hch])⟩

/-- Such a loop takes all characters up to the first that does not satisfy `p`. -/
theorem Walks.eq {p : Char → Bool} {text : List Char} (h : c.Walks p text c') :
    text = c.rest.takeWhile p ∧ c' = c.skip text.length := by
  induction h with
  | stop hstop =>
    rw [current?_eq_head?] at hstop
    exact ⟨(Recognizer.takeWhile_eq_nil_iff_head?.2 hstop).symm, rfl⟩
  | next hcurrent hch hstep _ ih =>
    obtain rfl := eq_skip_one hcurrent hstep
    obtain ⟨htext, hc'⟩ := ih
    constructor
    · rw [rest_of_current? hcurrent, List.takeWhile_cons_of_pos hch, ← htext]
    · rw [hc', skip_skip, List.length_cons, Nat.add_comm]

theorem Walks.ne_nil {p : Char → Bool} {text : List Char} (h : c.Walks p text c')
    (hcurrent : c.current? = some ch) (hch : p ch) : text ≠ [] := by
  cases h with
  | stop hstop => exact absurd hch (hstop ch hcurrent)
  | next => exact List.cons_ne_nil _ _

/-- The loop behind an opening quote ends, although it may take two characters at a time. -/
theorem exists_walksQuoted (quote : Char) (c : Cursor) (hfit : c.length < UInt64.size) :
    ∃ text c', c.WalksQuoted quote text c' := by
  generalize hcs : c.rest = cs
  induction cs using Recognizer.quotedTail.induct quote generalizing c with
  | case1 => exact ⟨none, c, .ended (current?_of_rest_nil hcs)⟩
  | case2 cs =>
    obtain ⟨hcurrent, -⟩ := current?_of_rest_cons hcs
    exact ⟨some [], c.skip 1, .close hcurrent (advance_one hfit hcurrent)⟩
  | case3 hquote =>
    obtain ⟨hcurrent, hrest⟩ := current?_of_rest_cons hcs
    have hpeek : c.peek 1 = .ok none := by
      rw [peek_one hfit hcurrent, current?_of_rest_nil hrest]
    exact ⟨none, c, .dangling hcurrent hquote hpeek⟩
  | case4 ch cs hquote ih =>
    obtain ⟨hcurrent, hrest⟩ := current?_of_rest_cons hcs
    obtain ⟨hnext, hrest⟩ := current?_of_rest_cons hrest
    rw [skip_skip] at hrest
    obtain ⟨text, c', hwalk⟩ := ih (c.skip 2) hfit hrest
    have hpeek : c.peek 1 = .ok (some ch) := by
      rw [peek_one hfit hcurrent, hnext]
    exact ⟨_, c', .escaped hcurrent hquote hpeek (standsFor_unescape ch) (advance_two hfit hnext)
      hwalk⟩
  | case5 ch cs hquote hbackslash ih =>
    obtain ⟨hcurrent, hrest⟩ := current?_of_rest_cons hcs
    obtain ⟨text, c', hwalk⟩ := ih (c.skip 1) hfit hrest
    exact ⟨_, c', .plain hcurrent hquote hbackslash (advance_one hfit hcurrent) hwalk⟩

/-- The loop behind an opening quote gets to the text in front of the closing quote, if there is
    one. Wherever it ends, it has not changed the text. -/
theorem WalksQuoted.eq {quote : Char} {text : Option (List Char)}
    (h : c.WalksQuoted quote text c') :
    text = (Recognizer.quotedTail quote c.rest).map (·.text) ∧ c'.input = c.input ∧
      ∀ l ∈ Recognizer.quotedTail quote c.rest, c' = c.skip l.width := by
  induction h with
  | close hcurrent hstep =>
    obtain rfl := eq_skip_one hcurrent hstep
    rw [rest_of_current? hcurrent, Recognizer.quotedTail_close]
    exact ⟨rfl, rfl, fun l hl => Option.some.inj hl ▸ rfl⟩
  | escaped hcurrent hquote hpeek he hstep _ ih =>
    have hnext := current?_of_peek_one hpeek
    obtain rfl := eq_skip_two hnext hstep
    obtain ⟨rfl, hinput, hend⟩ := ih
    rw [rest_of_current? hcurrent, rest_of_current? hnext, skip_skip,
      Recognizer.quotedTail_escaped hquote.symm he, Option.map_map, Option.map_map]
    refine ⟨rfl, hinput, fun l hl => ?_⟩
    obtain ⟨tail, htail, rfl⟩ := Option.map_eq_some_iff.1 hl
    rw [hend tail htail, skip_skip, Nat.add_comm]
  | dangling hcurrent hquote hpeek =>
    have hnext := current?_of_peek_one hpeek
    rw [current?_eq_head?, List.head?_eq_none_iff] at hnext
    rw [rest_of_current? hcurrent, hnext, Recognizer.quotedTail_dangling hquote.symm]
    exact ⟨rfl, rfl, fun l hl => by cases hl⟩
  | plain hcurrent hquote hbackslash hstep _ ih =>
    obtain rfl := eq_skip_one hcurrent hstep
    obtain ⟨rfl, hinput, hend⟩ := ih
    rw [rest_of_current? hcurrent, Recognizer.quotedTail_plain hquote hbackslash, Option.map_map,
      Option.map_map]
    refine ⟨rfl, hinput, fun l hl => ?_⟩
    obtain ⟨tail, htail, rfl⟩ := Option.map_eq_some_iff.1 hl
    rw [hend tail htail, skip_skip, Nat.add_comm]
  | ended hcurrent =>
    rw [current?_eq_head?, List.head?_eq_none_iff] at hcurrent
    rw [hcurrent]
    exact ⟨rfl, rfl, fun l hl => by cases hl⟩

end Cursor

/-! ## Attempts -/

namespace Recognizer

open Cursor

/-- A recognizer looks for a lexeme at a cursor, step by step. It comes back with a token or with
    nothing, and leaves the cursor somewhere. A quoted text that is not closed has been walked
    through to its end before that is noticed, so the cursor has to be put back. -/
inductive Attempts : Recognizer → Cursor → Option Token → Cursor → Prop
  | blanks {c c' : Cursor} {text : List Char} : c.Walks Text.isBlank text c' → text ≠ [] →
      Attempts blank c (some ⟨.blank, String.ofList text, c.position⟩) c'
  | noBlanks {c c' : Cursor} : c.Walks Text.isBlank [] c' → Attempts blank c none c'
  | symbol {c c' : Cursor} {char : Char} {kind : TokenKind} : c.current? = some char →
      c.advance 1 = .ok c' →
      Attempts (symbol char kind) c (some ⟨kind, String.ofList [char], c.position⟩) c'
  | noSymbol {c : Cursor} {char : Char} {kind : TokenKind} : c.current? ≠ some char →
      Attempts (symbol char kind) c none c
  | quoted {c c₁ c' : Cursor} {quote : Char} {text : List Char} : c.current? = some quote →
      isQuote quote → c.advance 1 = .ok c₁ → c₁.WalksQuoted quote (some text) c' →
      Attempts quoted c (some ⟨.quoted, String.ofList text, c.position⟩) c'
  | unclosed {c c₁ c' : Cursor} {quote : Char} : c.current? = some quote → isQuote quote →
      c.advance 1 = .ok c₁ → c₁.WalksQuoted quote none c' →
      Attempts quoted c none (c'.reset c.position)
  | noQuote {c : Cursor} : (∀ quote ∈ c.current?, ¬ isQuote quote) → Attempts quoted c none c
  | number {c c' : Cursor} {digit : Char} {text : List Char} : c.current? = some digit →
      digit.isDigit → c.Walks Char.isDigit text c' →
      Attempts number c (some ⟨.number, String.ofList text, c.position⟩) c'
  | negative {c c₁ c' : Cursor} {digit : Char} {text : List Char} : c.current? = some '-' →
      c.peek 1 = .ok (some digit) → digit.isDigit → c.advance 1 = .ok c₁ →
      c₁.Walks Char.isDigit text c' →
      Attempts number c (some ⟨.number, String.ofList ('-' :: text), c.position⟩) c'
  | loneMinus {c : Cursor} {shown : Option Char} : c.current? = some '-' → c.peek 1 = .ok shown →
      (∀ ch ∈ shown, ¬ ch.isDigit) → Attempts number c none c
  | noNumber {c : Cursor} : (∀ ch ∈ c.current?, ch ≠ '-' ∧ ¬ ch.isDigit) →
      Attempts number c none c
  | name {c c' : Cursor} {start : Char} {text : List Char} : c.current? = some start →
      isNameStart start → c.Walks isNameChar text c' →
      Attempts name c (some ⟨.name, String.ofList text, c.position⟩) c'
  | noName {c : Cursor} : (∀ start ∈ c.current?, ¬ isNameStart start) → Attempts name c none c

variable {c c' : Cursor} {r : Recognizer} {found : Option Token}

/-- Every attempt comes to an end. -/
theorem exists_attempts (r : Recognizer) (c : Cursor) (hfit : c.length < UInt64.size) :
    ∃ found c', r.Attempts c found c' := by
  cases r with
  | blank =>
    obtain ⟨text, c', hwalk⟩ := exists_walks Text.isBlank c hfit
    cases text with
    | nil => exact ⟨none, c', .noBlanks hwalk⟩
    | cons ch text => exact ⟨_, c', .blanks hwalk (List.cons_ne_nil ch text)⟩
  | symbol char kind =>
    by_cases hcurrent : c.current? = some char
    · exact ⟨_, _, .symbol hcurrent (advance_one hfit hcurrent)⟩
    · exact ⟨_, _, .noSymbol hcurrent⟩
  | quoted =>
    by_cases hstart : ∃ quote ∈ c.current?, isQuote quote
    · obtain ⟨quote, hcurrent, hquote⟩ := hstart
      have hstep := advance_one hfit hcurrent
      obtain ⟨text, c', hwalk⟩ := exists_walksQuoted quote (c.skip 1) hfit
      cases text with
      | none => exact ⟨_, _, .unclosed hcurrent hquote hstep hwalk⟩
      | some text => exact ⟨_, _, .quoted hcurrent hquote hstep hwalk⟩
    · exact ⟨_, _, .noQuote (by simpa using hstart)⟩
  | number =>
    by_cases hminus : c.current? = some '-'
    · have hpeek := peek_one hfit hminus
      by_cases hstart : ∃ digit ∈ (c.skip 1).current?, digit.isDigit
      · obtain ⟨digit, hnext, hdigit⟩ := hstart
        rw [hnext] at hpeek
        obtain ⟨text, c', hwalk⟩ := exists_walks Char.isDigit (c.skip 1) hfit
        exact ⟨_, _, .negative hminus hpeek hdigit (advance_one hfit hminus) hwalk⟩
      · exact ⟨_, _, .loneMinus hminus hpeek (by simpa using hstart)⟩
    · by_cases hstart : ∃ digit ∈ c.current?, digit.isDigit
      · obtain ⟨digit, hcurrent, hdigit⟩ := hstart
        obtain ⟨text, c', hwalk⟩ := exists_walks Char.isDigit c hfit
        exact ⟨_, _, .number hcurrent hdigit hwalk⟩
      · refine ⟨_, _, .noNumber fun ch hch => ⟨?_, fun hdigit => hstart ⟨ch, hch, hdigit⟩⟩⟩
        rintro rfl
        exact hminus hch
  | name =>
    by_cases hstart : ∃ start ∈ c.current?, isNameStart start
    · obtain ⟨start, hcurrent, hname⟩ := hstart
      obtain ⟨text, c', hwalk⟩ := exists_walks isNameChar c hfit
      exact ⟨_, _, .name hcurrent hname hwalk⟩
    · exact ⟨_, _, .noName (by simpa using hstart)⟩

/-! ## What attempts come to -/

/-- The recognizer takes a token at the cursor `c`, and leaves the cursor behind it; or it takes
    nothing, and leaves the cursor where it was. -/
inductive Takes (r : Recognizer) (c : Cursor) : Option Token → Cursor → Prop
  | token {token : Token} {c' : Cursor} : c.take? r = some (token, c') →
      Takes r c (some token) c'
  | nothing : c.take? r = none → Takes r c none c

theorem takes_of_lexeme? {l : Lexeme} (h : r.lexeme? c.rest = some l) :
    r.Takes c (some ⟨r.kind, String.ofList l.text, c.position⟩) (c.skip l.width) := by
  refine .token ?_
  rw [take?, step?, h]
  rfl

theorem takes_of_declined (h : r.lexeme? c.rest = none) : r.Takes c none c := by
  refine .nothing ?_
  rw [take?, step?, h]
  rfl

/-- Where a recognizer looks for a run of characters, a loop that takes some of them takes its
    token. -/
theorem takes_of_walks {p : Char → Bool} {text : List Char} (h : c.Walks p text c')
    (hne : text ≠ []) (hrun : r.lexeme? c.rest = run (c.rest.takeWhile p)) :
    r.Takes c (some ⟨r.kind, String.ofList text, c.position⟩) c' := by
  obtain ⟨htext, rfl⟩ := h.eq
  rw [← htext, run_of_ne_nil hne] at hrun
  exact takes_of_lexeme? hrun

/-- A recognizer declines where none of its lexemes starts. -/
theorem takes_of_not_startsWith (h : ∀ ch ∈ c.current?, ¬ r.startsWith ch) :
    r.Takes c none c := by
  refine takes_of_declined (Option.eq_none_iff_forall_ne_some.2 fun l hread => ?_)
  obtain ⟨ch, cs, hrest, hch⟩ := lexeme?_startsWith hread
  exact h ch (current?_of_rest_cons hrest).1 hch

/-- A cursor that has only been moved can be put back. -/
theorem reset_position {ch : Char} (hcurrent : c.current? = some ch)
    (hinput : c'.input = c.input) : c'.reset c.position = c := by
  have hinside : c.position ≤ c'.length := by
    rw [Cursor.length, hinput]
    exact Nat.le_of_lt (position_lt_of_current? hcurrent)
  rw [reset, hinput, Nat.min_eq_left hinside]

theorem takes_of_attempts_blank (h : blank.Attempts c found c') : blank.Takes c found c' := by
  cases h with
  | blanks hwalk hne => exact takes_of_walks hwalk hne (by rw [lexeme?])
  | noBlanks hwalk =>
    obtain ⟨htext, rfl⟩ := hwalk.eq
    refine takes_of_declined ?_
    rw [lexeme?, ← htext]
    rfl

theorem takes_of_attempts_symbol {char : Char} {kind : TokenKind}
    (h : (symbol char kind).Attempts c found c') : (symbol char kind).Takes c found c' := by
  cases h with
  | symbol hcurrent hstep =>
    obtain rfl := eq_skip_one hcurrent hstep
    refine takes_of_lexeme? (l := ⟨[char], 1⟩) ?_
    rw [rest_of_current? hcurrent, lexeme?_symbol]
  | noSymbol hcurrent =>
    refine takes_of_not_startsWith ?_
    rintro ch hch rfl
    exact hcurrent hch

theorem takes_of_attempts_quoted (h : quoted.Attempts c found c') : quoted.Takes c found c' := by
  cases h with
  | quoted hcurrent hquote hstep hwalk =>
    obtain rfl := eq_skip_one hcurrent hstep
    obtain ⟨htext, -, hend⟩ := hwalk.eq
    obtain ⟨tail, htail, rfl⟩ := Option.map_eq_some_iff.1 htext.symm
    rw [hend tail htail, skip_skip, Nat.add_comm]
    refine takes_of_lexeme? (l := ⟨tail.text, tail.width + 1⟩) ?_
    rw [rest_of_current? hcurrent, lexeme?, if_pos hquote, htail, Option.map_some]
  | unclosed hcurrent hquote hstep hwalk =>
    obtain rfl := eq_skip_one hcurrent hstep
    -- wherever the loop has ended, it is the same text
    obtain ⟨htext, hinput, -⟩ := hwalk.eq
    rw [reset_position hcurrent hinput]
    refine takes_of_declined ?_
    rw [rest_of_current? hcurrent, lexeme?, if_pos hquote, Option.map_eq_none_iff]
    exact Option.map_eq_none_iff.1 htext.symm
  | noQuote hcurrent => exact takes_of_not_startsWith hcurrent

theorem takes_of_attempts_number (h : number.Attempts c found c') : number.Takes c found c' := by
  cases h with
  | @number _ _ digit _ hcurrent hdigit hwalk =>
    have hminus : digit ≠ '-' := by
      rintro rfl
      cases hdigit
    refine takes_of_walks hwalk (hwalk.ne_nil hcurrent hdigit) ?_
    rw [rest_of_current? hcurrent, lexeme?_number_of_ne_minus hminus]
  | @negative _ _ _ _ text hcurrent hpeek hdigit hstep hwalk =>
    obtain rfl := eq_skip_one hcurrent hstep
    have hnext := current?_of_peek_one hpeek
    -- the loop starts behind the minus sign, which belongs to the lexeme
    obtain ⟨htext, hc'⟩ := hwalk.eq
    rw [hc', skip_skip, Nat.add_comm]
    refine takes_of_lexeme? (l := ⟨'-' :: text, text.length + 1⟩) ?_
    rw [rest_of_current? hcurrent, lexeme?, ← htext, run_of_ne_nil (hwalk.ne_nil hnext hdigit),
      Option.map_some]
  | loneMinus hcurrent hpeek hshown =>
    rw [← current?_of_peek_one hpeek, current?_eq_head?] at hshown
    refine takes_of_declined ?_
    rw [rest_of_current? hcurrent, lexeme?, takeWhile_eq_nil_iff_head?.2 hshown]
    rfl
  | noNumber hcurrent =>
    exact takes_of_not_startsWith fun ch hch => not_or.2 (hcurrent ch hch)

theorem takes_of_attempts_name (h : name.Attempts c found c') : name.Takes c found c' := by
  cases h with
  | name hcurrent hstart hwalk =>
    have hchar := isNameChar_iff.2 (.inl hstart)
    refine takes_of_walks hwalk (hwalk.ne_nil hcurrent hchar) ?_
    rw [rest_of_current? hcurrent, lexeme?, if_pos hstart]
  | noName hcurrent => exact takes_of_not_startsWith hcurrent

/-- An attempt comes back with the token that the recognizer takes, and leaves the cursor behind
    it. If it comes back with nothing, it leaves the cursor where it was. -/
theorem Attempts.takes (h : r.Attempts c found c') : r.Takes c found c' := by
  cases r with
  | blank => exact takes_of_attempts_blank h
  | symbol char kind => exact takes_of_attempts_symbol h
  | quoted => exact takes_of_attempts_quoted h
  | number => exact takes_of_attempts_number h
  | name => exact takes_of_attempts_name h

end Recognizer

/-! ## Readings -/

namespace Reading

variable {x : Reading} {r : Recognizer}

/-- A recognizer reads on step by step, and says whether it has read a token. -/
inductive ReadsStepwise (x : Reading) (r : Recognizer) : Bool × Reading → Prop
  | accepts {token : Token} {c' : Cursor} : r.Attempts x.cursor (some token) c' →
      ReadsStepwise x r (true, ⟨c', x.tokens ++ [token]⟩)
  | declines {c' : Cursor} : r.Attempts x.cursor none c' →
      ReadsStepwise x r (false, ⟨c', x.tokens⟩)

theorem readsStepwise_iff (hfit : x.cursor.length < UInt64.size) (y : Bool × Reading) :
    x.ReadsStepwise r y ↔ y = x.read r := by
  constructor
  · intro h
    cases h with
    | accepts h =>
      cases h.takes with
      | token htake => rw [read, htake]
    | declines h =>
      cases h.takes with
      | nothing htake => rw [read, htake]
  · rintro rfl
    obtain ⟨found, c', h⟩ := r.exists_attempts x.cursor hfit
    cases h.takes with
    | token htake =>
      rw [read, htake]
      exact .accepts h
    | nothing htake =>
      rw [read, htake]
      exact .declines h

/-- A recognizer declines and changes nothing; or it accepts, moves the cursor on by at least one
    place but not out of the text, and adds one token of its kind that starts where the cursor
    was. -/
theorem read_cases (x : Reading) (r : Recognizer) :
    x.read r = (false, x) ∨
      ∃ token c', x.read r = (true, ⟨c', x.tokens ++ [token]⟩) ∧ c'.input = x.cursor.input ∧
        x.cursor.position < c'.position ∧ c'.position ≤ x.cursor.length ∧
        token.position = x.cursor.position ∧ token.kind = r.kind := by
  rw [read]
  split
  · rename_i token c' htake
    obtain ⟨hinput, hforward, hinside⟩ := Cursor.position_of_take? htake
    obtain ⟨s, hs, heq⟩ := Option.map_eq_some_iff.1 htake
    obtain ⟨l, -, rfl⟩ := Option.map_eq_some_iff.1 hs
    obtain ⟨rfl, -⟩ := Prod.mk.inj heq
    exact .inr ⟨_, c', rfl, hinput, hforward, hinside, rfl, rfl⟩
  · exact .inl rfl

/-! ## Rounds -/

/-- One round of a scan: the recognizers of a chain are asked one after the other, each going on
    from what the one before it has left, until one accepts. -/
def round (x : Reading) : List Recognizer → Bool × Reading
  | [] => (false, x)
  | r :: chain =>
    match x.read r with
    | (true, y) => (true, y)
    | (false, y) => y.round chain

/-- The scan of a text as a loop, cut off if it has not come to its end after a number of rounds.
    It ends at the end of the text, or with the first round in which no recognizer accepts. -/
def drive (chain : List Recognizer) (rounds : Nat) (x : Reading) :
    Option (Except StrayChar (List Token)) :=
  if x.cursor.atEnd then some (.ok x.tokens)
  else
    match rounds with
    | 0 => none
    | rounds + 1 =>
      match x.round chain with
      | (true, y) => drive chain rounds y
      | (false, y) => some (.error ⟨y.cursor.current?.getD '\x00', y.cursor.position⟩)

/-- A round makes the step of the first recognizer that accepts. -/
theorem round_eq (x : Reading) (chain : List Recognizer) : x.round chain =
    match firstStep? chain x.cursor.position x.cursor.rest with
    | some s => (true, ⟨x.cursor.skip s.width, x.tokens ++ [s.token]⟩)
    | none => (false, x) := by
  induction chain with
  | nil => rfl
  | cons r chain ih =>
    rw [round, firstStep?, List.findSome?_cons, read, Cursor.take?]
    cases r.step? x.cursor.position x.cursor.rest with
    | none => exact ih
    | some s => rfl

variable {chain : List Recognizer} {rounds : Nat}

theorem drive_at_end (h : x.cursor.rest = []) : x.drive chain rounds = some (.ok x.tokens) := by
  rw [drive.eq_def, if_pos (Cursor.atEnd_iff.2 h)]

/-- In front of a character, one more round is run. -/
theorem drive_succ {ch : Char} {cs : List Char} (h : x.cursor.rest = ch :: cs) :
    x.drive chain (rounds + 1) =
      match firstStep? chain x.cursor.position (ch :: cs) with
      | some s => drive chain rounds ⟨x.cursor.skip s.width, x.tokens ++ [s.token]⟩
      | none => some (.error ⟨ch, x.cursor.position⟩) := by
  have hend : ¬ x.cursor.atEnd := by
    rw [Cursor.atEnd_iff, h]
    exact List.cons_ne_nil ch cs
  rw [drive, if_neg hend, round_eq, h]
  cases firstStep? chain x.cursor.position (ch :: cs) with
  | none =>
    show some (Except.error (StrayChar.mk (x.cursor.current?.getD _) _)) = _
    rw [(Cursor.current?_of_rest_cons h).1, Option.getD_some]
  | some s => rfl

/-- From any reading on, the loop has come to its end after as many rounds as there are characters
    left, and ends as the scan of these characters does. -/
theorem drive_eq_scanFrom (h : x.cursor.rest.length ≤ rounds) : x.drive chain rounds =
    some ((scanFrom chain x.cursor.position x.cursor.rest).map (x.tokens ++ ·)) := by
  induction rounds generalizing x with
  | zero =>
    have hrest : x.cursor.rest = [] := List.length_eq_zero_iff.1 (Nat.le_zero.1 h)
    rw [drive_at_end hrest, hrest, scanFrom, Except.map, List.append_nil]
  | succ rounds ih =>
    cases hrest : x.cursor.rest with
    | nil => rw [drive_at_end hrest, scanFrom, Except.map, List.append_nil]
    | cons ch cs =>
      rw [drive_succ hrest]
      cases hstep : firstStep? chain x.cursor.position (ch :: cs) with
      | none =>
        rw [scanFrom_of_declined hstep]
        rfl
      | some s =>
        -- the lexeme takes at least one of the characters that are left
        obtain ⟨hpos, -⟩ := firstStep?_width hstep
        have hleft : (x.cursor.skip s.width).rest.length ≤ rounds := by
          rw [Cursor.rest_skip, List.length_drop]
          omega
        rw [scanFrom_of_firstStep? hstep, ← hrest, ← Cursor.rest_skip]
        dsimp only
        rw [ih hleft]
        show some ((scanFrom chain (x.cursor.position + s.width) _).map _) = _
        cases scanFrom chain (x.cursor.position + s.width) (x.cursor.skip s.width).rest with
        | error stray => rfl
        | ok ts => exact congrArg (some ∘ Except.ok) (List.append_assoc x.tokens [s.token] ts)

/-- Every recognizer keeps to its contract, in every reading: it declines and changes neither the
    cursor nor the tokens; or it accepts, moves the cursor on by at least one place and at most to
    the end of the text, and adds exactly one token, of its own kind and at the old position. In a
    text of fewer characters than there are words, the same comes of its single steps, which end
    in every case, and end in one way. So the scan of a text ends, whatever recognizers are asked,
    and does so after at most as many rounds as the text has characters. -/
theorem read_contract_and_scan_ends :
    (∀ (x : Reading) (r : Recognizer), x.read r = (false, x) ∨
      ∃ token c', x.read r = (true, ⟨c', x.tokens ++ [token]⟩) ∧ c'.input = x.cursor.input ∧
        x.cursor.position < c'.position ∧ c'.position ≤ x.cursor.length ∧
        token.position = x.cursor.position ∧ token.kind = r.kind) ∧
    (∀ (x : Reading) (r : Recognizer) (y : Bool × Reading), x.cursor.length < UInt64.size →
      (x.ReadsStepwise r y ↔ y = x.read r)) ∧
    ∀ (chain : List Recognizer) (input : String) (rounds : Nat), input.length ≤ rounds →
      (ofString input).drive chain rounds = some (scan chain input) := by
  refine ⟨read_cases, fun x r y hfit => readsStepwise_iff hfit y, fun chain input rounds h => ?_⟩
  have hrest : (ofString input).cursor.rest = input.toList := List.drop_zero
  have hrounds : (ofString input).cursor.rest.length ≤ rounds := by
    rwa [hrest, String.length_toList]
  rw [drive_eq_scanFrom hrounds, hrest]
  show some ((scan chain input).map ([] ++ ·)) = _
  cases scan chain input with
  | error stray => rfl
  | ok ts => rfl

/-- A quoted text that is not closed and ends with a backslash: its recognizer walks to the end of
    the text and goes back, and the scan ends in its second round. -/
theorem read_contract_and_scan_ends_unclosed :
    let text := "a\"b\\"
    let x : Reading := ⟨⟨text.toList, 1⟩, [⟨.name, "a", 0⟩]⟩
    x.cursor.length < UInt64.size ∧ x.read .quoted = (false, x) ∧
      (∀ y, x.ReadsStepwise .quoted y ↔ y = (false, x)) ∧
      text.length = 4 ∧
      (ofString text).drive Recognizer.standard 4 = some (.error ⟨'\x22', 1⟩) := by
  intro text x
  have hfit : x.cursor.length < UInt64.size := by decide
  have hread : x.read .quoted = (false, x) := by decide
  have hscan : scan Recognizer.standard text = .error ⟨'\x22', 1⟩ := by decide +kernel
  obtain ⟨-, hstepwise, hends⟩ := read_contract_and_scan_ends
  refine ⟨hfit, hread, fun y => ?_, by decide, ?_⟩
  · rw [hstepwise x .quoted y hfit, hread]
  · rw [hends Recognizer.standard text 4 (by decide), hscan]

end Reading

end TreeQuery
