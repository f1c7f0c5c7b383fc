import Mathlib.Data.List.Basic
import TreeQuery.Proofs.Lexing

/-!
# Tokens tile a text

Recognizers of any kind may be asked in any order. The tokens that they make of a text lie one
behind the other and leave nothing out; and where the scan of a text fails, it would have come to
its end if the text had ended there.

Results:
* `Recognizer.lexeme?_spells`: what a recognizer takes a lexeme for. The text of a token is the
  lexeme itself, but for quoted tokens, whose text is what stands between the quotes, with each
  escaped character as what it stands for.
* `Recognizer.local_lexeme?`: no recognizer looks behind its lexeme in order to accept, and none
  declines because a text goes on.
* `Tiling`, `Stuck`: what a scan that comes to its end says, and what one says that fails.
* `scan_tiles_or_sticks`: every scan, with any recognizers, says the one or the other.
* `scan_eq_of_same_recognizers`: the recognizers for selectors may be asked in any order.
-/

namespace TreeQuery

/-! ## What lexemes stand for -/

namespace Recognizer

/-- The text that a recognizer takes a lexeme for. -/
def Spells (r : Recognizer) (lexeme text : List Char) : Prop :=
  match r with
  | quoted => ∃ quote body, isQuote quote ∧ lexeme = quote :: (body ++ [quote]) ∧
      Unescapes quote body text
  | _ => text = lexeme

theorem isQuote_ne_backslash {quote : Char} (h : isQuote quote) : quote ≠ '\\' := by
  rcases isQuote_iff.1 h with rfl | rfl <;> decide

theorem run_takeWhile_spells {p : Char → Bool} {cs : List Char} {l : Lexeme}
    (h : run (cs.takeWhile p) = some l) : l.text = cs.take l.width := by
  obtain ⟨-, hwidth, htext⟩ := run_width h
  rw [htext, hwidth]
  exact List.prefix_iff_eq_take.1 (List.takeWhile_prefix p)

/-- A recognizer takes the characters of its lexeme for what they are, or for what stands between
    two quotes. -/
theorem lexeme?_spells {r : Recognizer} {cs : List Char} {l : Lexeme}
    (h : r.lexeme? cs = some l) : r.Spells (cs.take l.width) l.text := by
  unfold lexeme? at h
  split at h
  · exact run_takeWhile_spells h
  · cases h
  · split_ifs at h with hc
    cases h
    simp [Spells, hc]
  · cases h
  · split_ifs at h with hc
    obtain ⟨tail, htail, rfl⟩ := Option.map_eq_some_iff.1 h
    obtain ⟨body, rest, rfl, hwidth, hbody⟩ := quotedTail_sound htail
    refine ⟨_, body, hc, ?_, hbody⟩
    rw [hwidth, List.take_succ_cons, List.take_length_add_append, List.take_one]
    rfl
  · obtain ⟨digits, hdigits, rfl⟩ := Option.map_eq_some_iff.1 h
    have htext := run_takeWhile_spells hdigits
    simp [Spells, htext]
  · exact run_takeWhile_spells h
  · cases h
  · split_ifs at h with hc
    exact run_takeWhile_spells h

/-! ## Lexemes and what is behind them -/

/-- A reader that does not look behind the lexeme it finds: if a text is cut off behind a lexeme,
    the same lexeme is found; and if no lexeme is found in a text, there is none in a text that
    ends earlier. -/
structure Local (read : List Char → Option Lexeme) : Prop where
  take : ∀ {cs : List Char} {l : Lexeme} {n : Nat}, read cs = some l → l.width ≤ n →
    read (cs.take n) = some l
  take_eq_none : ∀ {cs : List Char} (n : Nat), read cs = none → read (cs.take n) = none

theorem local_run (p : Char → Bool) : Local fun cs => run (cs.takeWhile p) where
  take := by
    intro cs l n h hn
    obtain ⟨-, hwidth, -⟩ := run_width h
    rw [← List.take_takeWhile, List.take_of_length_le (by omega)]
    exact h
  take_eq_none := by
    intro cs n h
    have hnil : cs.takeWhile p = [] := by
      by_contra hne
      rw [run_of_ne_nil hne] at h
      cases h
    rw [← List.take_takeWhile, hnil, List.take_nil]
    rfl

theorem local_quotedTail {quote : Char} (hquote : quote ≠ '\\') : Local (quotedTail quote) where
  take := by
    intro cs l n h hn
    obtain ⟨body, rest, rfl, hwidth, hbody⟩ := quotedTail_sound h
    -- the closing quote is still there
    obtain ⟨k, rfl⟩ : ∃ k, n = body.length + (k + 1) := ⟨n - l.width, by omega⟩
    rw [List.take_length_add_append, List.take_succ_cons, quotedTail_complete hquote hbody,
      ← hwidth]
  take_eq_none := by
    intro cs n h
    cases hfront : quotedTail quote (cs.take n) with
    | none => rfl
    | some l =>
      -- a text that is closed in front of the cut is closed in the whole
      obtain ⟨body, rest, hcs, -, hbody⟩ := quotedTail_sound hfront
      have hwhole := quotedTail_complete hquote hbody (rest ++ cs.drop n)
      rw [← List.cons_append, ← List.append_assoc, ← hcs, List.take_append_drop, h] at hwhole
      cases hwhole

theorem lexeme?_nil (r : Recognizer) : r.lexeme? [] = none := by
  cases r <;> rfl

/-- To be local, a recognizer need only be so on texts that go on behind the first character. -/
theorem local_of_cons {r : Recognizer}
    (hsome : ∀ c cs l n, r.lexeme? (c :: cs) = some l → l.width ≤ n + 1 →
      r.lexeme? (c :: cs.take n) = some l)
    (hnone : ∀ c cs n, r.lexeme? (c :: cs) = none → r.lexeme? (c :: cs.take n) = none) :
    Local r.lexeme? where
  take := by
    intro cs l n h hn
    obtain ⟨hpos, hle⟩ := lexeme?_width h
    cases n with
    | zero => omega
    | succ n =>
      cases cs with
      | nil => exact h
      | cons c cs => exact hsome c cs l n h hn
  take_eq_none := by
    intro cs n h
    cases n with
    | zero => exact r.lexeme?_nil
    | succ n =>
      cases cs with
      | nil => exact h
      | cons c cs => exact hnone c cs n h

theorem lexeme?_number_of_ne_minus {c : Char} (hc : c ≠ '-') (cs : List Char) :
    number.lexeme? (c :: cs) = run ((c :: cs).takeWhile Char.isDigit) := by
  rw [lexeme?]
  rintro tail heq
  exact hc (List.cons.inj heq).1

theorem local_number : Local number.lexeme? := by
  have hdigits := local_run Char.isDigit
  refine local_of_cons (fun c cs l n h hn => ?_) fun c cs n h => ?_
  · by_cases hc : c = '-'
    · subst hc
      rw [lexeme?] at h ⊢
      obtain ⟨digits, hread, rfl⟩ := Option.map_eq_some_iff.1 h
      have hle : digits.width ≤ n := Nat.le_of_succ_le_succ hn
      rw [hdigits.take hread hle]
      rfl
    · rw [lexeme?_number_of_ne_minus hc] at h ⊢
      exact hdigits.take h hn
  · by_cases hc : c = '-'
    · subst hc
      rw [lexeme?, Option.map_eq_none_iff] at h ⊢
      exact hdigits.take_eq_none n h
    · rw [lexeme?_number_of_ne_minus hc] at h ⊢
      exact hdigits.take_eq_none (n + 1) h

/-- No recognizer looks behind its lexeme. -/
theorem local_lexeme? (r : Recognizer) : Local r.lexeme? := by
  cases r with
  | blank => exact local_run Text.isBlank
  | symbol char kind =>
    refine local_of_cons (fun c cs l n h hn => ?_) fun c cs n h => ?_
    · exact h
    · exact h
  | quoted =>
    refine local_of_cons (fun c cs l n h hn => ?_) fun c cs n h => ?_
    · rw [lexeme?] at h ⊢
      split_ifs at h ⊢ with hc
      obtain ⟨tail, htail, rfl⟩ := Option.map_eq_some_iff.1 h
      have hle : tail.width ≤ n := Nat.le_of_succ_le_succ hn
      rw [(local_quotedTail (isQuote_ne_backslash hc)).take htail hle]
      rfl
    · rw [lexeme?] at h ⊢
      split_ifs at h ⊢ with hc
      · rw [Option.map_eq_none_iff] at h ⊢
        exact (local_quotedTail (isQuote_ne_backslash hc)).take_eq_none n h
      · rfl
  | number => exact local_number
  | name =>
    have hrun := local_run isNameChar
    refine local_of_cons (fun c cs l n h hn => ?_) fun c cs n h => ?_
    · rw [lexeme?] at h ⊢
      split_ifs at h ⊢ with hc
      exact hrun.take h hn
    · rw [lexeme?] at h ⊢
      split_ifs at h ⊢ with hc
      · exact hrun.take_eq_none (n + 1) h
      · rfl

end Recognizer

/-! ## Steps -/

/-- The recognizer of a chain whose turn it is at the start of a text: it accepts, and those that
    are asked before it decline. -/
def Chosen (chain : List Recognizer) (cs : List Char) (r : Recognizer) : Prop :=
  ∃ before after, chain = before ++ r :: after ∧ (∀ r' ∈ before, r'.lexeme? cs = none) ∧
    r.lexeme? cs ≠ none

theorem firstStep?_eq_some_iff {chain : List Recognizer} {position : Nat} {cs : List Char}
    {s : Step} :
    firstStep? chain position cs = some s ↔
      ∃ r l, Chosen chain cs r ∧ r.lexeme? cs = some l ∧
        s = ⟨⟨r.kind, String.ofList l.text, position⟩, l.width⟩ := by
  unfold firstStep? Chosen
  rw [List.findSome?_eq_some_iff]
  constructor
  · rintro ⟨before, r, after, hchain, hstep, hbefore⟩
    obtain ⟨l, hl, rfl⟩ := Option.map_eq_some_iff.1 hstep
    refine ⟨r, l, ⟨before, after, hchain, fun r' hr' => ?_, by simp [hl]⟩, hl, rfl⟩
    exact Option.map_eq_none_iff.1 (hbefore r' hr')
  · rintro ⟨r, l, ⟨before, after, hchain, hbefore, -⟩, hl, rfl⟩
    refine ⟨before, r, after, hchain, ?_, fun r' hr' => ?_⟩
    · rw [Recognizer.step?, hl, Option.map_some]
    · rw [Recognizer.step?, hbefore r' hr', Option.map_none]

theorem firstStep?_eq_none_iff {chain : List Recognizer} {position : Nat} {cs : List Char} :
    firstStep? chain position cs = none ↔ ∀ r ∈ chain, r.lexeme? cs = none := by
  unfold firstStep? Recognizer.step?
  simp only [List.findSome?_eq_none_iff, Option.map_eq_none_iff]

/-- A step is made in the same way if the text is cut off behind it. -/
theorem firstStep?_take {chain : List Recognizer} {position : Nat} {cs : List Char} {s : Step}
    {n : Nat} (h : firstStep? chain position cs = some s) (hn : s.width ≤ n) :
    firstStep? chain position (cs.take n) = some s := by
  obtain ⟨r, l, ⟨before, after, hchain, hbefore, -⟩, hl, rfl⟩ := firstStep?_eq_some_iff.1 h
  have hread : r.lexeme? (cs.take n) = some l := r.local_lexeme?.take hl hn
  refine firstStep?_eq_some_iff.2 ⟨r, l, ⟨before, after, hchain, fun r' hr' => ?_, ?_⟩, hread, rfl⟩
  · exact r'.local_lexeme?.take_eq_none n (hbefore r' hr')
  · simp [hread]

/-! ## Scans that come to their end -/

/-- The token is what a chain makes of the characters of a text from the position of the token up
    to `stop`. -/
def Token.CutFrom (chain : List Recognizer) (cs : List Char) (t : Token) (stop : Nat) : Prop :=
  ∃ r, Chosen chain (cs.drop t.position) r ∧ t.kind = r.kind ∧
    r.Spells (cs.extract t.position stop) t.text.toList

/-- The places at which tokens cut a text: where they start, and the end of the text. -/
def cuts (cs : List Char) (ts : List Token) : List Nat :=
  ts.map (·.position) ++ [cs.length]

/-- From `start` on, a text is tiled by tokens. They start at `start` and one behind the other,
    and each is made of the characters up to the start of the next one, or up to the end. -/
structure Tiling (chain : List Recognizer) (cs : List Char) (start : Nat) (ts : List Token) :
    Prop where
  starts : (cuts cs ts).head? = some start
  increasing : (cuts cs ts).Pairwise (· < ·)
  cut : List.Forall₂ (Token.CutFrom chain cs) ts (cuts cs ts).tail

namespace Tiling

variable {chain : List Recognizer} {cs : List Char} {ts : List Token}

theorem nil : Tiling chain cs cs.length [] where
  starts := rfl
  increasing := List.pairwise_singleton _ _
  cut := .nil

/-- A token in front of a tiling that starts where its lexeme ends. -/
theorem cons {t : Token} {start stop : Nat} (hstart : t.position = start) (hlt : start < stop)
    (ht : t.CutFrom chain cs stop) (h : Tiling chain cs stop ts) :
    Tiling chain cs start (t :: ts) := by
  obtain ⟨others, hcuts⟩ := List.head?_eq_some_iff.1 h.starts
  have hincreasing := h.increasing
  have hcut := h.cut
  have hall : cuts cs (t :: ts) = start :: stop :: others := by
    rw [← hstart, ← hcuts]
    rfl
  rw [hcuts] at hincreasing hcut
  refine ⟨?_, ?_, ?_⟩
  · rw [hall, List.head?_cons]
  · rw [hall, List.pairwise_cons]
    refine ⟨fun q hq => ?_, hincreasing⟩
    rcases List.mem_cons.1 hq with rfl | hq
    · exact hlt
    · exact Nat.lt_trans hlt ((List.pairwise_cons.1 hincreasing).1 q hq)
  · rw [hall]
    exact .cons ht hcut

end Tiling

/-- A scan from some place on that comes to its end tiles the text from there on. -/
theorem scanFrom_tiling {chain : List Recognizer} {position : Nat} {rest cs : List Char}
    {ts : List Token} (hrest : rest = cs.drop position) (hposition : position ≤ cs.length)
    (h : scanFrom chain position rest = .ok ts) : Tiling chain cs position ts := by
  fun_induction scanFrom chain position rest generalizing ts with
  | case1 position =>
    cases h
    have hend : cs.length = position := by
      have := List.drop_eq_nil_iff.1 hrest.symm
      omega
    exact hend ▸ Tiling.nil
  | case2 => cases h
  | case3 position c rest s hstep ih =>
    obtain ⟨ts, hts, rfl⟩ := Result.map_eq_ok_iff.1 h
    obtain ⟨hpos, hwidth⟩ := firstStep?_width hstep
    obtain ⟨r, l, hchosen, hl, rfl⟩ := firstStep?_eq_some_iff.1 hstep
    rw [hrest] at hwidth ih hts hchosen hl
    rw [List.length_drop] at hwidth
    have htiling := ih (List.drop_drop ..) (by omega) hts
    refine .cons rfl (Nat.lt_add_of_pos_right hpos) ⟨r, hchosen, rfl, ?_⟩ htiling
    -- the lexeme is what lies between the two positions
    have hspells := Recognizer.lexeme?_spells hl
    simpa using hspells

/-! ## Scans that fail -/

/-- A text cannot be scanned further than up to a stray character: the text in front of it can be
    scanned, and there all recognizers decline. -/
structure Stuck (chain : List Recognizer) (cs : List Char) (stray : StrayChar) : Prop where
  character : ∃ h : stray.position < cs.length, cs[stray.position] = stray.character
  front : ∃ ts, scan chain (String.ofList (cs.take stray.position)) = .ok ts
  declined : ∀ r ∈ chain, r.lexeme? (cs.drop stray.position) = none

theorem scanFrom_stuck {chain : List Recognizer} {position : Nat} {cs : List Char}
    {stray : StrayChar} (h : scanFrom chain position cs = .error stray) :
    ∃ n, stray.position = position + n ∧ cs[n]? = some stray.character ∧
      (∃ ts, scanFrom chain position (cs.take n) = .ok ts) ∧
      ∀ r ∈ chain, r.lexeme? (cs.drop n) = none := by
  fun_induction scanFrom chain position cs with
  | case1 => cases h
  | case2 position c rest hnone =>
    cases h
    exact ⟨0, rfl, rfl, ⟨[], by rw [List.take_zero, scanFrom]⟩, firstStep?_eq_none_iff.1 hnone⟩
  | case3 position c rest s hstep ih =>
    obtain ⟨n, hposition, hchar, ⟨ts, hts⟩, hdeclined⟩ := ih (Result.map_eq_error_iff.1 h)
    refine ⟨s.width + n, by omega, ?_, ⟨s.token :: ts, ?_⟩, ?_⟩
    · rw [← hchar, List.getElem?_drop]
    · -- the first step is the same in front of the stray character
      have hfront := firstStep?_take (n := s.width + n) hstep (Nat.le_add_right ..)
      rw [scanFrom_of_firstStep? hfront, List.drop_take, Nat.add_sub_cancel_left, hts]
      rfl
    · rw [← List.drop_drop]
      exact hdeclined

/-! ## All scans -/

/-- Whatever recognizers are asked, and in whatever order: if a text can be scanned, its tokens
    tile it from its start to its end; and if not, the scan ends at a character at which all
    recognizers decline, while the text in front of that character can be scanned. -/
theorem scan_tiles_or_sticks (chain : List Recognizer) (input : String) :
    (∀ ts, scan chain input = .ok ts → Tiling chain input.toList 0 ts) ∧
      ∀ stray, scan chain input = .error stray → Stuck chain input.toList stray := by
  constructor
  · intro ts h
    exact scanFrom_tiling List.drop_zero.symm (Nat.zero_le _) h
  · intro stray h
    obtain ⟨n, hposition, hchar, ⟨ts, hts⟩, hdeclined⟩ := scanFrom_stuck h
    rw [Nat.zero_add] at hposition
    subst hposition
    refine ⟨List.getElem?_eq_some_iff.1 hchar, ⟨ts, ?_⟩, hdeclined⟩
    rw [scan, String.toList_ofList]
    exact hts

/-- Recognizers that differ from those for selectors: a single quotation mark is read as a token
    of its own where no quoted text starts. -/
def looseQuotes : List Recognizer :=
  [.symbol '-' .colon, .quoted, .symbol '\x22' .quoted, .name]

/-- A text with escaped characters, a quote among them, and with a quote that is never closed. It
    can be scanned, and cannot be if another character is put behind it. -/
theorem scan_tiles_or_sticks_looseQuotes :
    let text := "a-\"x\\n\\t\\r\\\"y\"-\"z"
    let ts : List Token := [⟨.name, "a-", 0⟩, ⟨.quoted, "x\n\t\r\"y", 2⟩, ⟨.colon, "-", 14⟩,
      ⟨.quoted, "\"", 15⟩, ⟨.name, "z", 16⟩]
    (scan looseQuotes text = .ok ts ∧ Tiling looseQuotes text.toList 0 ts) ∧
      scan looseQuotes (text ++ "!") = .error ⟨'!', 17⟩ ∧
      Stuck looseQuotes (text ++ "!").toList ⟨'!', 17⟩ := by
  intro text ts
  have htiles : scan looseQuotes text = .ok ts := by decide +kernel
  have hsticks : scan looseQuotes (text ++ "!") = .error ⟨'!', 17⟩ := by decide +kernel
  exact ⟨⟨htiles, (scan_tiles_or_sticks looseQuotes text).1 ts htiles⟩, hsticks,
    (scan_tiles_or_sticks looseQuotes (text ++ "!")).2 _ hsticks⟩

/-! ## Order of the recognizers -/

/-- Chains that make the same steps make the same tokens. -/
theorem scanFrom_congr {chain chain' : List Recognizer}
    (h : ∀ position cs, firstStep? chain position cs = firstStep? chain' position cs)
    (position : Nat) (cs : List Char) :
    scanFrom chain position cs = scanFrom chain' position cs := by
  fun_induction scanFrom chain position cs with
  | case1 => rw [scanFrom]
  | case2 position c rest hnone =>
    rw [h] at hnone
    exact (scanFrom_of_declined hnone).symm
  | case3 position c rest s hstep ih =>
    rw [h] at hstep
    rw [scanFrom_of_firstStep? hstep, ih]

/-- Chains of the same recognizers make the same steps, if these are recognizers for selectors:
    at any place at most one of them accepts. -/
theorem firstStep?_eq_of_same_recognizers {chain : List Recognizer}
    (h : ∀ r, r ∈ chain ↔ r ∈ Recognizer.standard) (position : Nat) (cs : List Char) :
    firstStep? chain position cs = firstStep? Recognizer.standard position cs := by
  cases hstep : firstStep? Recognizer.standard position cs with
  | none =>
    rw [firstStep?_eq_none_iff] at hstep ⊢
    intro r hr
    exact hstep r ((h r).1 hr)
  | some s =>
    obtain ⟨r, l, ⟨before, after, hchain, -⟩, hl, rfl⟩ := firstStep?_eq_some_iff.1 hstep
    have hr : r ∈ Recognizer.standard := by simp [hchain]
    exact firstStep?_of_accepts (fun r hr => (h r).1 hr) ((h r).2 hr) hl

/-- The recognizers for selectors may be asked in any order, and more than once: the tokens of a
    text are the same, and so is the character at which its scan ends if it fails. -/
theorem scan_eq_of_same_recognizers (chain : List Recognizer)
    (h : ∀ r, r ∈ chain ↔ r ∈ Recognizer.standard) (input : String) :
    scan chain input = scan Recognizer.standard input :=
  scanFrom_congr (firstStep?_eq_of_same_recognizers h) 0 input.toList

/-- The recognizers for selectors, asked from the last to the first and then once more. A minus
    sign in a name is not read as that of a number. -/
theorem scan_eq_of_same_recognizers_reversed :
    let chain := Recognizer.standard.reverse ++ Recognizer.standard
    scan chain "a-5:eq( -5)" = .ok [⟨.name, "a-5", 0⟩, ⟨.colon, ":", 3⟩, ⟨.name, "eq", 4⟩,
        ⟨.parenOpen, "(", 6⟩, ⟨.blank, " ", 7⟩, ⟨.number, "-5", 8⟩, ⟨.parenClose, ")", 10⟩] ∧
      scan chain "a-5:eq( -5)" = scan Recognizer.standard "a-5:eq( -5)" := by
  intro chain
  have hsame : ∀ r, r ∈ chain ↔ r ∈ Recognizer.standard := by
    intro r
    simp [chain]
  exact ⟨by decide +kernel, scan_eq_of_same_recognizers chain hsame "a-5:eq( -5)"⟩

end TreeQuery
