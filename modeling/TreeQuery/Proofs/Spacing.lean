import TreeQuery.Proofs.Relocation
import TreeQuery.Proofs.Scanning

/-!
# Blanks between tokens

Blanks may be put between the tokens of a selector, also at its start and at its end, and where
there are blanks already. The selector is the same, and so is what is wrong with it; only the
places behind the blanks move.

Results:
* `Recognizer.lexeme?_append`, `Recognizer.not_prolongs_of_lexeme?`: a lexeme ends where the text
  does not go on with a character that prolongs it.
* `scanSolid_blanks_append`: blanks in front of a text add no tokens but blanks.
* `scanSolid_insert`: nor do blanks that are put between two tokens.
* `Selector.parse_insert_blanks`: what becomes of a selector.
-/

namespace TreeQuery

/-! ## Where lexemes end -/

namespace Recognizer

/-- Would `c` belong to a lexeme of the recognizer if it stood behind it? -/
def Prolongs (r : Recognizer) (c : Char) : Prop :=
  match r with
  | blank => Text.isBlank c
  | number => c.isDigit
  | name => isNameChar c
  | _ => False

theorem run_takeWhile_append {p : Char → Bool} {cs rest : List Char} {l : Lexeme}
    (h : run (cs.takeWhile p) = some l) (hwidth : l.width = cs.length)
    (hrest : ∀ c ∈ rest.head?, ¬ p c) : run ((cs ++ rest).takeWhile p) = some l := by
  obtain ⟨-, hlength, -⟩ := run_width h
  have hall : cs.takeWhile p = cs :=
    (List.takeWhile_prefix p).eq_of_length (hlength.symm.trans hwidth)
  rw [List.takeWhile_append, if_pos (by rw [hall]), takeWhile_eq_nil_iff_head?.2 hrest,
    List.append_nil]
  rwa [hall] at h

theorem not_of_run_takeWhile_append {p : Char → Bool} {cs rest : List Char} {l : Lexeme}
    (h : run ((cs ++ rest).takeWhile p) = some l) (hwidth : l.width = cs.length) :
    ∀ c ∈ rest.head?, ¬ p c := by
  obtain ⟨-, hlength, -⟩ := run_width h
  rw [List.takeWhile_append] at hlength
  split_ifs at hlength with hall
  · rw [List.length_append] at hlength
    exact takeWhile_eq_nil_iff_head?.1 (List.length_eq_zero_iff.1 (by omega))
  · omega

/-- A lexeme that takes up a whole text is read in front of every text that does not prolong
    it. -/
theorem lexeme?_append {r : Recognizer} {cs rest : List Char} {l : Lexeme}
    (h : r.lexeme? cs = some l) (hwidth : l.width = cs.length)
    (hrest : ∀ c ∈ rest.head?, ¬ r.Prolongs c) : r.lexeme? (cs ++ rest) = some l := by
  obtain ⟨c, cs, rfl, -⟩ := lexeme?_startsWith h
  rw [List.length_cons] at hwidth
  cases r with
  | blank => exact run_takeWhile_append h hwidth hrest
  | symbol char kind => exact h
  | quoted =>
    rw [List.cons_append]
    rw [lexeme?] at h ⊢
    split_ifs at h ⊢ with hc
    obtain ⟨tail, htail, rfl⟩ := Option.map_eq_some_iff.1 h
    obtain ⟨body, back, rfl, htailWidth, hbody⟩ := quotedTail_sound htail
    rw [List.append_assoc, List.cons_append,
      quotedTail_complete (isQuote_ne_backslash hc) hbody, ← htailWidth]
    rfl
  | number =>
    by_cases hc : c = '-'
    · subst hc
      rw [List.cons_append]
      rw [lexeme?] at h ⊢
      obtain ⟨digits, hdigits, rfl⟩ := Option.map_eq_some_iff.1 h
      rw [run_takeWhile_append hdigits (Nat.succ.inj hwidth) hrest]
      rfl
    · rw [lexeme?_number_of_ne_minus hc] at h
      rw [List.cons_append, lexeme?_number_of_ne_minus hc]
      exact run_takeWhile_append h hwidth hrest
  | name =>
    rw [List.cons_append]
    rw [lexeme?] at h ⊢
    split_ifs at h ⊢ with hc
    exact run_takeWhile_append h hwidth hrest

/-- What stands behind a lexeme does not prolong it. -/
theorem not_prolongs_of_lexeme? {r : Recognizer} {cs rest : List Char} {l : Lexeme}
    (h : r.lexeme? (cs ++ rest) = some l) (hwidth : l.width = cs.length) :
    ∀ c ∈ rest.head?, ¬ r.Prolongs c := by
  cases r with
  | blank => exact not_of_run_takeWhile_append h hwidth
  | symbol char kind => exact fun _ _ => id
  | quoted => exact fun _ _ => id
  | number =>
    cases cs with
    | nil =>
      have := (lexeme?_width h).1
      rw [hwidth] at this
      cases this
    | cons c cs =>
      rw [List.cons_append] at h
      by_cases hc : c = '-'
      · subst hc
        rw [lexeme?] at h
        obtain ⟨digits, hdigits, rfl⟩ := Option.map_eq_some_iff.1 h
        exact not_of_run_takeWhile_append hdigits (Nat.succ.inj hwidth)
      · rw [lexeme?_number_of_ne_minus hc, ← List.cons_append] at h
        exact not_of_run_takeWhile_append h hwidth
  | name =>
    cases cs with
    | nil =>
      have := (lexeme?_width h).1
      rw [hwidth] at this
      cases this
    | cons c cs =>
      rw [List.cons_append, lexeme?, ← List.cons_append] at h
      split_ifs at h with hc
      exact not_of_run_takeWhile_append h hwidth

/-- Blanks prolong blanks only. -/
theorem not_prolongs_of_isBlank {r : Recognizer} (hr : r ≠ blank) {c : Char}
    (hc : Text.isBlank c) : ¬ r.Prolongs c := by
  have hnat := isBlank_toNat hc
  cases r with
  | blank => exact absurd rfl hr
  | symbol char kind => exact id
  | quoted => exact id
  | number =>
    show ¬ c.isDigit
    rw [isDigit_iff_toNat]
    omega
  | name =>
    show ¬ isNameChar c
    rw [isNameChar_iff, isNameStart_iff_toNat, isDigit_iff_toNat, ← Char.toNat_inj,
      show '-'.toNat = 45 from rfl]
    omega

end Recognizer

/-! ## Tokens but the blanks -/

theorem solidTokens_cons_of_ne {t : Token} (h : t.kind ≠ .blank) (ts : List Token) :
    solidTokens (t :: ts) = t :: solidTokens ts :=
  List.filter_cons_of_pos (bne_iff_ne.2 h)

theorem solidTokens_cons_of_eq {t : Token} (h : t.kind = .blank) (ts : List Token) :
    solidTokens (t :: ts) = solidTokens ts :=
  List.filter_cons_of_neg (by simp [h])

/-- The tokens of `cs`, whose first character is at `position`, but the blanks. -/
def scanSolid (position : Nat) (cs : List Char) : Except StrayChar (List Token) :=
  (scanFrom Recognizer.standard position cs).map solidTokens

theorem scanFrom_of_accepts {r : Recognizer} (hr : r ∈ Recognizer.standard) {position : Nat}
    {cs : List Char} {l : Lexeme} (h : r.lexeme? cs = some l) :
    scanFrom Recognizer.standard position cs =
      (scanFrom Recognizer.standard (position + l.width) (cs.drop l.width)).map
        (⟨r.kind, String.ofList l.text, position⟩ :: ·) :=
  scanFrom_of_firstStep? (firstStep?_of_accepts (List.Subset.refl _) hr h)

theorem scanSolid_of_accepts {r : Recognizer} (hr : r ∈ Recognizer.standard)
    (hkind : r.kind ≠ .blank) {position : Nat} {cs : List Char} {l : Lexeme}
    (h : r.lexeme? cs = some l) :
    scanSolid position cs = (scanSolid (position + l.width) (cs.drop l.width)).map
      (⟨r.kind, String.ofList l.text, position⟩ :: ·) := by
  unfold scanSolid
  rw [scanFrom_of_accepts hr h]
  cases scanFrom Recognizer.standard (position + l.width) (cs.drop l.width) with
  | error e => rfl
  | ok ts => exact congrArg Except.ok (solidTokens_cons_of_ne hkind ts)

theorem scanSolid_of_blank {position : Nat} {cs : List Char} {l : Lexeme}
    (h : Recognizer.blank.lexeme? cs = some l) :
    scanSolid position cs = scanSolid (position + l.width) (cs.drop l.width) := by
  unfold scanSolid
  rw [scanFrom_of_accepts (by decide) h]
  cases scanFrom Recognizer.standard (position + l.width) (cs.drop l.width) with
  | error e => rfl
  | ok ts => exact congrArg Except.ok (solidTokens_cons_of_eq rfl ts)

theorem scanSolid_eq_dropWhile (position : Nat) (cs : List Char) :
    scanSolid position cs =
      scanSolid (position + (cs.takeWhile Text.isBlank).length) (cs.dropWhile Text.isBlank) := by
  have hsplit := List.takeWhile_append_dropWhile (p := Text.isBlank) (l := cs)
  by_cases h : cs.takeWhile Text.isBlank = []
  · rw [h, List.nil_append] at hsplit
    rw [h, hsplit]
    rfl
  · have hread : Recognizer.blank.lexeme? cs = some ⟨_, (cs.takeWhile Text.isBlank).length⟩ :=
      Recognizer.run_of_ne_nil h
    have hdrop : (cs.takeWhile Text.isBlank ++ cs.dropWhile Text.isBlank).drop
        (cs.takeWhile Text.isBlank).length = cs.dropWhile Text.isBlank := List.drop_left
    rw [hsplit] at hdrop
    rw [scanSolid_of_blank hread, hdrop]

/-- Blanks in front of a text add no tokens but blanks, whether or not the text starts with
    blanks itself. -/
theorem scanSolid_blanks_append {blanks : List Char} (h : ∀ c ∈ blanks, Text.isBlank c)
    (position : Nat) (cs : List Char) :
    scanSolid position (blanks ++ cs) = scanSolid (position + blanks.length) cs := by
  rw [scanSolid_eq_dropWhile, List.takeWhile_append_of_pos h, List.dropWhile_append_of_pos h,
    List.length_append, ← Nat.add_assoc, ← scanSolid_eq_dropWhile]

/-! ## Moving places -/

/-- Where a place of a text comes to lie when `width` characters are put in at `cut`. -/
def displaced (cut width position : Nat) : Nat :=
  if cut ≤ position then position + width else position

theorem position_of_mem_scanFrom {chain : List Recognizer} {position : Nat} {cs : List Char}
    {ts : List Token} (h : scanFrom chain position cs = .ok ts) {t : Token} (ht : t ∈ ts) :
    position ≤ t.position ∧ t.position < position + cs.length := by
  fun_induction scanFrom chain position cs generalizing ts with
  | case1 =>
    cases h
    cases ht
  | case2 => cases h
  | case3 position c rest s hstep ih =>
    obtain ⟨ts, hts, rfl⟩ := Result.map_eq_ok_iff.1 h
    obtain ⟨hpos, hle⟩ := firstStep?_width hstep
    rcases List.mem_cons.1 ht with rfl | ht
    · obtain ⟨r, l, -, -, rfl⟩ := firstStep?_eq_some_iff.1 hstep
      exact ⟨Nat.le_refl _, Nat.lt_add_of_pos_right (Nat.lt_of_lt_of_le hpos hle)⟩
    · have := ih hts ht
      rw [List.length_drop] at this
      omega

theorem le_of_mem_cuts {chain : List Recognizer} {position cut : Nat} {cs : List Char}
    {ts : List Token} (h : scanFrom chain position cs = .ok ts)
    (hcut : cut ∈ ts.map (·.position) ++ [position + cs.length]) :
    position ≤ cut ∧ cut ≤ position + cs.length := by
  rcases List.mem_append.1 hcut with hcut | hcut
  · obtain ⟨t, ht, rfl⟩ := List.mem_map.1 hcut
    obtain ⟨hle, hlt⟩ := position_of_mem_scanFrom h ht
    exact ⟨hle, Nat.le_of_lt hlt⟩
  · rw [List.mem_singleton.1 hcut]
    exact ⟨Nat.le_add_right .., Nat.le_refl _⟩

theorem scanFrom_add {chain : List Recognizer} {position : Nat} {cs : List Char}
    {ts : List Token} (h : scanFrom chain position cs = .ok ts) (width : Nat) :
    scanFrom chain (position + width) cs = .ok (ts.map (Token.moved (· + width))) := by
  fun_induction scanFrom chain position cs generalizing ts with
  | case1 =>
    cases h
    rw [scanFrom]
    rfl
  | case2 => cases h
  | case3 position c rest s hstep ih =>
    obtain ⟨ts, hts, rfl⟩ := Result.map_eq_ok_iff.1 h
    have hmoved := firstStep?_position chain position (position + width) (c :: rest)
    rw [hstep, Option.map_some] at hmoved
    obtain ⟨r, l, -, -, rfl⟩ := firstStep?_eq_some_iff.1 hstep
    rw [scanFrom_of_firstStep? hmoved, Nat.add_right_comm, ih hts]
    rfl

/-! ## Blanks between tokens -/

theorem mem_head?_insert {c : Char} {cs blanks : List Char} {n : Nat}
    (h : c ∈ (cs.take n ++ (blanks ++ cs.drop n)).head?) : c ∈ cs.head? ∨ c ∈ blanks := by
  cases n with
  | zero =>
    cases blanks with
    | nil => exact .inl h
    | cons b blanks =>
      obtain rfl : b = c := Option.some.inj h
      exact .inr List.mem_cons_self
  | succ n =>
    cases cs with
    | nil =>
      rw [List.take_nil, List.drop_nil, List.nil_append, List.append_nil] at h
      exact .inr (List.mem_of_mem_head? h)
    | cons b cs => exact .inl h

theorem scanSolid_insert_front {position : Nat} {cs blanks : List Char} {ts : List Token}
    (hblanks : ∀ c ∈ blanks, Text.isBlank c)
    (h : scanFrom Recognizer.standard position cs = .ok ts) :
    scanSolid position (blanks ++ cs) =
      .ok ((solidTokens ts).map (Token.moved (displaced position blanks.length))) := by
  rw [scanSolid_blanks_append hblanks, scanSolid, scanFrom_add h, Except.map,
    solidTokens_map_moved]
  congr 1
  apply List.map_congr_left
  intro t ht
  have hle := (position_of_mem_scanFrom h (List.mem_filter.1 ht).1).1
  rw [Token.moved, Token.moved, displaced, if_pos hle]

theorem isBlank_of_mem_lexeme {cs : List Char} {l : Lexeme}
    (h : Recognizer.blank.lexeme? cs = some l) : ∀ c ∈ cs.take l.width, Text.isBlank c := by
  obtain ⟨-, -, htext⟩ := Recognizer.run_width h
  rw [← Recognizer.run_takeWhile_spells h, htext]
  exact List.all_eq_true.1 List.all_takeWhile

/-- The first token of a text is read in front of another text too, if that starts in the same way
    or with a blank. -/
theorem scanSolid_append {r : Recognizer} (hr : r ∈ Recognizer.standard)
    {front rest rest' : List Char} {l : Lexeme} (h : r.lexeme? (front ++ rest) = some l)
    (hwidth : l.width = front.length)
    (hrest : ∀ c ∈ rest'.head?, c ∈ rest.head? ∨ Text.isBlank c) (position : Nat) :
    scanSolid position (front ++ rest') =
      (scanSolid (position + front.length) rest').map
        (solidTokens [⟨r.kind, String.ofList l.text, position⟩] ++ ·) := by
  by_cases hblank : r = .blank
  · subst hblank
    have hfront := isBlank_of_mem_lexeme h
    rw [hwidth, List.take_left] at hfront
    rw [scanSolid_blanks_append hfront]
    cases scanSolid (position + front.length) rest' with
    | error e => rfl
    | ok ts => rfl
  · have hread : r.lexeme? front = some l := by
      have hcut := r.local_lexeme?.take h (Nat.le_of_eq hwidth)
      rwa [List.take_left] at hcut
    have hend : ∀ c ∈ rest'.head?, ¬ r.Prolongs c := by
      intro c hc
      rcases hrest c hc with hc | hc
      · exact Recognizer.not_prolongs_of_lexeme? h hwidth c hc
      · exact Recognizer.not_prolongs_of_isBlank hblank hc
    have hkind : r.kind ≠ .blank :=
      (by decide : ∀ r ∈ Recognizer.standard, r ≠ .blank → r.kind ≠ .blank) r hr hblank
    rw [scanSolid_of_accepts hr hkind (Recognizer.lexeme?_append hread hwidth hend), hwidth,
      List.drop_left, solidTokens_cons_of_ne hkind]
    rfl

/-- Blanks that are put in at the start of a token, or at the end of the text, add no tokens but
    blanks. The tokens behind them move. -/
theorem scanSolid_insert {position : Nat} {cs blanks : List Char} {ts : List Token} {n : Nat}
    (hblanks : ∀ c ∈ blanks, Text.isBlank c)
    (h : scanFrom Recognizer.standard position cs = .ok ts)
    (hn : position + n ∈ ts.map (·.position) ++ [position + cs.length]) :
    scanSolid position (cs.take n ++ (blanks ++ cs.drop n)) =
      .ok ((solidTokens ts).map (Token.moved (displaced (position + n) blanks.length))) := by
  rcases Nat.eq_zero_or_pos n with rfl | hpos
  · exact scanSolid_insert_front hblanks h
  fun_induction scanFrom Recognizer.standard position cs generalizing ts n with
  | case1 position =>
    cases h
    obtain rfl : n = 0 := by simpa using hn
    cases hpos
  | case2 => cases h
  | case3 position c rest s hstep ih =>
    obtain ⟨ts, hts, rfl⟩ := Result.map_eq_ok_iff.1 h
    obtain ⟨-, hwidth⟩ := firstStep?_width hstep
    obtain ⟨r, l, ⟨before, after, hchain, -⟩, hl, rfl⟩ := firstStep?_eq_some_iff.1 hstep
    have hr : r ∈ Recognizer.standard := by simp [hchain]
    generalize c :: rest = cs at *
    dsimp only at hwidth hts hn ih ⊢
    -- the blanks are put in behind the first token
    have hcut : position + n ∈ ts.map (·.position) ++
        [position + l.width + (cs.drop l.width).length] := by
      rw [List.length_drop, Nat.add_assoc, Nat.add_sub_cancel' hwidth]
      rcases List.mem_cons.1 hn with heq | hn
      · have heq : position + n = position := heq
        omega
      · exact hn
    obtain ⟨m, rfl⟩ : ∃ m, n = l.width + m :=
      Nat.exists_eq_add_of_le (Nat.le_of_add_le_add_left (le_of_mem_cuts hts hcut).1)
    rw [← Nat.add_assoc] at hcut ⊢
    have hbehind : scanSolid (position + l.width)
        ((cs.drop l.width).take m ++ (blanks ++ (cs.drop l.width).drop m)) =
          .ok ((solidTokens ts).map
            (Token.moved (displaced (position + l.width + m) blanks.length))) := by
      rcases Nat.eq_zero_or_pos m with rfl | hm
      · exact scanSolid_insert_front hblanks hts
      · exact ih hts hcut hm
    have hstays : Token.moved (displaced (position + l.width + m) blanks.length)
        ⟨r.kind, String.ofList l.text, position⟩ = ⟨r.kind, String.ofList l.text, position⟩ := by
      have hlt : ¬ position + l.width + m ≤ position := by omega
      simp only [Token.moved, displaced, if_neg hlt]
    have hlength : (cs.take l.width).length = l.width := List.length_take_of_le hwidth
    rw [← List.take_append_drop l.width cs] at hl
    rw [List.take_add, List.append_assoc, ← List.drop_drop,
      scanSolid_append hr hl hlength.symm, hlength, hbehind]
    · rw [← solidTokens_map_moved, ← solidTokens_map_moved, List.map_cons, hstays]
      exact congrArg Except.ok (List.filter_append _ _).symm
    · intro c hc
      exact (mem_head?_insert hc).imp_right (hblanks c)

/-! ## Selectors with blanks put in -/

namespace Selector

/-- A text with another one put in at a place. -/
def insertedAt (cut : Nat) (inserted text : String) : String :=
  String.ofList (text.toList.take cut ++ (inserted.toList ++ text.toList.drop cut))

theorem mem_cuts_iff {text : String} {tokens : List Token} {cut : Nat} :
    cut ∈ cuts text.toList tokens ↔
      0 + cut ∈ tokens.map (·.position) ++ [0 + text.toList.length] := by
  rw [Nat.zero_add, Nat.zero_add, cuts]

theorem exists_scan_insertedAt {text blanks : String} {tokens : List Token} {cut : Nat}
    (hscan : scan Recognizer.standard text = .ok tokens) (hcut : cut ∈ cuts text.toList tokens)
    (hblanks : Text.isBlankText blanks) :
    ∃ tokens', scan Recognizer.standard (insertedAt cut blanks text) = .ok tokens' ∧
      solidTokens tokens' =
        (solidTokens tokens).map (Token.moved (displaced cut blanks.length)) := by
  have hinsert := scanSolid_insert (List.all_eq_true.1 hblanks) hscan (mem_cuts_iff.1 hcut)
  obtain ⟨tokens', hscan', hsolid⟩ := Result.map_eq_ok_iff.1 hinsert
  refine ⟨tokens', ?_, ?_⟩
  · rw [scan, insertedAt, String.toList_ofList]
    exact hscan'
  · rw [hsolid, String.length_toList, Nat.zero_add]

theorem length_insertedAt {text blanks : String} {cut : Nat} (h : cut ≤ text.length) :
    (insertedAt cut blanks text).length = displaced cut blanks.length text.length := by
  rw [displaced, if_pos h]
  simp only [insertedAt, String.length_ofList, List.length_append, List.length_take,
    List.length_drop, String.length_toList]
  omega

/-- Blanks may be put in at the start of any token, or at the end of a text. What can be cut into
    tokens still can, and there are the same tokens but for blanks. The same selector is read; or
    the text is refused for the same reason, at the same place or, if that lies behind the blanks,
    as much further on as there are blanks. -/
theorem parse_insert_blanks (text blanks : String) (tokens : List Token) (cut : Nat)
    (hscan : scan Recognizer.standard text = .ok tokens) (hcut : cut ∈ cuts text.toList tokens)
    (hblanks : Text.isBlankText blanks) :
    (∃ tokens', scan Recognizer.standard (insertedAt cut blanks text) = .ok tokens' ∧
      solidWords tokens' = solidWords tokens) ∧
    (∀ s, parse text = .ok s → parse (insertedAt cut blanks text) = .ok s) ∧
    ∀ e, parse text = .error e → ∃ position fault, e = .malformed position fault ∧
      parse (insertedAt cut blanks text) = .error (.malformed
        (if fault = .empty then 0 else displaced cut blanks.length position) fault) := by
  obtain ⟨tokens', hscan', hsolid⟩ := exists_scan_insertedAt hscan hcut hblanks
  have hle : cut ≤ text.length := by
    have hbounds := le_of_mem_cuts hscan (mem_cuts_iff.1 hcut)
    rw [String.length_toList] at hbounds
    omega
  have hparse : parse (insertedAt cut blanks text) =
      relocated (displaced cut blanks.length) id (parse text) := by
    rw [parse_of_scan hscan', parse_of_scan hscan, hsolid, length_insertedAt hle]
    exact ofSolidTokens_moved text.length (solidTokens tokens)
  refine ⟨⟨tokens', hscan', ?_⟩, fun s hs => ?_, fun e he => ?_⟩
  · show (solidTokens tokens').map Token.word = (solidTokens tokens).map Token.word
    rw [hsolid, List.map_map]
    rfl
  · rw [hparse, hs]
    rfl
  · rw [hparse, he]
    rw [parse_of_scan hscan] at he
    obtain ⟨position, fault, rfl, happlies⟩ := ofSolidTokens_appliesTo he
    refine ⟨position, fault, rfl, ?_⟩
    cases fault with
    | empty =>
      obtain ⟨-, rfl⟩ := happlies
      rfl
    | _ => rfl

/-- A fault behind blanks that are already there, and before and behind which more are put. -/
theorem parse_insert_blanks_stray :
    let text := "a [b=1] c"
    let tokens : List Token := [⟨.name, "a", 0⟩, ⟨.blank, " ", 1⟩, ⟨.bracketOpen, "[", 2⟩,
      ⟨.name, "b", 3⟩, ⟨.equals, "=", 4⟩, ⟨.number, "1", 5⟩, ⟨.bracketClose, "]", 6⟩,
      ⟨.blank, " ", 7⟩, ⟨.name, "c", 8⟩]
    scan Recognizer.standard text = .ok tokens ∧
      parse text = .error (.malformed 8 (.unexpected .colonOrEnd .name "c")) ∧
      (1 ∈ cuts text.toList tokens ∧
        parse (insertedAt 1 "\t\u3000" text) =
          .error (.malformed 10 (.unexpected .colonOrEnd .name "c"))) ∧
      9 ∈ cuts text.toList tokens ∧
        parse (insertedAt 9 "\n" text) =
          .error (.malformed 8 (.unexpected .colonOrEnd .name "c")) := by
  intro text tokens
  have hscan : scan Recognizer.standard text = .ok tokens := by decide +kernel
  have hparse : parse text = .error (.malformed 8 (.unexpected .colonOrEnd .name "c")) := by
    decide +kernel
  have hfront : 1 ∈ cuts text.toList tokens := by decide +kernel
  have hback : 9 ∈ cuts text.toList tokens := by decide +kernel
  refine ⟨hscan, hparse, ⟨hfront, ?_⟩, hback, ?_⟩
  · obtain ⟨position, fault, heq, hmoved⟩ :=
      (parse_insert_blanks text "\t\u3000" tokens 1 hscan hfront (by decide +kernel)).2.2 _ hparse
    cases heq
    exact hmoved
  · obtain ⟨position, fault, heq, hstays⟩ :=
      (parse_insert_blanks text "\n" tokens 9 hscan hback (by decide +kernel)).2.2 _ hparse
    cases heq
    exact hstays

end Selector

end TreeQuery
