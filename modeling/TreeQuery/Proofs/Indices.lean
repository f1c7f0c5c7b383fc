import Mathlib.Data.List.Induction
import Mathlib.Data.List.TakeWhile
import Mathlib.Data.Nat.Digits.Defs
import TreeQuery.Proofs.Lexing
import TreeQuery.Proofs.Stages

/-!
# Which positions stages keep

A stage looks at positions only. What a stage with an index keeps is said by comparing positions
with the integer that is written as its argument, however many digits it has.

* `Spelled`: a text is an integer with blanks around it. `index_eq_ok_iff`: exactly these texts
  are read as an index.
* `apply_comparison`: a stage with an index keeps the positions that compare with it.
  `holds_saturate`: that the index is cut off at 64 bits does not show in a list that can be
  held in memory.
* `applyAll_map`: stages do not look at the items. So the positions that they keep can be found
  by giving them a list of positions.
* `comparison_of_argument`, `applyAll_keeps_positions`: the results for arguments as they are
  written, and for lists of refinements.
-/

namespace TreeQuery

/-! ## Blanks around a text -/

namespace Text

theorem exists_eq_append_trimChars (cs : List Char) :
    ∃ before after, cs = before ++ trimChars cs ++ after ∧ (∀ c ∈ before, isBlank c) ∧
      ∀ c ∈ after, isBlank c := by
  have hfront := List.takeWhile_append_dropWhile (p := isBlank) (l := cs)
  have hback := List.takeWhile_append_dropWhile (p := isBlank) (l := (cs.dropWhile isBlank).reverse)
  refine ⟨cs.takeWhile isBlank, ((cs.dropWhile isBlank).reverse.takeWhile isBlank).reverse, ?_,
    fun c hc => List.mem_takeWhile_imp hc, fun c hc => ?_⟩
  · rw [trimChars, List.append_assoc, ← List.reverse_append, hback, List.reverse_reverse, hfront]
  · exact List.mem_takeWhile_imp (List.mem_reverse.1 hc)

theorem dropWhile_blanks_append {blanks cs : List Char} (hblanks : ∀ c ∈ blanks, isBlank c)
    (hcs : ∀ c ∈ cs.head?, ¬ isBlank c) : (blanks ++ cs).dropWhile isBlank = cs := by
  rw [List.dropWhile_append_of_pos hblanks]
  cases cs with
  | nil => rfl
  | cons c cs => exact List.dropWhile_cons_of_neg (hcs c rfl)

/-- Blanks around a text that has none are cut off. -/
theorem trimChars_of_solid {before body after : List Char} (hbefore : ∀ c ∈ before, isBlank c)
    (hafter : ∀ c ∈ after, isBlank c) (hne : body ≠ []) (hbody : ∀ c ∈ body, ¬ isBlank c) :
    trimChars (before ++ body ++ after) = body := by
  have hhead : ∀ c ∈ (body ++ after).head?, ¬ isBlank c := by
    rw [List.head?_append_of_ne_nil _ hne]
    exact fun c hc => hbody c (List.mem_of_mem_head? hc)
  have hlast : ∀ c ∈ body.reverse.head?, ¬ isBlank c := fun c hc =>
    hbody c (List.mem_reverse.1 (List.mem_of_mem_head? hc))
  have hreverse : ∀ c ∈ after.reverse, isBlank c := fun c hc => hafter c (List.mem_reverse.1 hc)
  rw [trimChars, List.append_assoc, dropWhile_blanks_append hbefore hhead, List.reverse_append,
    dropWhile_blanks_append hreverse hlast, List.reverse_reverse]

end Text

/-! ## Integers as they are written -/

/-- One or more decimal digits, perhaps after a minus sign, and the integer they stand for. -/
inductive Numeral : List Char → Int → Prop
  | natural {digits : List Char} (hne : digits ≠ []) (h : ∀ c ∈ digits, c.isDigit) :
      Numeral digits (Nat.ofDigits 10 (digits.reverse.map fun c => c.toNat - '0'.toNat) : Nat)
  | negative {digits : List Char} (hne : digits ≠ []) (h : ∀ c ∈ digits, c.isDigit) :
      Numeral ('-' :: digits)
        (-(Nat.ofDigits 10 (digits.reverse.map fun c => c.toNat - '0'.toNat) : Nat))

/-- The text is the integer `z`, perhaps with blanks around it. -/
def Spelled (text : String) (z : Int) : Prop :=
  ∃ before numeral after, text.toList = before ++ numeral ++ after ∧
    (∀ c ∈ before, Text.isBlank c) ∧ (∀ c ∈ after, Text.isBlank c) ∧ Numeral numeral z

theorem Numeral.ne_nil {cs : List Char} {z : Int} (h : Numeral cs z) : cs ≠ [] := by
  cases h with
  | natural hne _ => exact hne
  | negative _ _ => exact List.cons_ne_nil _ _

theorem Numeral.not_blank {cs : List Char} {z : Int} (h : Numeral cs z) :
    ∀ c ∈ cs, ¬ Text.isBlank c := by
  have hdigit : ∀ c : Char, c.isDigit → ¬ Text.isBlank c := by
    intro c hc hblank
    have := isDigit_iff_toNat.1 hc
    have := isBlank_toNat hblank
    omega
  cases h with
  | natural _ h => exact fun c hc => hdigit c (h c hc)
  | negative _ h =>
    intro c hc
    rcases List.mem_cons.1 hc with rfl | hc
    · decide
    · exact hdigit c (h c hc)

theorem spelled_iff_numeral_trimChars {text : String} {z : Int} :
    Spelled text z ↔ Numeral (Text.trimChars text.toList) z := by
  constructor
  · rintro ⟨before, numeral, after, htext, hbefore, hafter, hnumeral⟩
    rwa [htext, Text.trimChars_of_solid hbefore hafter hnumeral.ne_nil hnumeral.not_blank]
  · intro h
    obtain ⟨before, after, htext, hbefore, hafter⟩ := Text.exists_eq_append_trimChars text.toList
    exact ⟨before, _, after, htext, hbefore, hafter, h⟩

namespace Stage

/-- Digits are read from the first to the last, which counts least. -/
theorem digitsValue_eq_ofDigits (digits : List Char) :
    digitsValue digits = Nat.ofDigits 10 (digits.reverse.map fun c => c.toNat - '0'.toNat) := by
  induction digits using List.reverseRecOn with
  | nil => rfl
  | append_singleton digits c ih =>
    rw [digitsValue, List.foldl_append, ← digitsValue, List.reverse_append, List.reverse_singleton,
      List.singleton_append, List.map_cons, Nat.ofDigits_cons, ← ih]
    exact Nat.add_comm _ _

theorem integer?_eq_some_iff {cs : List Char} {z : Int} :
    integer? cs = some z ↔ Numeral cs z := by
  have hdigits : ∀ digits : List Char,
      ¬ (digits.isEmpty || !digits.all Char.isDigit) ↔ digits ≠ [] ∧ ∀ c ∈ digits, c.isDigit := by
    intro digits
    simp
  constructor
  · intro h
    unfold integer? at h
    split at h <;> split_ifs at h with hnone
    · obtain ⟨hne, hall⟩ := (hdigits _).1 hnone
      obtain rfl := Option.some.inj h
      rw [digitsValue_eq_ofDigits]
      exact .negative hne hall
    · obtain ⟨hne, hall⟩ := (hdigits _).1 hnone
      obtain rfl := Option.some.inj h
      rw [digitsValue_eq_ofDigits]
      exact .natural hne hall
  · intro h
    cases h with
    | natural hne hall =>
      rw [integer?, if_neg ((hdigits _).2 ⟨hne, hall⟩), digitsValue_eq_ofDigits]
      -- a minus sign is no digit
      rintro digits rfl
      exact absurd (hall '-' List.mem_cons_self) (by decide)
    | negative hne hall =>
      rw [integer?, if_neg ((hdigits _).2 ⟨hne, hall⟩), digitsValue_eq_ofDigits]

/-- The arguments that are read as an index are integers with blanks around them. -/
theorem index_eq_ok_iff {name argument : String} {n : Int64} :
    index ⟨name, some argument⟩ = .ok n ↔ ∃ z, Spelled argument z ∧ saturate z = n := by
  simp only [spelled_iff_numeral_trimChars, ← integer?_eq_some_iff, index]
  cases integer? (Text.trimChars argument.toList) with
  | none => simp
  | some z => simp

end Stage

/-! ## Items by their positions -/

/-- The items whose position, counted from zero, has a property, in their order. -/
def itemsWhere {α : Type} (p : Nat → Prop) [DecidablePred p] (items : List α) : List α :=
  (items.zipIdx.filter fun item => p item.2).map (·.1)

section ItemsWhere

variable {α : Type} {p q : Nat → Prop} [DecidablePred p] [DecidablePred q]

theorem itemsWhere_congr {items : List α} (h : ∀ i < items.length, (p i ↔ q i)) :
    itemsWhere p items = itemsWhere q items := by
  unfold itemsWhere
  congr 1
  apply List.filter_congr
  intro item hitem
  have hlt := List.snd_lt_of_mem_zipIdx hitem
  simp only [h item.2 (by omega)]

theorem itemsWhere_eq_self {items : List α} (h : ∀ i < items.length, p i) :
    itemsWhere p items = items := by
  rw [itemsWhere_congr (q := fun _ => True) fun i hi => iff_true_intro (h i hi)]
  simp [itemsWhere]

theorem itemsWhere_eq_nil {items : List α} (h : ∀ i < items.length, ¬ p i) :
    itemsWhere p items = [] := by
  rw [itemsWhere_congr (q := fun _ => False) fun i hi => iff_false_intro (h i hi)]
  simp [itemsWhere]

theorem itemsWhere_append (front back : List α) :
    itemsWhere p (front ++ back) =
      itemsWhere p front ++ itemsWhere (fun i => p (front.length + i)) back := by
  unfold itemsWhere
  rw [List.zipIdx_append, List.filter_append, List.map_append, Nat.zero_add]
  congr 1
  rw [List.zipIdx_eq_map_add, List.filter_map, List.map_map]
  rfl

theorem take_eq_itemsWhere (k : Nat) (items : List α) :
    items.take k = itemsWhere (· < k) items := by
  have hfront : itemsWhere (· < k) (items.take k) = items.take k :=
    itemsWhere_eq_self fun i hi => by
      rw [List.length_take] at hi
      omega
  have hback : itemsWhere (fun i => (items.take k).length + i < k) (items.drop k) = [] :=
    itemsWhere_eq_nil fun i hi => by
      rw [List.length_drop] at hi
      rw [List.length_take]
      omega
  conv_rhs => rw [← List.take_append_drop k items, itemsWhere_append, hfront, hback,
    List.append_nil]

theorem drop_eq_itemsWhere (k : Nat) (items : List α) :
    items.drop k = itemsWhere (k ≤ ·) items := by
  have hfront : itemsWhere (k ≤ ·) (items.take k) = [] :=
    itemsWhere_eq_nil fun i hi => by
      rw [List.length_take] at hi
      omega
  have hback : itemsWhere (fun i => k ≤ (items.take k).length + i) (items.drop k) = items.drop k :=
    itemsWhere_eq_self fun i hi => by
      rw [List.length_drop] at hi
      rw [List.length_take]
      omega
  conv_rhs => rw [← List.take_append_drop k items, itemsWhere_append, hfront, hback,
    List.nil_append]

theorem getElem?_eq_itemsWhere (k : Nat) (items : List α) :
    items[k]?.toList = itemsWhere (· = k) items := by
  cases hk : items[k]? with
  | none =>
    have hlength := List.getElem?_eq_none_iff.1 hk
    exact (itemsWhere_eq_nil fun i hi => by omega).symm
  | some x =>
    obtain ⟨hlt, rfl⟩ := List.getElem?_eq_some_iff.1 hk
    have hfront : itemsWhere (· = k) (items.take k) = [] :=
      itemsWhere_eq_nil fun i hi => by
        rw [List.length_take] at hi
        omega
    have hitem : itemsWhere (fun i => (items.take k).length + i = k) [items[k]] = [items[k]] :=
      itemsWhere_eq_self fun i hi => by
        rw [List.length_singleton] at hi
        rw [List.length_take]
        omega
    have hback : itemsWhere (fun i => (items.take k).length + ([items[k]].length + i) = k)
        (items.drop (k + 1)) = [] :=
      itemsWhere_eq_nil fun i hi => by
        rw [List.length_take, List.length_singleton]
        omega
    conv_rhs => rw [← List.take_append_drop k items, List.drop_eq_getElem_cons hlt,
      ← List.singleton_append, itemsWhere_append, itemsWhere_append, hfront, hitem, hback]
    rfl

end ItemsWhere

/-! ## Stages with an index -/

/-- How a stage with an index compares positions with it. -/
inductive Comparison where
  | lt
  | eq
  | gt
  deriving DecidableEq, Repr

namespace Comparison

/-- The name of the refinements that make the comparison. -/
def name : Comparison → String
  | lt => "lt"
  | eq => "eq"
  | gt => "gt"

/-- The stage that makes the comparison with an index. -/
def stage : Comparison → Int64 → Stage
  | lt => .lt
  | eq => .eq
  | gt => .gt

/-- Is a position in front of an integer, at it, or behind it? -/
def Holds (c : Comparison) (position z : Int) : Prop :=
  match c with
  | lt => position < z
  | eq => position = z
  | gt => z < position

instance (c : Comparison) (position z : Int) : Decidable (c.Holds position z) :=
  match c with
  | lt => inferInstanceAs (Decidable (position < z))
  | eq => inferInstanceAs (Decidable (position = z))
  | gt => inferInstanceAs (Decidable (z < position))

end Comparison

namespace Stage

theorem toInt_saturate (z : Int) :
    (saturate z).toInt = max (-2 ^ 63) (min z (2 ^ 63 - 1)) := by
  have hmin : Int64.minValue.toInt = -2 ^ 63 := by decide
  have hmax : Int64.maxValue.toInt = 2 ^ 63 - 1 := by decide
  unfold saturate
  split_ifs with hlow hhigh
  · omega
  · omega
  · rw [Int64.toInt_ofInt_of_le (by omega) (by omega)]
    omega

/-- An index that is cut off at 64 bits compares like the integer itself with all positions of a
    list of less than `2 ^ 63` items. -/
theorem holds_saturate (c : Comparison) {position : Nat} (h : position < 2 ^ 63 - 1) (z : Int) :
    c.Holds position (saturate z).toInt ↔ c.Holds position z := by
  have hz := toInt_saturate z
  cases c with
  | lt =>
    show (position : Int) < (saturate z).toInt ↔ (position : Int) < z
    omega
  | eq =>
    show (position : Int) = (saturate z).toInt ↔ (position : Int) = z
    omega
  | gt =>
    show (saturate z).toInt < (position : Int) ↔ z < (position : Int)
    omega

variable {α : Type}

theorem neg_iff_toInt {n : Int64} : n < 0 ↔ n.toInt < 0 :=
  Int64.lt_iff_toInt_lt

theorem nonpos_iff_toInt {n : Int64} : n ≤ 0 ↔ n.toInt ≤ 0 :=
  Int64.le_iff_toInt_le

/-- A stage with an index keeps the positions that compare with it. -/
theorem apply_comparison (c : Comparison) (n : Int64) (items : List α) :
    (c.stage n).apply items = itemsWhere (fun i => c.Holds i n.toInt) items := by
  cases c with
  | lt =>
    rw [Comparison.stage, apply]
    split_ifs with h <;> rw [nonpos_iff_toInt] at h
    · exact (itemsWhere_eq_nil fun i _ (hi : (i : Int) < n.toInt) => by omega).symm
    · rw [take_eq_itemsWhere]
      apply itemsWhere_congr
      intro i _
      show i < n.toInt.toNat ↔ (i : Int) < n.toInt
      omega
  | eq =>
    rw [Comparison.stage, apply]
    split_ifs with h <;> rw [neg_iff_toInt] at h
    · exact (itemsWhere_eq_nil fun i _ (hi : (i : Int) = n.toInt) => by omega).symm
    · rw [getElem?_eq_itemsWhere]
      apply itemsWhere_congr
      intro i _
      show i = n.toInt.toNat ↔ (i : Int) = n.toInt
      omega
  | gt =>
    rw [Comparison.stage, apply]
    split_ifs with h <;> rw [neg_iff_toInt] at h
    · refine (itemsWhere_eq_self fun i _ => ?_).symm
      show n.toInt < (i : Int)
      omega
    · rw [drop_eq_itemsWhere]
      apply itemsWhere_congr
      intro i _
      show n.toInt.toNat + 1 ≤ i ↔ n.toInt < (i : Int)
      omega

/-- The items in front of an index, the one at it and those behind it are all items. -/
theorem lt_append_eq_append_gt (n : Int64) (items : List α) :
    (lt n).apply items ++ (eq n).apply items ++ (gt n).apply items = items := by
  simp only [apply, neg_iff_toInt, nonpos_iff_toInt]
  by_cases h : n.toInt < 0
  · rw [if_pos h, if_pos h, if_pos (Int.le_of_lt h)]
    rfl
  · -- nothing is in front of the first item, so that zero need not be set apart
    have hfront : (if n.toInt ≤ 0 then [] else items.take n.toInt.toNat) =
        items.take n.toInt.toNat := by
      split_ifs with hzero
      · rw [Int.toNat_of_nonpos hzero, List.take_zero]
      · rfl
    rw [hfront, if_neg h, if_neg h, ← List.take_add_one, List.take_append_drop]

theorem ofRefinement_comparison (c : Comparison) (argument : Option String) :
    ofRefinement ⟨c.name, argument⟩ = (index ⟨c.name, argument⟩).map c.stage := by
  cases c <;> rfl

theorem ofRefinement_of_spelled (c : Comparison) {argument : String} {z : Int}
    (h : Spelled argument z) :
    ofRefinement ⟨c.name, some argument⟩ = .ok (c.stage (saturate z)) := by
  rw [ofRefinement_comparison, index_eq_ok_iff.2 ⟨z, h, rfl⟩]
  rfl

/-- `lt`, `eq` and `gt` accept the integers, however long they are, as arguments, and nothing
    else. In a list of less than `2 ^ 63` items they keep the positions in front of the integer,
    at it and behind it; and together they keep all items of every list. -/
theorem comparison_of_argument (argument : String) :
    (∀ c : Comparison, (∃ stage, ofRefinement ⟨c.name, some argument⟩ = .ok stage) ↔
      ∃ z, Spelled argument z) ∧
    ∀ z, Spelled argument z → ∃ stage : Comparison → Stage,
      (∀ c, ofRefinement ⟨c.name, some argument⟩ = .ok (stage c)) ∧
      ∀ (α : Type) (items : List α),
        (items.length ≤ 2 ^ 63 - 1 → ∀ c, (stage c).apply items =
          itemsWhere (fun i => c.Holds i z) items) ∧
        (stage .lt).apply items ++ (stage .eq).apply items ++ (stage .gt).apply items = items := by
  refine ⟨fun c => ⟨?_, ?_⟩, ?_⟩
  · rintro ⟨stage, h⟩
    rw [ofRefinement_comparison] at h
    obtain ⟨n, hn, -⟩ := Result.map_eq_ok_iff.1 h
    obtain ⟨z, hz, -⟩ := index_eq_ok_iff.1 hn
    exact ⟨z, hz⟩
  · rintro ⟨z, hz⟩
    exact ⟨_, ofRefinement_of_spelled c hz⟩
  · intro z hz
    refine ⟨fun c => c.stage (saturate z), fun c => ofRefinement_of_spelled c hz, ?_⟩
    intro α items
    refine ⟨fun hlength c => ?_, lt_append_eq_append_gt (saturate z) items⟩
    rw [apply_comparison]
    exact itemsWhere_congr fun i hi => holds_saturate c (by omega) z

/-- Integers beyond 64 bits on both sides, with blanks around them, and an empty list of digits. -/
theorem comparison_of_argument_beyond_word :
    (∃ stage : Comparison → Stage,
      (∀ c, ofRefinement ⟨c.name, some "\t-00009223372036854775809 "⟩ = .ok (stage c)) ∧
      (stage .lt).apply ['a', 'b'] = [] ∧ (stage .eq).apply ['a', 'b'] = [] ∧
      (stage .gt).apply ['a', 'b'] = ['a', 'b']) ∧
    (∃ stage : Comparison → Stage,
      (∀ c, ofRefinement ⟨c.name, some "18446744073709551616"⟩ = .ok (stage c)) ∧
      (stage .lt).apply ['a', 'b'] = ['a', 'b'] ∧ (stage .eq).apply ['a', 'b'] = [] ∧
      (stage .gt).apply ['a', 'b'] = []) ∧
    ¬ ∃ stage, ofRefinement ⟨"eq", some "-"⟩ = .ok stage := by
  have hnegative : Spelled "\t-00009223372036854775809 " (-9223372036854775809) :=
    spelled_iff_numeral_trimChars.2 (integer?_eq_some_iff.1 (by decide +kernel))
  have hpositive : Spelled "18446744073709551616" 18446744073709551616 :=
    spelled_iff_numeral_trimChars.2 (integer?_eq_some_iff.1 (by decide +kernel))
  have hlength : ['a', 'b'].length ≤ 2 ^ 63 - 1 := by decide
  refine ⟨?_, ?_, ?_⟩
  · obtain ⟨stage, hstage, hkept⟩ := (comparison_of_argument _).2 _ hnegative
    have hkept := (hkept Char ['a', 'b']).1 hlength
    exact ⟨stage, hstage, hkept .lt, hkept .eq, hkept .gt⟩
  · obtain ⟨stage, hstage, hkept⟩ := (comparison_of_argument _).2 _ hpositive
    have hkept := (hkept Char ['a', 'b']).1 hlength
    exact ⟨stage, hstage, hkept .lt, hkept .eq, hkept .gt⟩
  · intro h
    obtain ⟨z, hz⟩ := ((comparison_of_argument "-").1 .eq).1 h
    have hz := integer?_eq_some_iff.2 (spelled_iff_numeral_trimChars.1 hz)
    have hnone : integer? (Text.trimChars "-".toList) = none := by decide +kernel
    rw [hnone] at hz
    cases hz

/-! ## Stages do not look at items -/

variable {β : Type}

theorem everySecond_map (f : α → β) (items : List α) :
    everySecond (items.map f) = (everySecond items).map f := by
  fun_induction everySecond items with
  | case1 => rfl
  | case2 x => rfl
  | case3 x y rest ih => rw [List.map_cons, List.map_cons, everySecond, ih, List.map_cons]

theorem apply_map (stage : Stage) (f : α → β) (items : List α) :
    stage.apply (items.map f) = (stage.apply items).map f := by
  cases stage with
  | first => rw [apply, apply, List.map_take]
  | last => rw [apply, apply, List.getLast?_map, Option.toList_map]
  | eq index =>
    rw [apply, apply]
    split_ifs
    · rfl
    · rw [List.getElem?_map, Option.toList_map]
  | gt index =>
    rw [apply, apply]
    split_ifs
    · rfl
    · rw [List.map_drop]
  | lt index =>
    rw [apply, apply]
    split_ifs
    · rfl
    · rw [List.map_take]
  | even => exact everySecond_map f items
  | odd => rw [apply, apply, ← List.map_drop, everySecond_map]

/-- Stages keep the same positions, whatever the items are. -/
theorem applyAll_map (stages : List Stage) (f : α → β) (items : List α) :
    applyAll stages (items.map f) = (applyAll stages items).map f := by
  induction stages generalizing items with
  | nil => rfl
  | cons stage stages ih =>
    show applyAll stages (stage.apply (items.map f)) = _
    rw [apply_map]
    exact ih (stage.apply items)

theorem applyAll_append (stages stages' : List Stage) (items : List α) :
    applyAll (stages ++ stages') items = applyAll stages' (applyAll stages items) :=
  List.foldl_append

/-- The positions that stages keep in a list of some length. -/
def positions (stages : List Stage) (length : Nat) : List Nat :=
  applyAll stages (List.range length)

theorem positions_sublist (stages : List Stage) (length : Nat) :
    (positions stages length).Sublist (List.range length) :=
  applyAll_sublist stages (List.range length)

theorem applyAll_eq_positions (stages : List Stage) (items : List α) :
    (applyAll stages items).map some = (positions stages items.length).map (items[·]?) := by
  have hitems : items.map some = (List.range items.length).map (items[·]?) := by
    apply List.ext_getElem (by simp)
    intro i hi _
    rw [List.length_map] at hi
    simp [hi]
  rw [← applyAll_map, hitems, applyAll_map, positions]

/-! ## Even and odd positions -/

/-- The items of two lists in turn, starting with the first list. What one list has more than the
    other comes last. -/
def interleave : List α → List α → List α
  | [], ys => ys
  | x :: xs, [] => x :: xs
  | x :: xs, y :: ys => x :: y :: interleave xs ys

theorem everySecond_cons (x : α) (items : List α) :
    everySecond (x :: items) = x :: everySecond (items.drop 1) := by
  cases items with
  | nil => rfl
  | cons y rest => rfl

theorem interleave_everySecond (items : List α) :
    interleave (everySecond items) (everySecond (items.drop 1)) = items := by
  fun_induction everySecond items with
  | case1 => rfl
  | case2 x => rfl
  | case3 x y rest ih => rw [List.drop_one, List.tail_cons, everySecond_cons, interleave, ih]

theorem ofRefinements_append {rs rs' : List Refinement} {stages stages' : List Stage}
    (h : ofRefinements rs = .ok stages) (h' : ofRefinements rs' = .ok stages') :
    ofRefinements (rs ++ rs') = .ok (stages ++ stages') := by
  rw [ofRefinements] at h h' ⊢
  rw [List.mapM_append, h, h']
  rfl

/-- Refinements keep the same positions in all lists of a length, in their order and each once.
    Those of two lists of refinements, one behind the other, apply one list after the other. And
    `even` and `odd` divide a list into two that make it up again, item by item in turn. -/
theorem applyAll_keeps_positions (rs : List Refinement) (stages : List Stage)
    (h : ofRefinements rs = .ok stages) :
    (∀ length, ∃ kept : List Nat, kept.Pairwise (· < ·) ∧ (∀ i ∈ kept, i < length) ∧
      ∀ (α : Type) (items : List α), items.length = length →
        (applyAll stages items).map some = kept.map (items[·]?)) ∧
    (∀ rs' stages', ofRefinements rs' = .ok stages' →
      ∃ both, ofRefinements (rs ++ rs') = .ok both ∧
        ∀ (α : Type) (items : List α),
          applyAll both items = applyAll stages' (applyAll stages items)) ∧
    ∃ evens odds, ofRefinements [⟨"even", none⟩] = .ok evens ∧
      ofRefinements [⟨"odd", none⟩] = .ok odds ∧
      ∀ (α : Type) (items : List α),
        interleave (applyAll evens items) (applyAll odds items) = items := by
  refine ⟨fun length => ?_, fun rs' stages' h' => ?_, ?_⟩
  · have hsublist := positions_sublist stages length
    refine ⟨positions stages length, List.pairwise_lt_range.sublist hsublist, fun i hi => ?_, ?_⟩
    · exact List.mem_range.1 (hsublist.mem hi)
    · rintro α items rfl
      exact applyAll_eq_positions stages items
  · exact ⟨stages ++ stages', ofRefinements_append h h',
      fun α items => applyAll_append stages stages' items⟩
  · exact ⟨[even], [odd], rfl, rfl, fun α items => interleave_everySecond items⟩

/-- Every second item behind the first one, and of these the last. -/
theorem applyAll_keeps_positions_odd_last :
    ofRefinements [⟨"odd", none⟩] = .ok [odd] ∧
      ∃ both, ofRefinements [⟨"odd", none⟩, ⟨"last", none⟩] = .ok both ∧
        applyAll both ["a", "b", "c", "d", "e"] = ["d"] := by
  have hodd : ofRefinements [⟨"odd", none⟩] = .ok [odd] := rfl
  have hlast : ofRefinements [⟨"last", none⟩] = .ok [last] := rfl
  refine ⟨hodd, ?_⟩
  obtain ⟨both, hboth, happly⟩ := (applyAll_keeps_positions _ _ hodd).2.1 _ _ hlast
  exact ⟨both, hboth, happly String ["a", "b", "c", "d", "e"]⟩

end Stage

end TreeQuery
