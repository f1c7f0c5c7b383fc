import Mathlib.Data.List.Basic
import TreeQuery.Checklist.Bounds

/-!
# What an expectation says

What a check asks for is told in words. The words can be read back as a range of numbers, and these
are the numbers of matches that the check accepts.

Results:
* `CountRange.ofText?`: the range that a text stands for.
* `Expectation.ofText?_text`: the wording of an expectation is read back.
* `Bounds.range_expectation`: what bounds expect is the range between them.
* `Bounds.expectation_text_tells`: the text says exactly which numbers are accepted.
-/

namespace TreeQuery

/-! ## Ranges of numbers -/

/-- The numbers from a least one on, up to a greatest one if there is one. -/
structure CountRange where
  least : Nat
  greatest? : Option Nat
  deriving DecidableEq

instance : Membership Nat CountRange where
  mem r count := r.least ≤ count ∧ ∀ greatest ∈ r.greatest?, count ≤ greatest

/-- The number that a word of decimal digits stands for. -/
def decimal? (word : String) : Option Nat :=
  if word.toList.isEmpty || !word.toList.all Char.isDigit then none
  else some (Nat.ofDigitChars 10 word.toList 0)

/-- The range that words stand for. -/
def CountRange.ofWords? : List String → Option CountRange
  | ["none"] => some ⟨0, some 0⟩
  | ["exactly", count] => (decimal? count).map fun n => ⟨n, some n⟩
  | ["at", "most", count] => (decimal? count).map fun n => ⟨0, some n⟩
  | ["between", least, "and", greatest] =>
    (decimal? least).bind fun a => (decimal? greatest).map fun b => ⟨a, some b⟩
  | ["at", "least", count] => (decimal? count).map fun n => ⟨n, none⟩
  | _ => none

/-- The range that a text stands for. -/
def CountRange.ofText? (text : String) : Option CountRange :=
  ofWords? ((text.toList.splitOn ' ').map String.ofList)

/-! ## Reading an expectation back -/

theorem isDigit_of_mem_toDigits {n : Nat} {c : Char} (h : c ∈ Nat.toDigits 10 n) : c.isDigit :=
  Nat.isDigit_of_mem_toDigits (by decide) (by decide) h

/-- A number is read back from its decimal digits. -/
theorem decimal?_toString (n : Nat) : decimal? (toString n) = some n := by
  have hdigits : (Nat.toDigits 10 n).all Char.isDigit = true :=
    List.all_eq_true.2 fun c => isDigit_of_mem_toDigits
  rw [decimal?, Nat.toString_eq_ofList_toDigits, String.toList_ofList, if_neg (by simp [hdigits]),
    Nat.ofDigitChars_toDigits (by decide) (by decide)]

namespace Expectation

/-- The range that an expectation means. -/
def range : Expectation → CountRange
  | none => ⟨0, some 0⟩
  | exactly count => ⟨count, some count⟩
  | atMost count => ⟨0, some count⟩
  | between least greatest => ⟨least, some greatest⟩
  | atLeast count => ⟨count, .none⟩

/-- The words of an expectation. -/
def words : Expectation → List String
  | none => ["none"]
  | exactly count => ["exactly", toString count]
  | atMost count => ["at", "most", toString count]
  | between least greatest => ["between", toString least, "and", toString greatest]
  | atLeast count => ["at", "least", toString count]

theorem text_eq_intercalate (e : Expectation) : e.text = " ".intercalate e.words := by
  cases e <;> simp [text, words, ← String.toList_inj]

theorem space_notMem_words (e : Expectation) : ∀ w ∈ e.words, ' ' ∉ w.toList := by
  have hnumber : ∀ n : Nat, ' ' ∉ Nat.toDigits 10 n := by
    intro n h
    have hdigit := isDigit_of_mem_toDigits h
    revert hdigit
    decide
  cases e <;> simp [words, hnumber]

theorem splitOn_text (e : Expectation) :
    (e.text.toList.splitOn ' ').map String.ofList = e.words := by
  have hwords : e.words ≠ [] := by
    cases e <;> simp [words]
  rw [text_eq_intercalate, String.toList_intercalate]
  rw [show " ".toList = [' '] from rfl, List.splitOn_intercalate ' ' ?_ (by simpa using hwords)]
  · simp
  · simpa using space_notMem_words e

theorem ofWords?_words (e : Expectation) : CountRange.ofWords? e.words = some e.range := by
  cases e with
  | none => rfl
  | exactly count | atMost count | atLeast count =>
    show (decimal? (toString count)).map _ = _
    rw [decimal?_toString]
    rfl
  | between least greatest =>
    show (decimal? (toString least)).bind _ = _
    rw [decimal?_toString, Option.bind_some, decimal?_toString]
    rfl

/-- The wording of an expectation is read back. -/
theorem ofText?_text (e : Expectation) : CountRange.ofText? e.text = some e.range := by
  rw [CountRange.ofText?, splitOn_text, ofWords?_words]

end Expectation

/-! ## What bounds accept -/

namespace Bounds

theorem accepts_iff {b : Bounds} {count : Nat} :
    b.accepts count = true ↔ b.least ≤ count ∧ ∀ max ∈ b.max?, count ≤ max := by
  unfold accepts
  cases b.max? with
  | none => simp
  | some max => simp

theorem accepts_iff_mem {b : Bounds} {count : Nat} :
    b.accepts count = true ↔ count ∈ CountRange.mk b.least b.max? :=
  accepts_iff

/-- What bounds expect is the range between them, even if they are the wrong way round. -/
theorem range_expectation (b : Bounds) : b.expectation.range = ⟨b.least, b.max?⟩ := by
  unfold expectation
  cases b.max? with
  | none => rfl
  | some max =>
    dsimp only
    split
    · rename_i h
      rw [h.1, h.2]
      rfl
    · split
      · rename_i h
        rw [h]
        rfl
      · split
        · rename_i h
          rw [h]
          rfl
        · rfl

/-- The text that tells what a check asks for can be read back as a range of numbers, which holds
    exactly the numbers of matches that the check accepts, whatever its bounds are. So checks with
    the same text accept the same numbers. -/
theorem expectation_text_tells (b : Bounds) :
    (∃ r, CountRange.ofText? b.expectation.text = some r ∧
      ∀ count, count ∈ r ↔ b.accepts count = true) ∧
    ∀ b' : Bounds, b'.expectation.text = b.expectation.text →
      ∀ count, b'.accepts count = b.accepts count := by
  have hread : ∀ b : Bounds, CountRange.ofText? b.expectation.text = some ⟨b.least, b.max?⟩ := by
    intro b
    rw [Expectation.ofText?_text, range_expectation]
  refine ⟨⟨_, hread b, fun count => accepts_iff_mem.symm⟩, fun b' htext count => ?_⟩
  have hsame : CountRange.mk b'.least b'.max? = ⟨b.least, b.max?⟩ := by
    have hread' := hread b'
    rw [htext, hread b] at hread'
    exact (Option.some.inj hread').symm
  rw [Bool.eq_iff_iff, accepts_iff_mem, accepts_iff_mem, hsame]

/-- A greatest number alone, and a least number of zero beside it, are told alike. Bounds that are
    the wrong way round accept nothing, and the text says so. -/
theorem expectation_text_tells_atMost :
    let b : Bounds := ⟨none, some 2⟩
    let b' : Bounds := ⟨some 0, some 2⟩
    let reversed : Bounds := ⟨some 3, some 1⟩
    b.expectation.text = "at most 2" ∧ b'.expectation.text = "at most 2" ∧
      (∀ count, b'.accepts count = b.accepts count) ∧
      reversed.expectation.text = "between 3 and 1" ∧
      CountRange.ofText? "between 3 and 1" = some ⟨3, some 1⟩ ∧
      ∀ count, (3 ≤ count ∧ count ≤ 1) ↔ reversed.accepts count = true := by
  intro b b' reversed
  have htext : reversed.expectation.text = "between 3 and 1" := by decide +kernel
  have hread : CountRange.ofText? "between 3 and 1" = some ⟨3, some 1⟩ := by decide +kernel
  obtain ⟨⟨r, hr, haccepts⟩, -⟩ := expectation_text_tells reversed
  rw [htext, hread] at hr
  obtain rfl := Option.some.inj hr
  refine ⟨by decide +kernel, by decide +kernel,
    (expectation_text_tells b).2 b' (by decide +kernel), htext, hread, fun count => ?_⟩
  rw [← haccepts count]
  exact and_congr_right' (by simp)

end Bounds

end TreeQuery
