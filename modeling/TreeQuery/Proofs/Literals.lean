import TreeQuery.Proofs.Interpolation
import TreeQuery.Proofs.Narrowing

/-!
# Contents of string literals

A string with given contents can be written in six ways: in single or in double quotes, and with
`b`, `B` or nothing in front. The contents are read back from each of them, whatever they are; they
may be empty, and may have quotes in them, at their ends too. A text that is no such literal is its
own contents, but for a `b` or `B` in front of a quote.

Results:
* `Php.spellings`: the ways to write a string, and `Php.mem_spellings_iff`, what they look like.
* `Php.stringValue_of_mem_spellings`: the contents of a literal.
* `Php.stringValue_of_marked`, `Php.stringValue_of_plain`: what other texts have for contents.
* `Php.stringValue_tells_literals`: which texts have given contents, and which literals a search for
  these contents finds.
-/

namespace TreeQuery

namespace Php

/-! ## Quotes and marks -/

variable {c mark quote : Char} {cs : List Char}

/-- The letters that mark a binary string. -/
def IsBinaryMark (c : Char) : Prop :=
  c = 'b' ∨ c = 'B'

theorem isStringQuote_iff : isStringQuote c ↔ c = '\x22' ∨ c = '\x27' := by
  simp [isStringQuote]

theorem not_isBinaryMark_of_isStringQuote (h : isStringQuote c) : ¬ IsBinaryMark c := by
  rintro (rfl | rfl) <;> revert h <;> decide

theorem stripBinaryMark_marked (hmark : IsBinaryMark mark) (hquote : isStringQuote quote)
    (cs : List Char) : stripBinaryMark (mark :: quote :: cs) = quote :: cs := by
  rw [stripBinaryMark, if_pos]
  rcases hmark with rfl | rfl <;> exact hquote

theorem stripBinaryMark_eq_self (h : ∀ mark quote rest, IsBinaryMark mark → isStringQuote quote →
    cs ≠ mark :: quote :: rest) : stripBinaryMark cs = cs := by
  unfold stripBinaryMark
  split
  · rename_i m q rest
    refine if_neg fun hboth => ?_
    simp only [Bool.and_eq_true, Bool.or_eq_true, beq_iff_eq] at hboth
    exact h m q rest hboth.1 hboth.2 rfl
  · rfl

theorem unquote_enclosed (hquote : isStringQuote quote) (body : List Char) :
    unquote (quote :: (body ++ [quote])) = body := by
  rw [unquote, if_pos (by simp [hquote]), List.dropLast_concat]

theorem unquote_eq_self (h : ∀ quote body, isStringQuote quote → cs ≠ quote :: (body ++ [quote])) :
    unquote cs = cs := by
  cases cs with
  | nil => rfl
  | cons opening rest =>
    refine if_neg fun hboth => ?_
    rw [Bool.and_eq_true, beq_iff_eq] at hboth
    obtain ⟨body, rfl⟩ := List.getLast?_eq_some_iff.1 hboth.2
    exact h opening body hboth.1 rfl

/-! ## Ways to write a string -/

/-- The six ways to write a string with given contents. -/
def spellings (body : String) : List String :=
  ["", "b", "B"].flatMap fun mark =>
    ["'", "\""].map fun quote => mark ++ quote ++ body ++ quote

/-- A text in quotes, with or without a mark. -/
def IsQuoted (t : String) : Prop :=
  ∃ body, t ∈ spellings body

/-- The text `t` is `rest` with a mark in front, and `rest` starts with a quote. -/
def Marked (t rest : String) : Prop :=
  ∃ mark quote cs, IsBinaryMark mark ∧ isStringQuote quote ∧ rest.toList = quote :: cs ∧
    t.toList = mark :: rest.toList

variable {t rest body v : String}

/-- The contents stand between two quotes of one kind, and perhaps there is a mark in front. -/
theorem mem_spellings_iff : t ∈ spellings body ↔
    ∃ quote, isStringQuote quote ∧ (t.toList = quote :: (body.toList ++ [quote]) ∨
      ∃ mark, IsBinaryMark mark ∧ t.toList = mark :: quote :: (body.toList ++ [quote])) := by
  have hsix : t ∈ spellings body ↔ ∃ mark ∈ ["", "b", "B"], ∃ quote ∈ ["'", "\""],
      t.toList = mark.toList ++ quote.toList ++ body.toList ++ quote.toList := by
    simp only [spellings, List.mem_flatMap, List.mem_map, ← String.toList_inj,
      String.toList_append, eq_comm]
  rw [hsix]
  simp only [List.mem_cons, List.not_mem_nil, or_false, or_and_right, exists_or, ↓existsAndEq,
    String.reduceToList, String.toList_empty, List.cons_append, List.nil_append, true_and,
    isStringQuote_iff, IsBinaryMark]
  tauto

/-- The contents of a literal are what stands between its quotes, whatever that is. -/
theorem stringValue_of_mem_spellings (h : t ∈ spellings body) : stringValue t = body := by
  obtain ⟨quote, hquote, hplain | ⟨mark, hmark, hmarked⟩⟩ := mem_spellings_iff.1 h
  · have hstrip : stripBinaryMark t.toList = t.toList := by
      refine stripBinaryMark_eq_self fun mark quote' rest hmark _ heq => ?_
      obtain ⟨rfl, -⟩ := List.cons.inj (hplain.symm.trans heq)
      exact not_isBinaryMark_of_isStringQuote hquote hmark
    rw [stringValue, hstrip, hplain, unquote_enclosed hquote, String.ofList_toList]
  · rw [stringValue, hmarked, stripBinaryMark_marked hmark hquote, unquote_enclosed hquote,
      String.ofList_toList]

/-- A literal with given contents is one of the ways to write them. -/
theorem stringValue_eq_iff (h : IsQuoted t) : stringValue t = v ↔ t ∈ spellings v := by
  obtain ⟨body, hbody⟩ := h
  refine ⟨fun hv => ?_, stringValue_of_mem_spellings⟩
  rwa [← hv, stringValue_of_mem_spellings hbody]

/-- A text is a literal if it can be written again from its contents. -/
theorem isQuoted_iff : IsQuoted t ↔ t ∈ spellings (stringValue t) :=
  ⟨fun h => (stringValue_eq_iff h).1 rfl, fun h => ⟨_, h⟩⟩

instance (t : String) : Decidable (IsQuoted t) :=
  decidable_of_iff _ isQuoted_iff.symm

/-- A text that is no literal loses only a mark in front of a quote. -/
theorem stringValue_of_marked (h : ¬ IsQuoted t) (hmarked : Marked t rest) :
    stringValue t = rest := by
  obtain ⟨mark, quote, cs, hmark, hquote, hrest, ht⟩ := hmarked
  have hunquote : unquote rest.toList = rest.toList := by
    refine unquote_eq_self fun quote' body hquote' heq => h ⟨String.ofList body, ?_⟩
    refine mem_spellings_iff.2 ⟨quote', hquote', .inr ⟨mark, hmark, ?_⟩⟩
    rw [ht, heq, String.toList_ofList]
  rw [stringValue, ht, hrest, stripBinaryMark_marked hmark hquote, ← hrest, hunquote,
    String.ofList_toList]

/-- A text that is no literal, and has no mark in front of a quote, stays as it is. -/
theorem stringValue_of_plain (h : ¬ IsQuoted t) (hplain : ∀ rest, ¬ Marked t rest) :
    stringValue t = t := by
  have hstrip : stripBinaryMark t.toList = t.toList := by
    refine stripBinaryMark_eq_self fun mark quote cs hmark hquote heq => ?_
    refine hplain (String.ofList (quote :: cs)) ⟨mark, quote, cs, hmark, hquote, ?_, ?_⟩
    · rw [String.toList_ofList]
    · rw [heq, String.toList_ofList]
  have hunquote : unquote t.toList = t.toList := by
    refine unquote_eq_self fun quote body hquote heq => h ⟨String.ofList body, ?_⟩
    refine mem_spellings_iff.2 ⟨quote, hquote, .inl ?_⟩
    rw [heq, String.toList_ofList]
  rw [stringValue, hstrip, hunquote, String.ofList_toList]

end Php

/-! ## Searches for strings -/

/-- Among the literals, a value picks those that have it for contents. -/
theorem Target.wants_stringLiteral_value {g : Registry} {n : Node} (v : String) :
    stringLiteral.Wants g (Params.empty.insert "value" v) n ↔
      stringLiteral.Wants g .empty n ∧ Php.stringValue n.text = v := by
  have hvalue : (Params.empty.insert "value" v).get? "value" = some v := by
    rw [Params.get?_insert, if_pos rfl]
  rw [wants_stringLiteral_empty, Wants, hvalue]
  simp

namespace Php

/-- The contents of a text in quotes, with or without a mark, are exactly what stands between the
    quotes; so they are `v` exactly if the text is one of the six ways to write `v`. A text that is
    not in quotes is its own contents, but for a mark in front of a quote. Of the literals that a
    search finds, a search for `v` finds those that are written in one of the six ways. -/
theorem stringValue_tells_literals (t v : String) :
    (∀ body, t ∈ spellings body → stringValue t = body) ∧
    (IsQuoted t → (stringValue t = v ↔ t ∈ spellings v)) ∧
    (¬ IsQuoted t → (∀ rest, Marked t rest → stringValue t = rest) ∧
      ((∀ rest, ¬ Marked t rest) → stringValue t = t)) ∧
    ∀ (g : Registry) (nodes : List Node) (descend : Bool), ∃ literals found,
      invoke g "find_string" nodes .empty descend = .ok literals ∧
      invoke g "find_string" nodes (Params.empty.insert "value" v) descend = .ok found ∧
      ∀ n, IsQuoted n.text → (n ∈ found ↔ n ∈ literals ∧ n.text ∈ spellings v) := by
  refine ⟨fun body => stringValue_of_mem_spellings, stringValue_eq_iff, fun h => ?_,
    fun g nodes descend => ?_⟩
  · exact ⟨fun rest => stringValue_of_marked h, stringValue_of_plain h⟩
  · refine ⟨_, _, invoke_methodName_eq_ok_iff (t := .stringLiteral).2 ⟨⟨_, rfl⟩, rfl⟩,
      invoke_methodName_eq_ok_iff (t := .stringLiteral).2 ⟨⟨_, rfl⟩, rfl⟩, fun n hn => ?_⟩
    simp only [List.mem_filter, decide_eq_true_iff, Target.wants_stringLiteral_value,
      stringValue_eq_iff hn, and_assoc]

/-- A node that is a string literal. -/
def literalNode (row : Nat) (text : String) : Node :=
  ⟨text, .node row (.faultless "string" 0 text.utf8ByteSize true []) [], []⟩

/-- Contents with quotes at both ends, a mark in front of a quote that is not closed, and a search
    among three literals. -/
theorem stringValue_tells_literals_nested :
    let t := "b'\"x\"'"
    let nodes := [literalNode 1 t, literalNode 2 "\"x\"", literalNode 3 "'\"x\"'"]
    t ∈ spellings "\"x\"" ∧ stringValue t = "\"x\"" ∧
      IsQuoted t ∧ (stringValue t = "x" ↔ t ∈ spellings "x") ∧
      ¬ IsQuoted "B'x" ∧ Marked "B'x" "'x" ∧ stringValue "B'x" = "'x" ∧
      ∃ literals found, invoke .standard "find_string" nodes .empty true = .ok literals ∧
        invoke .standard "find_string" nodes (Params.empty.insert "value" "\"x\"") true =
          .ok found ∧
        literals.map (·.tree.row) = [1, 2, 3] ∧ found.map (·.tree.row) = [1, 3] ∧
        ∀ n, IsQuoted n.text → (n ∈ found ↔ n ∈ literals ∧ n.text ∈ spellings "\"x\"") := by
  intro t nodes
  have hspelled : t ∈ spellings "\"x\"" := by decide
  have hopen : ¬ IsQuoted "B'x" := by decide
  have hmarked : Marked "B'x" "'x" := ⟨'B', '\x27', ['x'], .inr rfl, rfl, rfl, rfl⟩
  have hrows : [Params.empty, Params.empty.insert "value" "\"x\""].map (fun params =>
      (invoke .standard "find_string" nodes params true).map fun found =>
        found.map (·.tree.row)) = [.ok [1, 2, 3], .ok [1, 3]] := by
    decide +kernel
  obtain ⟨literals, found, hliterals, hfound, hnodes⟩ :=
    (stringValue_tells_literals t "\"x\"").2.2.2 .standard nodes true
  simp only [List.map_cons, List.map_nil, hliterals, hfound, Except.map, List.cons.injEq,
    Except.ok.injEq, and_true] at hrows
  exact ⟨hspelled, (stringValue_tells_literals t "x").1 _ hspelled, ⟨_, hspelled⟩,
    (stringValue_tells_literals t "x").2.1 ⟨_, hspelled⟩, hopen, hmarked,
    ((stringValue_tells_literals "B'x" "x").2.2.1 hopen).1 _ hmarked,
    literals, found, hliterals, hfound, hrows.1, hrows.2, hnodes⟩

end Php

end TreeQuery
