import TreeQuery.Proofs.DocumentOrder
import TreeQuery.Proofs.Outcomes

/-!
# Strings with values filled in

Whether a string has a value filled in is seen from above, by what is below the string. Whether a
piece of text belongs to such a string is seen from below, by what is above the piece. Both views
agree on the nodes that a query can reach, since the path from the root to such a node is made of
nodes that a query can reach too.

Results:
* `Document.Reachable`: the nodes that queries on a document look at.
* `Document.Reachable.enclosing`: the string around a reachable node is reachable, or is the root.
* `Document.exists_find_kindName`: what a query for a target without parameters finds.
* `Document.find_strings_and_fragments`: how the strings, the strings with values filled in and the
  fragments of these go together.
-/

namespace TreeQuery

/-! ## Reachable nodes -/

namespace Node

theorem parent?_of_mem_namedChildren {c n : Node} (h : c ∈ n.namedChildren) :
    c.parent? = some n := by
  obtain ⟨t, -, rfl⟩ := mem_children.1 (mem_namedChildren.1 h).1
  rfl

/-- A subtree goes on to the named nodes below its nodes. -/
theorem mem_subtree_of_mem_namedChildren {n m c : Node} (hm : m ∈ n.subtree)
    (hc : c ∈ m.namedChildren) : c ∈ n.subtree := by
  induction n using subtree.induct with
  | case1 n ih =>
    rw [subtree_eq_cons, List.mem_cons, List.mem_flatMap] at hm ⊢
    right
    rcases hm with rfl | ⟨k, hk, hm⟩
    · refine ⟨c, hc, ?_⟩
      rw [subtree_eq_cons]
      exact List.mem_cons_self
    · exact ⟨k, hk, ih ⟨k, hk⟩ hm⟩

end Node

namespace Document

variable {d : Document} {n : Node}

/-- The nodes that queries on a document look at: the statements, and what is below them through
    named nodes. -/
inductive Reachable (d : Document) : Node → Prop
  | statement {n : Node} (hn : n ∈ d.topLevel) : Reachable d n
  | deeper {n c : Node} (hn : Reachable d n) (hc : c ∈ n.namedChildren) : Reachable d c

theorem reachable_iff_mem_listing : d.Reachable n ↔ n ∈ Node.listing true d.topLevel := by
  constructor
  · intro h
    induction h with
    | statement hn =>
      refine List.mem_flatMap.2 ⟨_, hn, ?_⟩
      rw [Node.reach_eq_cons_below]
      exact List.mem_cons_self
    | deeper _ hc ih =>
      obtain ⟨m, hm, hn⟩ := List.mem_flatMap.1 ih
      exact List.mem_flatMap.2 ⟨m, hm, Node.mem_subtree_of_mem_namedChildren hn hc⟩
  · intro h
    obtain ⟨m, hm, hn⟩ := List.mem_flatMap.1 h
    exact Node.forall_mem_subtree (fun _ hn _ hc => .deeper hn hc) (.statement hm) n hn

/-- Going up from a reachable node, one gets to a reachable node or to the root. -/
theorem Reachable.parent (h : d.Reachable n) :
    ∃ p, n.parent? = some p ∧ (p = d.root ∨ d.Reachable p) := by
  cases h with
  | statement hn => exact ⟨d.root, Node.parent?_of_mem_namedChildren hn, .inl rfl⟩
  | deeper hp hc => exact ⟨_, Node.parent?_of_mem_namedChildren hc, .inr hp⟩

end Document

/-! ## The string around a node -/

namespace Php

/-- The string that a node would be a part of: the node above it or, where that is the body of a
    heredoc, the one above the body. -/
def enclosing? (n : Node) : Option Node :=
  n.parent?.bind fun parent =>
    if parent.kind = "heredoc_body" then parent.parent? else some parent

theorem inInterpolated_iff {n : Node} :
    inInterpolated n = true ↔ ∃ s ∈ enclosing? n, isInterpolated s = true := by
  unfold inInterpolated enclosing?
  cases n.parent? with
  | none => simp
  | some parent =>
    dsimp only [Option.bind_some]
    split
    · cases parent.parent? <;> simp
    · simp

/-- Only strings in double quotes and heredocs have values filled in. -/
theorem kind_of_isInterpolated {n : Node} (h : isInterpolated n = true) :
    n.kind = "encapsed_string" ∨ n.kind = "heredoc" := by
  unfold isInterpolated at h
  split at h
  · exact .inl ‹_›
  · split at h
    · exact .inr ‹_›
    · cases h

end Php

namespace Document

variable {d : Document} {n : Node}

/-- The string around a reachable node is reachable, unless it is the root. The body of a heredoc
    that is passed over is no obstacle: above the root there is nothing. -/
theorem Reachable.enclosing (h : d.Reachable n) {s : Node} (hs : s ∈ Php.enclosing? n) :
    s = d.root ∨ d.Reachable s := by
  obtain ⟨p, hp, hplace⟩ := h.parent
  rw [Php.enclosing?, hp, Option.bind_some] at hs
  split at hs
  · rcases hplace with rfl | hreach
    · cases hs
    · obtain ⟨q, hq, hplace⟩ := hreach.parent
      obtain rfl : q = s := Option.some.inj (hq.symm.trans hs)
      exact hplace
  · obtain rfl : p = s := Option.some.inj hs
    exact hplace

end Document

/-! ## Queries without parameters -/

theorem Selector.render_ofKind (kind : String) : (ofKind kind).render = kind := by
  show String.ofList ([] ++ kind.toList ++ [] ++ []) = kind
  rw [List.nil_append, List.append_nil, List.append_nil, String.ofList_toList]

namespace Document

/-- A query for a target that needs no name is understood, and finds the reachable nodes that the
    target wants. -/
theorem exists_find_kindName (d : Document) {t : Target} (ht : t.requiresName = false) :
    ∃ found, d.find t.kindName = .ok found ∧
      ∀ n, n ∈ found ↔ d.Reachable n ∧ t.Wants .standard .empty n := by
  have hparse : Selector.parse t.kindName = .ok (Selector.ofKind t.kindName) := by
    have hnamed : (Selector.ofKind t.kindName).WellNamed :=
      ⟨t.kindName_isIdentifier, fun _ h => (List.not_mem_nil h).elim,
        fun _ h => (List.not_mem_nil h).elim⟩
    have hread := Selector.parse_render_of_wellNamed hnamed
    rwa [Selector.render_ofKind] at hread
  obtain ⟨accepts, haccepts⟩ : ∃ accepts, Query.predicate .standard t .empty = .ok accepts := by
    cases t with
    | operator | construct | builtinCall => cases ht
    | variableUse | function | stringLiteral | interpolation | fragment => exact ⟨_, rfl⟩
  have hquery : Query.ofSelector .standard (Selector.ofKind t.kindName) =
      .ok ⟨accepts, true, []⟩ :=
    Query.ofSelector_eq_ok_iff.2 ⟨t, Target.ofKind?_eq_some_iff.2 rfl, rfl, haccepts, rfl⟩
  refine ⟨_, find_eq_ok_iff.2 ⟨_, _, hparse, hquery, rfl⟩, fun n => ?_⟩
  rw [Query.run_eq_filter, reachable_iff_mem_listing, ← Query.predicate_iff_wants haccepts n]
  exact List.mem_filter

end Document

/-! ## Strings and fragments -/

namespace Target

variable {g : Registry} {n : Node}

theorem wants_stringLiteral_empty : stringLiteral.Wants g .empty n ↔
    n.kind = "string" ∨ n.kind = "encapsed_string" ∧ ¬ Php.isInterpolated n = true := by
  show _ ∧ (∀ v ∈ (none : Option String), _) ↔ _
  simp

theorem wants_fragment_empty : fragment.Wants g .empty n ↔
    n.kind = "string_content" ∧ ∃ s ∈ Php.enclosing? n, Php.isInterpolated s = true := by
  show _ ∧ _ ∧ (∀ v ∈ (none : Option String), _) ↔ _
  rw [Php.inInterpolated_iff]
  simp

end Target

namespace Document

/-- In a document whose root is neither a string in double quotes nor a heredoc, queries for
    strings, for strings with values filled in and for fragments go together as follows. No node
    is both of the first two; a reachable string in double quotes is one of them; and a reachable
    piece of text is a fragment exactly if the string around it is found to have values filled in,
    where the body of a heredoc counts as the heredoc. -/
theorem find_strings_and_fragments (d : Document) (hquoted : d.root.kind ≠ "encapsed_string")
    (hheredoc : d.root.kind ≠ "heredoc") :
    ∃ strings interpolations fragments, d.find "string" = .ok strings ∧
      d.find "interpolation" = .ok interpolations ∧ d.find "encapsed-string" = .ok fragments ∧
      (∀ n ∈ strings, n ∉ interpolations) ∧
      (∀ n, d.Reachable n → n.kind = "encapsed_string" →
        (n ∈ strings ↔ n ∉ interpolations)) ∧
      ∀ n, d.Reachable n → n.kind = "string_content" →
        (n ∈ fragments ↔ ∃ s ∈ Php.enclosing? n, s ∈ interpolations) := by
  obtain ⟨strings, hstrings, hstring⟩ := d.exists_find_kindName (t := .stringLiteral) rfl
  obtain ⟨inters, hinters, hinter⟩ := d.exists_find_kindName (t := .interpolation) rfl
  obtain ⟨fragments, hfragments, hfragment⟩ := d.exists_find_kindName (t := .fragment) rfl
  simp only [Target.wants_stringLiteral_empty] at hstring
  simp only [Target.wants_fragment_empty] at hfragment
  refine ⟨strings, inters, fragments, hstrings, hinters, hfragments, fun n hn hi => ?_,
    fun n hreach hkind => ?_, fun n hreach hkind => ?_⟩
  · have hvalue : Php.isInterpolated n = true := ((hinter n).1 hi).2
    rcases ((hstring n).1 hn).2 with hkind | ⟨-, hplain⟩
    · have hkinds := Php.kind_of_isInterpolated hvalue
      rw [hkind] at hkinds
      revert hkinds
      decide
    · exact hplain hvalue
  · rw [hstring, hinter, hkind]
    simp [hreach, Target.Wants]
  · rw [hfragment]
    simp only [hinter, hreach, hkind, true_and]
    refine exists_congr fun s => and_congr_right fun hs => ⟨fun hvalue => ⟨?_, hvalue⟩, And.right⟩
    -- a string with values filled in is not the root
    refine (hreach.enclosing hs).resolve_left ?_
    rintro rfl
    exact (Php.kind_of_isInterpolated hvalue).elim hquoted hheredoc

/-- A string in double quotes without values, and a heredoc with one. -/
def letterDocument : Document :=
  ⟨"\"a\";<<<E\nb$c\nE;",
    .node 0 (.faultless "program" 0 15 true []) [
      .node 1 (.faultless "expression_statement" 0 4 true []) [
        .node 2 (.faultless "encapsed_string" 0 3 true []) [
          .node 3 (.faultless "\"" 0 1 false []) [],
          .node 4 (.faultless "string_content" 1 2 true []) [],
          .node 5 (.faultless "\"" 2 3 false []) []]],
      .node 6 (.faultless "expression_statement" 4 15 true []) [
        .node 7 (.faultless "heredoc" 4 14 true []) [
          .node 8 (.faultless "<<<" 4 7 false []) [],
          .node 9 (.faultless "heredoc_start" 7 8 true []) [],
          .node 10 (.faultless "heredoc_body" 8 12 true []) [
            .node 11 (.faultless "string_content" 9 10 true []) [],
            .node 12 (.faultless "variable_name" 10 12 true []) []],
          .node 13 (.faultless "heredoc_end" 13 14 true []) []]]]⟩

/-- The text in the heredoc is a fragment, by way of the body; the text in quotes is none. -/
theorem find_strings_and_fragments_letter :
    letterDocument.root.kind = "program" ∧
      ∃ strings interpolations fragments, letterDocument.find "string" = .ok strings ∧
        letterDocument.find "interpolation" = .ok interpolations ∧
        letterDocument.find "encapsed-string" = .ok fragments ∧
        strings.map (·.tree.row) = [2] ∧ interpolations.map (·.tree.row) = [7] ∧
        fragments.map (·.tree.row) = [11] ∧ (∀ n ∈ strings, n ∉ interpolations) ∧
        ∀ n, letterDocument.Reachable n → n.kind = "string_content" →
          (n ∈ fragments ↔ ∃ s ∈ Php.enclosing? n, s ∈ interpolations) := by
  obtain ⟨strings, inters, fragments, hstrings, hinters, hfragments, hapart, -, hfragment⟩ :=
    find_strings_and_fragments letterDocument (by decide) (by decide)
  have hrows : ["string", "interpolation", "encapsed-string"].map (fun text =>
      (letterDocument.find text).map fun found => found.map (·.tree.row)) =
        [.ok [2], .ok [7], .ok [11]] := by
    decide +kernel
  simp only [List.map_cons, List.map_nil, hstrings, hinters, hfragments, Except.map,
    List.cons.injEq, Except.ok.injEq, and_true] at hrows
  exact ⟨rfl, strings, inters, fragments, hstrings, hinters, hfragments, hrows.1, hrows.2.1,
    hrows.2.2, hapart, hfragment⟩

end Document

end TreeQuery
