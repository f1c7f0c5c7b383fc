import Mathlib.Data.List.Basic
import TreeQuery.Proofs.Result
import TreeQuery.Proofs.Stages
import TreeQuery.Proofs.Traversal
import TreeQuery.Query.Basic

/-!
# What a query finds

A query finds the nodes of its listing that its target wants, narrowed by position.

* `Target.Wants`: which nodes a target with given parameters stands for.
* `Query.predicate_iff_wants`: a resolved query accepts these nodes.
* `Query.run_eq_applyAll`: a run is the stages applied to what is accepted, without exceptions.
* `find_eq_narrowed_listing`: what a query finds, in one equation.
-/

namespace TreeQuery

/-! ## Targets -/

/-- The nodes that a target stands for. A parameter that is not given asks for nothing. -/
def Target.Wants (g : Registry) (params : Params) (n : Node) : Target → Prop
  | variableUse =>
    ∃ name ∈ Php.variableName? n, ∀ v ∈ params.get? "name", name = Php.stripDollars v
  | operator =>
    ∃ name ∈ params.get? "name", ∃ rule ∈ g.operators.find? (fun r => r.name == name),
      rule.holds n = true ∧
        ∀ e ∈ params.entries, ∀ p ∈ rule.param? e.1, p.value? n = some e.2
  | function =>
    ∃ name ∈ Php.functionName? n, ∀ v ∈ params.get? "name", name = v
  | construct =>
    ∃ name ∈ params.get? "name", ∃ c ∈ Construct.standard, c.name = name ∧ n.kind = c.nodeKind
  | builtinCall =>
    ∃ name ∈ params.get? "name", name ∈ builtinFunctions ∧
      ∃ callee ∈ Php.calleeName? n, Query.lowered callee = Query.lowered name
  | stringLiteral =>
    (n.kind = "string" ∨ n.kind = "encapsed_string" ∧ ¬Php.isInterpolated n = true) ∧
      ∀ v ∈ params.get? "value", Php.stringValue n.text = v
  | interpolation => Php.isInterpolated n = true
  | fragment =>
    n.kind = "string_content" ∧ Php.inInterpolated n = true ∧
      ∀ v ∈ params.get? "value", n.text = v

instance (g : Registry) (params : Params) (n : Node) (target : Target) :
    Decidable (target.Wants g params n) := by
  cases target <;> dsimp only [Target.Wants] <;> infer_instance

namespace Registry

theorem target_eq_ok_iff {kind : String} {t : Target} :
    target kind = .ok t ↔ Target.ofKind? kind = some t := by
  unfold target
  cases Target.ofKind? kind <;> simp

theorem operator_eq_ok_iff {g : Registry} {name : String} {r : Rule} :
    g.operator name = .ok r ↔ g.operators.find? (fun r => r.name == name) = some r := by
  unfold operator
  cases g.operators.find? fun r => r.name == name <;> simp

theorem construct_eq_ok_iff {name : String} {c : Construct} :
    construct name = .ok c ↔ Construct.standard.find? (fun c => c.name == name) = some c := by
  unfold construct
  cases Construct.standard.find? fun c => c.name == name <;> simp

theorem builtin_eq_ok_iff {name f : String} :
    builtin name = .ok f ↔ f = name ∧ name ∈ builtinFunctions := by
  unfold builtin
  cases h : builtinFunctions.find? fun f => f == name with
  | none =>
    have hname : name ∉ builtinFunctions := fun hmem => by
      simpa using List.find?_eq_none.1 h name hmem
    simp [hname]
  | some f' =>
    obtain rfl : f' = name := by simpa using List.find?_some h
    have hname := List.mem_of_find?_eq_some h
    simp [hname, eq_comm]

end Registry

namespace Query

theorem requireName_eq_ok_iff {g : Registry} {target : Target} {params : Params} {name : String} :
    requireName g target params = .ok name ↔ params.get? "name" = some name := by
  unfold requireName
  cases params.get? "name" <;> simp

theorem agrees_iff {expected : Option String} {actual : String} :
    agrees expected (some actual) = true ↔ ∀ v ∈ expected, actual = v := by
  cases expected <;> simp [agrees]

theorem isSome_and_agrees_iff {expected actual : Option String} :
    (actual.isSome && agrees expected actual) = true ↔
      ∃ name ∈ actual, ∀ v ∈ expected, name = v := by
  cases actual with
  | none => simp
  | some name => simp [agrees_iff]

/-- No two known language constructs have the same name. -/
theorem construct_eq_of_name_eq :
    ∀ c ∈ Construct.standard, ∀ d ∈ Construct.standard, c.name = d.name → c = d := by
  decide

/-! ### One target after the other -/

section Predicate

variable {g : Registry} {params : Params} {accepts : Node → Bool}

/-- What a target without a required name accepts does not depend on the check of parameters. -/
theorem eq_of_checked {target : Target} {extra : List String} {wanted : Node → Bool}
    (h : (checkParams target params extra >>= fun _ => pure wanted) = .ok accepts) :
    accepts = wanted := by
  obtain ⟨-, -, h⟩ := Result.bind_eq_ok_iff.1 h
  exact (Except.ok.inj h).symm

/-- A target with a required name accepts what the name stands for. -/
theorem eq_of_looked_up {β : Type} {target : Target} {lookup : String → Except QueryError β}
    {extra : β → List String} {wanted : β → Node → Bool}
    (h : (requireName g target params >>= fun name => lookup name >>= fun meant =>
      checkParams target params (extra meant) >>= fun _ => pure (wanted meant)) = .ok accepts) :
    ∃ name meant, params.get? "name" = some name ∧ lookup name = .ok meant ∧
      accepts = wanted meant := by
  obtain ⟨name, hname, h⟩ := Result.bind_eq_ok_iff.1 h
  obtain ⟨meant, hmeant, h⟩ := Result.bind_eq_ok_iff.1 h
  exact ⟨name, meant, requireName_eq_ok_iff.1 hname, hmeant, eq_of_checked h⟩

variable {n : Node}

theorem predicate_variableUse (h : predicate g .variableUse params = .ok accepts) :
    accepts n = true ↔ Target.Wants g params n .variableUse := by
  obtain rfl := eq_of_checked h
  rw [isSome_and_agrees_iff]
  simp [Target.Wants]

theorem predicate_operator (h : predicate g .operator params = .ok accepts) :
    accepts n = true ↔ Target.Wants g params n .operator := by
  obtain ⟨name, rule, hname, hrule, rfl⟩ := eq_of_looked_up h
  rw [Registry.operator_eq_ok_iff] at hrule
  have hwants : Target.Wants g params n .operator ↔ rule.holds n = true ∧
      ∀ e ∈ params.entries, ∀ p ∈ rule.param? e.1, p.value? n = some e.2 := by
    simp [Target.Wants, hname, hrule]
  rw [hwants, Bool.and_eq_true, List.all_eq_true]
  refine and_congr_right fun _ => forall₂_congr fun e _ => ?_
  dsimp only
  split
  · rename_i p hp
    simp [hp]
  · rename_i hp
    simp [hp]

theorem predicate_function (h : predicate g .function params = .ok accepts) :
    accepts n = true ↔ Target.Wants g params n .function := by
  obtain rfl := eq_of_checked h
  exact isSome_and_agrees_iff

theorem predicate_construct (h : predicate g .construct params = .ok accepts) :
    accepts n = true ↔ Target.Wants g params n .construct := by
  obtain ⟨name, c, hname, hc, rfl⟩ := eq_of_looked_up h
  rw [Registry.construct_eq_ok_iff] at hc
  have hmem := List.mem_of_find?_eq_some hc
  have hcname : c.name = name := by simpa using List.find?_some hc
  rw [beq_iff_eq]
  constructor
  · intro hkind
    exact ⟨name, hname, c, hmem, hcname, hkind⟩
  · rintro ⟨name', hname', d, hd, rfl, hkind⟩
    obtain rfl : name = d.name := Option.some.inj (hname.symm.trans hname')
    rw [construct_eq_of_name_eq c hmem d hd hcname, hkind]

theorem predicate_builtinCall (h : predicate g .builtinCall params = .ok accepts) :
    accepts n = true ↔ Target.Wants g params n .builtinCall := by
  obtain ⟨name, f, hname, hf, rfl⟩ := eq_of_looked_up h
  obtain ⟨rfl, hmem⟩ := Registry.builtin_eq_ok_iff.1 hf
  have hwants : Target.Wants g params n .builtinCall ↔
      ∃ callee ∈ Php.calleeName? n, lowered callee = lowered f := by
    simp [Target.Wants, hname, hmem]
  rw [hwants]
  dsimp only
  cases Php.calleeName? n <;> simp

theorem predicate_stringLiteral (h : predicate g .stringLiteral params = .ok accepts) :
    accepts n = true ↔ Target.Wants g params n .stringLiteral := by
  obtain rfl := eq_of_checked h
  rw [Bool.and_eq_true, agrees_iff]
  simp [Target.Wants]

theorem predicate_interpolation (h : predicate g .interpolation params = .ok accepts) :
    accepts n = true ↔ Target.Wants g params n .interpolation := by
  obtain rfl := eq_of_checked h
  rfl

theorem predicate_fragment (h : predicate g .fragment params = .ok accepts) :
    accepts n = true ↔ Target.Wants g params n .fragment := by
  obtain rfl := eq_of_checked h
  rw [Bool.and_eq_true, Bool.and_eq_true, agrees_iff, beq_iff_eq, and_assoc]
  rfl

end Predicate

/-- A resolved query accepts the nodes that its target wants. -/
theorem predicate_iff_wants {g : Registry} {target : Target} {params : Params}
    {accepts : Node → Bool} (h : predicate g target params = .ok accepts) (n : Node) :
    accepts n = true ↔ target.Wants g params n := by
  cases target with
  | variableUse => exact predicate_variableUse h
  | operator => exact predicate_operator h
  | function => exact predicate_function h
  | construct => exact predicate_construct h
  | builtinCall => exact predicate_builtinCall h
  | stringLiteral => exact predicate_stringLiteral h
  | interpolation => exact predicate_interpolation h
  | fragment => exact predicate_fragment h

/-! ## Runs -/

/-- Stages may as well be applied where there is nothing to narrow. -/
theorem run_eq_applyAll (q : Query) (nodes : List Node) :
    q.run nodes = Stage.applyAll q.stages (q.matched nodes) := by
  rw [run]
  split
  · rename_i hshort
    rcases Bool.or_eq_true_iff.1 hshort with hfound | hstages
    · rw [List.isEmpty_iff.1 hfound, Stage.applyAll_nil_items]
    · rw [List.isEmpty_iff.1 hstages]
      rfl
  · rfl

theorem ofSelector_eq_ok_iff {g : Registry} {s : Selector} {q : Query} :
    ofSelector g s = .ok q ↔ ∃ target, Target.ofKind? s.kind = some target ∧
      Stage.ofRefinements s.refinements = .ok q.stages ∧
      predicate g target s.params = .ok q.accepts ∧ q.descend = s.descend := by
  constructor
  · intro h
    obtain ⟨target, htarget, h⟩ := Result.bind_eq_ok_iff.1 h
    obtain ⟨stages, hstages, h⟩ := Result.bind_eq_ok_iff.1 h
    obtain ⟨accepts, haccepts, h⟩ := Result.bind_eq_ok_iff.1 h
    cases h
    exact ⟨target, Registry.target_eq_ok_iff.1 htarget, hstages, haccepts, rfl⟩
  · rintro ⟨target, htarget, hstages, haccepts, hdescend⟩
    refine Result.bind_eq_ok_iff.2 ⟨target, Registry.target_eq_ok_iff.2 htarget, ?_⟩
    refine Result.bind_eq_ok_iff.2 ⟨q.stages, hstages, ?_⟩
    refine Result.bind_eq_ok_iff.2 ⟨q.accepts, haccepts, ?_⟩
    rw [← hdescend]
    rfl

/-- Whether a query descends has nothing to do with how it is resolved. -/
theorem ofSelector_with_descend {g : Registry} {s : Selector} {q : Query}
    (h : ofSelector g s = .ok q) (descend : Bool) :
    ofSelector g { s with descend := descend } = .ok { q with descend := descend } := by
  obtain ⟨target, htarget, hstages, haccepts, -⟩ := ofSelector_eq_ok_iff.1 h
  exact ofSelector_eq_ok_iff.2 ⟨target, htarget, hstages, haccepts, rfl⟩

theorem run_eq_filter (q : Query) (nodes : List Node) :
    q.run nodes =
      Stage.applyAll q.stages ((Node.listing q.descend nodes).filter q.accepts) := by
  rw [run_eq_applyAll, matched, Node.collect_eq_filter]

theorem run_sublist (q : Query) (nodes : List Node) :
    (q.run nodes).Sublist (Node.listing q.descend nodes) := by
  rw [run_eq_filter]
  exact (Stage.applyAll_sublist q.stages _).trans List.filter_sublist

end Query

/-- What a selector that is not refused finds. The given nodes are listed, each with what is below
    it if the selector descends; the nodes that the target wants are kept; and the stages narrow
    them from left to right. The search by stacks lists the same nodes in the same order, and
    leaving out the stages where there is nothing to narrow changes nothing. -/
theorem find_eq_narrowed_listing :
    (∀ (g : Registry) (nodes : List Node) (s : Selector) (found : List Node),
      find g nodes s = .ok found →
        ∃ target stages, Target.ofKind? s.kind = some target ∧
          Stage.ofRefinements s.refinements = .ok stages ∧
          found = stages.foldl (fun items stage => stage.apply items)
            ((Node.listing s.descend nodes).filter fun n => target.Wants g s.params n)) ∧
      (∀ (accepts : Node → Bool) (descend : Bool) (nodes : List Node),
        Node.collect accepts descend nodes = (Node.listing descend nodes).filter accepts) ∧
      ∀ (q : Query) (nodes : List Node),
        q.run nodes = q.stages.foldl (fun items stage => stage.apply items) (q.matched nodes) := by
  refine ⟨fun g nodes s found h => ?_, Node.collect_eq_filter, Query.run_eq_applyAll⟩
  obtain ⟨q, hq, rfl⟩ := Result.map_eq_ok_iff.1 h
  obtain ⟨target, htarget, hstages, haccepts, hdescend⟩ := Query.ofSelector_eq_ok_iff.1 hq
  have hwants : q.accepts = fun n => decide (target.Wants g s.params n) := by
    funext n
    rw [Bool.eq_iff_iff, Query.predicate_iff_wants haccepts n, decide_eq_true_iff]
  refine ⟨target, q.stages, htarget, hstages, ?_⟩
  rw [Query.run_eq_filter, hwants, hdescend]
  rfl

/-- A sum of two variables. -/
def sumDocument : Document :=
  ⟨"$a + $b",
    .node 0 (.faultless "program" 0 7 true []) [
      .node 1 (.faultless "expression_statement" 0 7 true []) [
        .node 2 (.faultless "binary_expression" 0 7 true []) [
          .node 3 (.faultless "variable_name" 0 2 true ["left"]) [],
          .node 4 (.faultless "+" 3 4 false ["operator"]) [],
          .node 5 (.faultless "variable_name" 5 7 true ["right"]) []]]]⟩

/-- The statement is given twice, the second time as a part of the program. -/
theorem find_narrowed_listing_repeated :
    let s : Selector := ⟨"variable", .empty, true, [⟨"gt", some "0"⟩]⟩
    let nodes := sumDocument.topLevel ++ [sumDocument.root]
    ∃ found, find ⟨[]⟩ nodes s = .ok found ∧ found.map (·.tree.row) = [5, 3, 5] ∧
      (Node.listing true nodes).map (·.tree.row) = [1, 2, 3, 5, 0, 1, 2, 3, 5] ∧
      ∃ target stages, Target.ofKind? s.kind = some target ∧
        Stage.ofRefinements s.refinements = .ok stages ∧
        found = stages.foldl (fun items stage => stage.apply items)
          ((Node.listing s.descend nodes).filter fun n => target.Wants ⟨[]⟩ s.params n) := by
  intro s nodes
  have hrows : (find ⟨[]⟩ nodes s).map (fun found => found.map (·.tree.row)) = .ok [5, 3, 5] := by
    decide +kernel
  obtain ⟨found, hfound, hfoundRows⟩ := Result.map_eq_ok_iff.1 hrows
  exact ⟨found, hfound, hfoundRows, by decide +kernel,
    find_eq_narrowed_listing.1 ⟨[]⟩ nodes s found hfound⟩

end TreeQuery
