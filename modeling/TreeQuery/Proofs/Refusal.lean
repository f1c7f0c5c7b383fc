import TreeQuery.Proofs.Indices
import TreeQuery.Proofs.Matching
import TreeQuery.Proofs.Params

/-!
# Why a query is refused

There may be several objections to a query at once. They are put into one list, in the order in
which they count, and a query fails with the error of the first one that holds. Nodes have no part
in this: a query that is objected to fails where there is nothing to search, and one that is not
never fails.

* `FirstObjection`: the error of the first objection of a list that holds.
* `Raises`: a computation fails with that error, and with no other.
* `Raises.bind`: computations one after the other raise their objections one after the other.
* `Stage.ofRefinement_eq_error_iff`: what is wrong with a refinement that is refused.
* `Query.ofSelector_raises`, `Query.ofMethod_raises`: the objections to selectors and to methods.
* `query_fails_by_first_objection`: how searches fail, and that they do not fail otherwise.
-/

namespace TreeQuery

/-! ## The first of several objections -/

/-- Something that can be wrong with a query, given by the errors that it is reported with. It does
    not hold if there is no such error. -/
abbrev Objection := QueryError → Prop

/-- The error belongs to the first of the objections that holds. -/
def FirstObjection (objections : List Objection) (e : QueryError) : Prop :=
  ∃ before o after, objections = before ++ o :: after ∧ (∀ b ∈ before, ∀ e', ¬ b e') ∧ o e

theorem not_firstObjection_nil (e : QueryError) : ¬ FirstObjection [] e := by
  rintro ⟨before, o, after, heq, -⟩
  simp at heq

theorem firstObjection_cons {o : Objection} {os : List Objection} {e : QueryError} :
    FirstObjection (o :: os) e ↔ o e ∨ (∀ e', ¬ o e') ∧ FirstObjection os e := by
  constructor
  · rintro ⟨before, p, after, heq, hbefore, hp⟩
    cases before with
    | nil =>
      obtain ⟨rfl, rfl⟩ := List.cons.inj heq
      exact .inl hp
    | cons b before =>
      obtain ⟨rfl, rfl⟩ := List.cons.inj heq
      rw [List.forall_mem_cons] at hbefore
      exact .inr ⟨hbefore.1, before, p, after, rfl, hbefore.2, hp⟩
  · rintro (ho | ⟨hnot, before, p, after, rfl, hbefore, hp⟩)
    · exact ⟨[], o, os, rfl, by simp, ho⟩
    · exact ⟨o :: before, p, after, rfl, List.forall_mem_cons.2 ⟨hnot, hbefore⟩, hp⟩

theorem FirstObjection.exists_mem {os : List Objection} {e : QueryError}
    (h : FirstObjection os e) : ∃ o ∈ os, o e := by
  obtain ⟨before, o, after, rfl, -, ho⟩ := h
  exact ⟨o, by simp, ho⟩

/-- There is a first objection unless none holds. -/
theorem forall_not_firstObjection_iff {os : List Objection} :
    (∀ e, ¬ FirstObjection os e) ↔ ∀ o ∈ os, ∀ e, ¬ o e := by
  induction os with
  | nil => simp [not_firstObjection_nil]
  | cons o os ih =>
    rw [List.forall_mem_cons, ← ih]
    simp only [firstObjection_cons, not_or, not_and]
    constructor
    · intro h
      exact ⟨fun e => (h e).1, fun e => (h e).2 fun e' => (h e').1⟩
    · rintro ⟨ho, hos⟩ e
      exact ⟨ho e, fun _ => hos e⟩

theorem firstObjection_append {os ps : List Objection} {e : QueryError} :
    FirstObjection (os ++ ps) e ↔
      FirstObjection os e ∨ (∀ e', ¬ FirstObjection os e') ∧ FirstObjection ps e := by
  induction os with
  | nil => simp [not_firstObjection_nil]
  | cons o os ih =>
    have hnone : (∀ e', ¬ FirstObjection (o :: os) e') ↔
        (∀ e', ¬ o e') ∧ ∀ e', ¬ FirstObjection os e' := by
      rw [forall_not_firstObjection_iff, forall_not_firstObjection_iff, List.forall_mem_cons]
    rw [List.cons_append, firstObjection_cons, ih, firstObjection_cons, hnone]
    tauto

/-! ## Computations that raise objections -/

/-- A computation fails with the error of the first objection that holds, and only so. -/
def Raises {α : Type} (x : Except QueryError α) (os : List Objection) : Prop :=
  ∀ e, x = .error e ↔ FirstObjection os e

namespace Raises

variable {α β : Type} {x : Except QueryError α} {os : List Objection}

theorem ok (a : α) : Raises (.ok a) [] := by
  intro e
  simp [not_firstObjection_nil]

theorem single {o : Objection} (h : ∀ e, x = .error e ↔ o e) : Raises x [o] := by
  intro e
  rw [h, firstObjection_cons]
  simp [not_firstObjection_nil]

/-- An objection that does not hold may be put in front. -/
theorem cons_of_not {o : Objection} (ho : ∀ e, ¬ o e) (h : Raises x os) : Raises x (o :: os) := by
  intro e
  rw [h, firstObjection_cons]
  simp [ho]

/-- A computation ends well exactly if no objection to it holds. -/
theorem exists_ok_iff (h : Raises x os) : (∃ a, x = .ok a) ↔ ∀ o ∈ os, ∀ e, ¬ o e := by
  rw [← forall_not_firstObjection_iff]
  simp only [← h _]
  cases x <;> simp

theorem map (h : Raises x os) (f : α → β) : Raises (x.map f) os := by
  intro e
  rw [Result.map_eq_error_iff, h]

/-- A computation that goes on with another raises the objections of that one behind its own. They
    have to be known only where the first computation ends well. -/
theorem bind {ps : List Objection} {f : α → Except QueryError β} (hx : Raises x os)
    (hf : ∀ a, x = .ok a → Raises (f a) ps) : Raises (x >>= f) (os ++ ps) := by
  intro e
  rw [Result.bind_eq_error_iff, firstObjection_append, ← hx e, forall_not_firstObjection_iff,
    ← hx.exists_ok_iff]
  refine or_congr_right ⟨?_, ?_⟩
  · rintro ⟨a, ha, he⟩
    exact ⟨⟨a, ha⟩, (hf a ha e).1 he⟩
  · rintro ⟨⟨a, ha⟩, he⟩
    exact ⟨a, ha, (hf a ha e).2 he⟩

/-- A computation that only wraps up the result of another raises the same objections. -/
theorem bind_ok {f : α → Except QueryError β} (hx : Raises x os)
    (hf : ∀ a, ∃ b, f a = .ok b) : Raises (x >>= f) os := by
  have hbind : Raises (x >>= f) (os ++ []) := by
    refine hx.bind fun a _ => ?_
    obtain ⟨b, hb⟩ := hf a
    rw [hb]
    exact ok b
  rwa [List.append_nil] at hbind

/-- There is one objection for each item: the one to its own computation. -/
theorem mapM {f : α → Except QueryError β} {o : α → Objection}
    (h : ∀ a e, f a = .error e ↔ o a e) (items : List α) :
    Raises (items.mapM f) (items.map o) := by
  induction items with
  | nil =>
    rw [List.mapM_nil]
    exact ok []
  | cons a items ih =>
    rw [List.mapM_cons, List.map_cons]
    exact (single (h a)).bind fun b _ => ih.bind_ok fun bs => ⟨b :: bs, rfl⟩

end Raises

/-! ## Objections to queries -/

/-- Where the parameter `name` of a target is looked up, if it is required. -/
def Target.category? : Target → Option Category
  | operator => some .operator
  | construct => some .construct
  | builtinCall => some .builtin
  | _ => none

/-- The parameters that a query understands: those of its target and, for an operator, those of
    the rule that it names. -/
def Registry.understood (g : Registry) (params : Params) : Target → List String
  | .operator =>
    let rule? := (params.get? "name").bind fun name => g.operators.find? fun r => r.name == name
    Target.operator.accepted ++ (rule?.map Rule.paramNames).getD []
  | t => t.accepted

namespace Objection

/-- No target has this name in selectors. -/
def unknownKind (kind : String) : Objection := fun e =>
  (∀ t : Target, t.kindName ≠ kind) ∧ e = .unknownName .nodeKind kind Registry.kindNames

/-- No target has this name as a method. -/
def unknownMethod (method : String) : Objection := fun e =>
  (∀ t : Target, t.methodName ≠ method) ∧ e = .unknownMethod method Registry.methodNames

/-- No stage has the name of the refinement. -/
def unknownRefinement (r : Refinement) : Objection := fun e =>
  r.name ∉ Stage.names ∧ e = .unknownName .refinement r.name Stage.names

/-- The refinement takes no argument, and is given one. -/
def unwantedArgument (r : Refinement) : Objection := fun e =>
  r.name ∈ ["first", "last", "even", "odd"] ∧
    ∃ argument ∈ r.argument, e = .badArgument r.name (some argument) .unwanted

/-- The refinement takes an index, and is given no argument or one that is no integer. -/
def badIndex (r : Refinement) : Objection := fun e =>
  r.name ∈ ["eq", "gt", "lt"] ∧
    (r.argument = none ∧ e = .badArgument r.name none .required ∨
      ∃ argument ∈ r.argument, (∀ z, ¬ Spelled argument z) ∧
        e = .badArgument r.name (some argument) .notInteger)

/-- The refinement stands for no stage, because of its name or of its argument. -/
def badRefinement (r : Refinement) : Objection := fun e =>
  unknownRefinement r e ∨ unwantedArgument r e ∨ badIndex r e

/-- The parameter `name` is required and absent. -/
def missingName (g : Registry) (params : Params) (t : Target) : Objection := fun e =>
  t.requiresName = true ∧ params.get? "name" = none ∧ e = .missingParam t "name" (g.namesFor t)

/-- The parameter `name` has to be a known name and is none. -/
def unresolvedName (g : Registry) (params : Params) (t : Target) : Objection := fun e =>
  ∃ category ∈ t.category?, ∃ name ∈ params.get? "name", name ∉ g.namesFor t ∧
    e = .unknownName category name (g.namesFor t)

/-- Some parameters are not understood, and this is the one with the smallest name. -/
def unsupportedParam (g : Registry) (params : Params) (t : Target) : Objection := fun e =>
  ∃ key ∈ params.names, key ∉ g.understood params t ∧
    (∀ k ∈ params.names, k ∉ g.understood params t → k ≠ key → key < k) ∧
    e = .unsupportedParam t key (g.understood params t)

/-- The objections to the parameters of a target, in the order in which they count. -/
def toParams (g : Registry) (params : Params) (t : Target) : List Objection :=
  [missingName g params t, unresolvedName g params t, unsupportedParam g params t]

/-- The objections to the parameters of the target that is meant, in the same order. -/
def toParamsOf (g : Registry) (params : Params) (meant : Target → Prop) : List Objection :=
  [missingName, unresolvedName, unsupportedParam].map fun o e => ∃ t, meant t ∧ o g params t e

/-- The objections to a selector, in the order in which they count. -/
def toSelector (g : Registry) (s : Selector) : List Objection :=
  [unknownKind s.kind] ++ s.refinements.map badRefinement ++
    toParamsOf g s.params fun t => t.kindName = s.kind

/-- The objections to a method call, in the order in which they count. -/
def toMethod (g : Registry) (method : String) (params : Params) : List Objection :=
  [unknownMethod method] ++ toParamsOf g params fun t => t.methodName = method

/-- If a name means one target, the objections are those to its parameters. -/
theorem toParamsOf_label {label : Target → String} (h : Function.Injective label) (g : Registry)
    (params : Params) (t : Target) :
    toParamsOf g params (fun u => label u = label t) = toParams g params t := by
  simp [toParamsOf, toParams, h.eq_iff]

end Objection

/-! ## Names -/

namespace Target

theorem mem_all (t : Target) : t ∈ all := by
  cases t <;> decide

/-- Where targets have different names, the target of a name is found by it. -/
theorem find?_all_eq_some_iff {label : Target → String} (h : Function.Injective label)
    {name : String} {t : Target} :
    all.find? (fun u => label u == name) = some t ↔ label t = name := by
  constructor
  · intro hfind
    simpa using List.find?_some hfind
  · rintro rfl
    cases hfind : all.find? fun u => label u == label t with
    | none => simpa using List.find?_eq_none.1 hfind t t.mem_all
    | some u =>
      have hu : label u = label t := by simpa using List.find?_some hfind
      rw [h hu]

theorem kindName_injective : Function.Injective kindName := by
  have h : ∀ t ∈ all, ∀ u ∈ all, t.kindName = u.kindName → t = u := by decide
  exact fun t u => h t t.mem_all u u.mem_all

theorem methodName_injective : Function.Injective methodName := by
  have h : ∀ t ∈ all, ∀ u ∈ all, t.methodName = u.methodName → t = u := by decide
  exact fun t u => h t t.mem_all u u.mem_all

theorem ofKind?_eq_some_iff {kind : String} {t : Target} :
    ofKind? kind = some t ↔ t.kindName = kind :=
  find?_all_eq_some_iff kindName_injective

theorem ofMethod?_eq_some_iff {method : String} {t : Target} :
    ofMethod? method = some t ↔ t.methodName = method :=
  find?_all_eq_some_iff methodName_injective

end Target

namespace Registry

theorem target_raises (kind : String) : Raises (target kind) [.unknownKind kind] := by
  refine .single fun e => ?_
  have hnone : Target.ofKind? kind = none ↔ ∀ t : Target, t.kindName ≠ kind := by
    simp [Option.eq_none_iff_forall_ne_some, Target.ofKind?_eq_some_iff]
  rw [target, Objection.unknownKind, ← hnone]
  cases Target.ofKind? kind <;> simp [eq_comm]

theorem method_eq_ok_iff {name : String} {t : Target} :
    method name = .ok t ↔ Target.ofMethod? name = some t := by
  unfold method
  cases Target.ofMethod? name <;> simp

theorem method_raises (name : String) : Raises (method name) [.unknownMethod name] := by
  refine .single fun e => ?_
  have hnone : Target.ofMethod? name = none ↔ ∀ t : Target, t.methodName ≠ name := by
    simp [Option.eq_none_iff_forall_ne_some, Target.ofMethod?_eq_some_iff]
  rw [method, Objection.unknownMethod, ← hnone]
  cases Target.ofMethod? name <;> simp [eq_comm]

theorem operator_eq_error_iff {g : Registry} {name : String} {e : QueryError} :
    g.operator name = .error e ↔
      name ∉ g.operatorNames ∧ e = .unknownName .operator name g.operatorNames := by
  have hnone : g.operators.find? (fun r => r.name == name) = none ↔ name ∉ g.operatorNames := by
    simp [operatorNames]
  rw [operator, ← hnone]
  cases g.operators.find? fun r => r.name == name <;> simp [eq_comm]

theorem construct_eq_error_iff {name : String} {e : QueryError} :
    construct name = .error e ↔
      name ∉ constructNames ∧ e = .unknownName .construct name constructNames := by
  have hnone :
      Construct.standard.find? (fun c => c.name == name) = none ↔ name ∉ constructNames := by
    simp [constructNames]
  rw [construct, ← hnone]
  cases Construct.standard.find? fun c => c.name == name <;> simp [eq_comm]

theorem builtin_eq_error_iff {name : String} {e : QueryError} :
    builtin name = .error e ↔
      name ∉ builtinFunctions ∧ e = .unknownName .builtin name builtinFunctions := by
  have hnone : builtinFunctions.find? (fun f => f == name) = none ↔ name ∉ builtinFunctions := by
    simp [List.forall_mem_ne']
  rw [builtin, ← hnone]
  cases builtinFunctions.find? fun f => f == name <;> simp [eq_comm]

end Registry

/-! ## Refinements -/

namespace Stage

variable {r : Refinement} {e : QueryError}

theorem plain_eq_error_iff {stage : Stage} : plain r stage = .error e ↔
    ∃ argument ∈ r.argument, e = .badArgument r.name (some argument) .unwanted := by
  rw [plain]
  cases r.argument <;> simp [eq_comm]

theorem index_eq_error_iff : index r = .error e ↔
    r.argument = none ∧ e = .badArgument r.name none .required ∨
      ∃ argument ∈ r.argument, (∀ z, ¬ Spelled argument z) ∧
        e = .badArgument r.name (some argument) .notInteger := by
  rw [index]
  cases r.argument with
  | none => simp [eq_comm]
  | some argument =>
    have hnone : (∀ z, ¬ Spelled argument z) ↔
        integer? (Text.trimChars argument.toList) = none := by
      simp only [spelled_iff_numeral_trimChars, ← integer?_eq_some_iff,
        Option.eq_none_iff_forall_ne_some, ne_eq]
    simp only [Option.mem_some_iff, exists_eq_left', hnone]
    cases integer? (Text.trimChars argument.toList) <;> simp [eq_comm]

theorem ofRefinement_of_plain (h : r.name ∈ ["first", "last", "even", "odd"]) :
    ∃ stage, ofRefinement r = plain r stage := by
  obtain ⟨name, argument⟩ := r
  simp only [List.mem_cons, List.not_mem_nil, or_false] at h
  rcases h with rfl | rfl | rfl | rfl
  · exact ⟨first, rfl⟩
  · exact ⟨last, rfl⟩
  · exact ⟨even, rfl⟩
  · exact ⟨odd, rfl⟩

theorem ofRefinement_of_index (h : r.name ∈ ["eq", "gt", "lt"]) :
    ∃ stage : Int64 → Stage, ofRefinement r = (index r).map stage := by
  obtain ⟨name, argument⟩ := r
  simp only [List.mem_cons, List.not_mem_nil, or_false] at h
  rcases h with rfl | rfl | rfl
  · exact ⟨eq, rfl⟩
  · exact ⟨gt, rfl⟩
  · exact ⟨lt, rfl⟩

theorem ofRefinement_of_not_mem_names (h : r.name ∉ names) :
    ofRefinement r = .error (.unknownName .refinement r.name names) := by
  unfold ofRefinement
  split <;> simp_all [names]

/-- A refinement is refused because no stage has its name; or because there is such a stage, and
    the argument is not what the stage takes. -/
theorem ofRefinement_eq_error_iff : ofRefinement r = .error e ↔ Objection.badRefinement r e := by
  unfold Objection.badRefinement Objection.unknownRefinement Objection.unwantedArgument
    Objection.badIndex
  by_cases hplain : r.name ∈ ["first", "last", "even", "odd"]
  · have hindex : r.name ∉ ["eq", "gt", "lt"] :=
      (by decide : ∀ name ∈ ["first", "last", "even", "odd"], name ∉ ["eq", "gt", "lt"]) _ hplain
    have hknown : r.name ∈ names :=
      (by decide : ∀ name ∈ ["first", "last", "even", "odd"], name ∈ names) _ hplain
    obtain ⟨stage, hstage⟩ := ofRefinement_of_plain hplain
    rw [hstage, plain_eq_error_iff]
    simp only [hknown, hplain, hindex, not_true_eq_false, false_and, true_and, false_or, or_false]
  · by_cases hindex : r.name ∈ ["eq", "gt", "lt"]
    · have hknown : r.name ∈ names :=
        (by decide : ∀ name ∈ ["eq", "gt", "lt"], name ∈ names) _ hindex
      obtain ⟨stage, hstage⟩ := ofRefinement_of_index hindex
      rw [hstage, Result.map_eq_error_iff, index_eq_error_iff]
      simp only [hknown, hplain, hindex, not_true_eq_false, false_and, true_and, false_or]
    · have hnames : ∀ name ∈ names, name ∈ ["first", "last", "even", "odd"] ∨
          name ∈ ["eq", "gt", "lt"] := by decide
      have hunknown : r.name ∉ names := fun h => (hnames _ h).elim hplain hindex
      rw [ofRefinement_of_not_mem_names hunknown]
      simp only [hunknown, hplain, hindex, not_false_eq_true, false_and, true_and, or_false,
        Except.error.injEq, eq_comm]

theorem ofRefinements_raises (rs : List Refinement) :
    Raises (ofRefinements rs) (rs.map Objection.badRefinement) :=
  .mapM (fun _ _ => ofRefinement_eq_error_iff) rs

end Stage

/-! ## Parameters -/

namespace Query

variable {g : Registry} {params : Params}

/-- The first name with a property is the smallest one, since names are kept in order. -/
theorem find?_names_eq_some_iff {p : String → Bool} {key : String} :
    params.names.find? p = some key ↔ key ∈ params.names ∧ p key = true ∧
      ∀ k ∈ params.names, p k = true → k ≠ key → key < k := by
  have hincreasing : params.names.Pairwise (· < ·) := List.pairwise_map.2 params.increasing
  rw [List.find?_eq_some_iff_append]
  constructor
  · rintro ⟨hkey, before, after, heq, hbefore⟩
    rw [heq] at hincreasing ⊢
    have hafter : ∀ k ∈ after, key < k :=
      (List.pairwise_cons.1 (List.pairwise_append.1 hincreasing).2.1).1
    refine ⟨by simp, hkey, fun k hk hpk hne => ?_⟩
    rcases List.mem_append.1 hk with hk | hk
    · simpa [hpk] using hbefore k hk
    · exact hafter k ((List.mem_cons.1 hk).resolve_left hne)
  · rintro ⟨hmem, hkey, hleast⟩
    obtain ⟨before, after, heq⟩ := List.append_of_mem hmem
    refine ⟨hkey, before, after, heq, fun k hk => ?_⟩
    -- a smaller name that is asked for too would be the least one
    rw [heq] at hincreasing hleast
    have hlt : k < key := (List.pairwise_append.1 hincreasing).2.2 k hk key (by simp)
    by_contra hpk
    have hgt : key < k := hleast k (by simp [hk]) (by simpa using hpk) (String.ne_of_lt hlt)
    exact String.lt_irrefl k (String.lt_trans hlt hgt)

theorem checkParams_raises {t : Target} {extra : List String}
    (h : t.accepted ++ extra = g.understood params t) :
    Raises (checkParams t params extra) [.unsupportedParam g params t] := by
  refine .single fun e => ?_
  have hfirst : checkParams t params extra = .error e ↔
      ∃ key, params.names.find? (fun k => !(g.understood params t).contains k) = some key ∧
        e = .unsupportedParam t key (g.understood params t) := by
    rw [checkParams, h]
    cases params.names.find? fun k => !(g.understood params t).contains k <;> simp [eq_comm]
  rw [hfirst, Objection.unsupportedParam]
  simp [find?_names_eq_some_iff, and_assoc]

theorem requireName_raises {t : Target} (h : t.requiresName = true) :
    Raises (requireName g t params) [.missingName g params t] := by
  refine .single fun e => ?_
  rw [requireName, Objection.missingName]
  cases params.get? "name" <;> simp [h, eq_comm]

/-- A target without a required name raises no objection but to parameters it does not know. -/
theorem raises_of_not_requiresName {α : Type} {x : Except QueryError α} {t : Target}
    (h : t.requiresName = false) (hx : Raises x [.unsupportedParam g params t]) :
    Raises x (Objection.toParams g params t) := by
  have hmissing : ∀ e, ¬ Objection.missingName g params t e := by
    simp [Objection.missingName, h]
  have hunresolved : ∀ e, ¬ Objection.unresolvedName g params t e := by
    have hcategory : t.category? = none := by
      cases t <;> simp_all [Target.requiresName, Target.category?]
    simp [Objection.unresolvedName, hcategory]
  exact .cons_of_not hmissing (.cons_of_not hunresolved hx)

/-- A target with a required name: the name is looked up before the parameters are checked. -/
theorem raises_of_category {α β : Type} {t : Target} {category : Category}
    {lookup : String → Except QueryError β} {check : β → Except QueryError α}
    (hrequires : t.requiresName = true) (hcategory : t.category? = some category)
    (hlookup : ∀ name e, lookup name = .error e ↔
      name ∉ g.namesFor t ∧ e = .unknownName category name (g.namesFor t))
    (hcheck : ∀ name b, params.get? "name" = some name → lookup name = .ok b →
      Raises (check b) [.unsupportedParam g params t]) :
    Raises (requireName g t params >>= fun name => lookup name >>= check)
      (Objection.toParams g params t) := by
  refine (requireName_raises hrequires).bind fun name hname => ?_
  rw [requireName_eq_ok_iff] at hname
  have hunresolved : Raises (lookup name) [.unresolvedName g params t] := by
    refine .single fun e => ?_
    rw [hlookup]
    simp [Objection.unresolvedName, hcategory, hname]
  exact hunresolved.bind fun b hb => hcheck name b hname hb

theorem predicate_raises (g : Registry) (t : Target) (params : Params) :
    Raises (predicate g t params) (Objection.toParams g params t) := by
  cases t with
  | operator =>
    refine raises_of_category rfl rfl (fun _ _ => Registry.operator_eq_error_iff) ?_
    intro name rule hname hrule
    rw [Registry.operator_eq_ok_iff] at hrule
    refine (checkParams_raises ?_).bind_ok fun _ => ⟨_, rfl⟩
    simp [Registry.understood, hname, hrule]
  | construct =>
    refine raises_of_category rfl rfl (fun _ _ => Registry.construct_eq_error_iff) ?_
    intro name c _ _
    exact (checkParams_raises (List.append_nil _)).bind_ok fun _ => ⟨_, rfl⟩
  | builtinCall =>
    refine raises_of_category rfl rfl (fun _ _ => Registry.builtin_eq_error_iff) ?_
    intro name f _ _
    exact (checkParams_raises (List.append_nil _)).bind_ok fun _ => ⟨_, rfl⟩
  | variableUse | function | stringLiteral | interpolation | fragment =>
    refine raises_of_not_requiresName rfl ?_
    exact (checkParams_raises (List.append_nil _)).bind_ok fun _ => ⟨_, rfl⟩

/-! ## Selectors and methods -/

theorem ofSelector_raises (g : Registry) (s : Selector) :
    Raises (ofSelector g s) (Objection.toSelector g s) := by
  rw [Objection.toSelector, List.append_assoc]
  refine (Registry.target_raises s.kind).bind fun t ht => ?_
  rw [Registry.target_eq_ok_iff, Target.ofKind?_eq_some_iff] at ht
  rw [← ht, Objection.toParamsOf_label Target.kindName_injective]
  refine (Stage.ofRefinements_raises s.refinements).bind fun stages _ => ?_
  exact (predicate_raises g t s.params).bind_ok fun accepts => ⟨⟨accepts, s.descend, stages⟩, rfl⟩

theorem ofMethod_raises (g : Registry) (method : String) (params : Params) (descend : Bool) :
    Raises (ofMethod g method params descend) (Objection.toMethod g method params) := by
  refine (Registry.method_raises method).bind fun t ht => ?_
  rw [Registry.method_eq_ok_iff, Target.ofMethod?_eq_some_iff] at ht
  rw [← ht, Objection.toParamsOf_label Target.methodName_injective]
  exact (predicate_raises g t params).bind_ok fun accepts => ⟨⟨accepts, descend, []⟩, rfl⟩

end Query

theorem find_raises (g : Registry) (nodes : List Node) (s : Selector) :
    Raises (find g nodes s) (Objection.toSelector g s) :=
  (Query.ofSelector_raises g s).map _

theorem invoke_raises (g : Registry) (method : String) (nodes : List Node) (params : Params)
    (descend : Bool) :
    Raises (invoke g method nodes params descend) (Objection.toMethod g method params) :=
  (Query.ofMethod_raises g method params descend).map _

/-! ## No objection is about the text of a selector -/

/-- The objections to parameters are reported by three kinds of errors. -/
theorem Objection.toParamsOf_cases {g : Registry} {params : Params} {meant : Target → Prop}
    {o : Objection} (ho : o ∈ toParamsOf g params meant) {e : QueryError} (he : o e) :
    (∃ t valid, e = .missingParam t "name" valid) ∨
      (∃ category name valid, e = .unknownName category name valid) ∨
      ∃ t key accepted, e = .unsupportedParam t key accepted := by
  simp only [toParamsOf, List.map_cons, List.map_nil, List.mem_cons, List.not_mem_nil,
    or_false] at ho
  rcases ho with rfl | rfl | rfl
  · obtain ⟨t, -, -, -, rfl⟩ := he
    exact .inl ⟨_, _, rfl⟩
  · obtain ⟨t, -, category, -, name, -, -, rfl⟩ := he
    exact .inr (.inl ⟨_, _, _, rfl⟩)
  · obtain ⟨t, -, key, -, -, -, rfl⟩ := he
    exact .inr (.inr ⟨_, _, _, rfl⟩)

theorem Objection.badRefinement_not_selector (r : Refinement) (e : SelectorError) :
    ¬ badRefinement r (.selector e) := by
  simp [badRefinement, unknownRefinement, unwantedArgument, badIndex]

theorem Objection.toParamsOf_not_selector {g : Registry} {params : Params} {meant : Target → Prop}
    {o : Objection} (ho : o ∈ toParamsOf g params meant) (e : SelectorError) :
    ¬ o (.selector e) := by
  intro he
  rcases toParamsOf_cases ho he with ⟨_, _, h⟩ | ⟨_, _, _, h⟩ | ⟨_, _, _, h⟩ <;> cases h

theorem find_ne_selector (g : Registry) (nodes : List Node) (s : Selector) (e : SelectorError) :
    find g nodes s ≠ .error (.selector e) := by
  intro h
  obtain ⟨o, ho, he⟩ := ((find_raises g nodes s _).1 h).exists_mem
  simp only [Objection.toSelector, List.mem_append, List.mem_singleton, List.mem_map] at ho
  rcases ho with (rfl | ⟨r, -, rfl⟩) | ho
  · simp [Objection.unknownKind] at he
  · exact Objection.badRefinement_not_selector r e he
  · exact Objection.toParamsOf_not_selector ho e he

theorem invoke_ne_selector (g : Registry) (method : String) (nodes : List Node) (params : Params)
    (descend : Bool) (e : SelectorError) :
    invoke g method nodes params descend ≠ .error (.selector e) := by
  intro h
  obtain ⟨o, ho, he⟩ := ((invoke_raises g method nodes params descend _).1 h).exists_mem
  rw [Objection.toMethod, List.mem_append, List.mem_singleton] at ho
  rcases ho with rfl | ho
  · simp [Objection.unknownMethod] at he
  · exact Objection.toParamsOf_not_selector ho e he

/-! ## How searches fail -/

/-- How a search fails, with any operators. A selector is refused with the error of the first
    objection that holds, in this order: to its kind, to its refinements from the left, to a
    missing name, to an unknown name, and to the parameter with the smallest name among those
    that are not understood. If none holds it is not refused. So the nodes do not matter: two
    lists of nodes give the same error, or both are searched. A method is treated alike, with an
    unknown method in place of an unknown kind and of refinements. -/
theorem query_fails_by_first_objection (g : Registry) :
    (∀ (s : Selector) (nodes : List Node),
      (∀ e, find g nodes s = .error e ↔ FirstObjection (Objection.toSelector g s) e) ∧
      ((∃ found, find g nodes s = .ok found) ↔
        ∀ o ∈ Objection.toSelector g s, ∀ e, ¬ o e) ∧
      ∀ (others : List Node) (e : QueryError),
        find g nodes s = .error e ↔ find g others s = .error e) ∧
    ∀ (method : String) (params : Params) (descend : Bool) (nodes : List Node),
      (∀ e, invoke g method nodes params descend = .error e ↔
        FirstObjection (Objection.toMethod g method params) e) ∧
      ((∃ found, invoke g method nodes params descend = .ok found) ↔
        ∀ o ∈ Objection.toMethod g method params, ∀ e, ¬ o e) ∧
      ∀ (others : List Node) (e : QueryError),
        invoke g method nodes params descend = .error e ↔
          invoke g method others params descend = .error e := by
  refine ⟨fun s nodes => ?_, fun method params descend nodes => ?_⟩
  · have h := fun nodes => find_raises g nodes s
    exact ⟨h nodes, (h nodes).exists_ok_iff, fun others e => (h nodes e).trans (h others e).symm⟩
  · have h := fun nodes => invoke_raises g method nodes params descend
    exact ⟨h nodes, (h nodes).exists_ok_iff, fun others e => (h nodes e).trans (h others e).symm⟩

end TreeQuery
