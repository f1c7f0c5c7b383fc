import TreeQuery.Proofs.Outcomes

/-!
# Parameters narrow

Every parameter of a query asks something of the nodes, and a node has to comply with all of them.
So two sets of parameters that do not contradict each other can be put together, and then find what
both of them find.

Results:
* `Query.exists_predicate_iff`: which parameters of a target are understood.
* `Query.exists_predicate_union`: parameters that are understood apart are understood together.
* `Target.wants_union`: what a target wants with the parameters of two sets.
* `invoke_methodName_eq_ok_iff`: what a search for a target finds, if it is not refused.
* `invoke_union`: the nodes that two sets of parameters find together.
-/

namespace TreeQuery

/-! ## Parameters that are understood -/

namespace Query

variable {g : Registry} {t : Target} {params p q : Params}

theorem forall_not_badName_iff :
    ((∀ e, ¬ Objection.missingName g params t e) ∧ ∀ e, ¬ Objection.unresolvedName g params t e) ↔
      (t.requiresName = true → ∃ name ∈ params.get? "name", name ∈ g.namesFor t) := by
  have hrequires : t.requiresName = t.category?.isSome := by
    cases t <;> rfl
  cases hcategory : t.category? with
  | none => simp [Objection.missingName, Objection.unresolvedName, hrequires, hcategory]
  | some category =>
    cases hname : params.get? "name" with
    | none => simp [Objection.missingName, hrequires, hcategory, hname]
    | some name =>
      simp [Objection.missingName, Objection.unresolvedName, hrequires, hcategory, hname]

theorem forall_not_unsupportedParam_iff :
    (∀ e, ¬ Objection.unsupportedParam g params t e) ↔
      ∀ key ∈ params.names, key ∈ g.understood params t := by
  constructor
  · intro h key hkey
    by_contra hnot
    cases hfind : params.names.find? fun k => !(g.understood params t).contains k with
    | none => simpa [hnot] using List.find?_eq_none.1 hfind key hkey
    | some first =>
      obtain ⟨hmem, hfirst, hleast⟩ := find?_names_eq_some_iff.1 hfind
      exact h _ ⟨first, hmem, by simpa using hfirst, by simpa using hleast, rfl⟩
  · rintro h e ⟨key, hkey, hnot, -⟩
    exact hnot (h key hkey)

/-- The parameters of a target are understood if a name that is required is given and known, and if
    there is no other parameter than those of the target and of the operator that it names. -/
theorem exists_predicate_iff : (∃ accepts, predicate g t params = .ok accepts) ↔
    (t.requiresName = true → ∃ name ∈ params.get? "name", name ∈ g.namesFor t) ∧
      ∀ key ∈ params.names, key ∈ g.understood params t := by
  rw [(predicate_raises g t params).exists_ok_iff, Objection.toParams]
  simp only [List.forall_mem_cons, List.not_mem_nil, false_imp_iff, implies_true, and_true]
  rw [← and_assoc, forall_not_badName_iff, forall_not_unsupportedParam_iff]

/-- What is understood depends on the parameters only by a name that is required. -/
theorem understood_congr (h : t.requiresName = true → p.get? "name" = q.get? "name") :
    g.understood p t = g.understood q t := by
  cases t with
  | operator => rw [Registry.understood, Registry.understood, h rfl]
  | variableUse | function | construct | builtinCall | stringLiteral | interpolation | fragment =>
    rfl

/-- Parameters that agree and are understood give the same name where one is required, and so does
    their union. -/
theorem get?_name_union (hagree : p.Agree q) (hp : ∃ accepts, predicate g t p = .ok accepts)
    (hq : ∃ accepts, predicate g t q = .ok accepts) (ht : t.requiresName = true) :
    (p.union q).get? "name" = p.get? "name" ∧ (p.union q).get? "name" = q.get? "name" := by
  obtain ⟨name, hname, -⟩ := (exists_predicate_iff.1 hp).1 ht
  obtain ⟨name', hname', -⟩ := (exists_predicate_iff.1 hq).1 ht
  obtain rfl : name = name' := Params.agree_iff.1 hagree "name" name name' hname hname'
  have hunion : (p.union q).get? "name" = some name :=
    hagree.get?_union_eq_some_iff.2 (.inl hname)
  exact ⟨hunion.trans hname.symm, hunion.trans hname'.symm⟩

theorem exists_predicate_union (hagree : p.Agree q)
    (hp : ∃ accepts, predicate g t p = .ok accepts)
    (hq : ∃ accepts, predicate g t q = .ok accepts) :
    ∃ accepts, predicate g t (p.union q) = .ok accepts := by
  have hname := get?_name_union hagree hp hq
  obtain ⟨hpname, hpkeys⟩ := exists_predicate_iff.1 hp
  obtain ⟨-, hqkeys⟩ := exists_predicate_iff.1 hq
  refine exists_predicate_iff.2 ⟨fun ht => ?_, fun key hkey => ?_⟩
  · rw [(hname ht).1]
    exact hpname ht
  · rcases hagree.mem_names_union.1 hkey with hkey | hkey
    · rw [understood_congr fun ht => (hname ht).1]
      exact hpkeys key hkey
    · rw [understood_congr fun ht => (hname ht).2]
      exact hqkeys key hkey

end Query

/-! ## What two sets of parameters want -/

/-- Of an optional item, two things can be asked one by one. -/
theorem exists_mem_and_iff {α : Type} {o : Option α} {P Q : α → Prop} :
    (∃ a ∈ o, P a ∧ Q a) ↔ (∃ a ∈ o, P a) ∧ ∃ a ∈ o, Q a := by
  cases o <;> simp

/-- With the parameters of two sets, a target wants the nodes that it wants with either set. A name
    that is required has to be the same in both. -/
theorem Target.wants_union {g : Registry} {t : Target} {p q : Params} {n : Node}
    (hagree : p.Agree q) (hname : t.requiresName = true →
      (p.union q).get? "name" = p.get? "name" ∧ (p.union q).get? "name" = q.get? "name") :
    t.Wants g (p.union q) n ↔ t.Wants g p n ∧ t.Wants g q n := by
  cases t with
  | variableUse | function =>
    simp only [Wants, hagree.forall_mem_get?_union, exists_mem_and_iff]
  | operator =>
    obtain ⟨hp, hq⟩ := hname rfl
    simp only [Wants, ← hp, ← hq]
    rw [← exists_mem_and_iff]
    refine exists_congr fun name => and_congr_right fun _ => ?_
    rw [← exists_mem_and_iff]
    refine exists_congr fun rule => and_congr_right fun _ => ?_
    rw [hagree.forall_mem_entries_union, and_and_left]
  | construct | builtinCall =>
    obtain ⟨hp, hq⟩ := hname rfl
    simp only [Wants, ← hp, ← hq, and_self]
  | stringLiteral =>
    simp only [Wants, hagree.forall_mem_get?_union]
    exact and_and_left
  | fragment =>
    simp only [Wants, hagree.forall_mem_get?_union]
    exact (and_congr_right' and_and_left).trans and_and_left
  | interpolation => simp only [Wants, and_self]

/-! ## Searches -/

namespace Query

variable {g : Registry} {t : Target} {params : Params}

theorem ofMethod_methodName (descend : Bool) : ofMethod g t.methodName params descend =
    (predicate g t params).map fun accepts => ⟨accepts, descend, []⟩ := by
  have hmethod : Registry.method t.methodName = .ok t :=
    Registry.method_eq_ok_iff.2 (Target.ofMethod?_eq_some_iff.2 rfl)
  rw [ofMethod, hmethod]
  show (predicate g t params >>= fun accepts => pure (Query.mk accepts descend [])) = _
  cases predicate g t params <;> rfl

/-- Without stages, a query finds the nodes that are listed and wanted. -/
theorem run_of_predicate {accepts : Node → Bool} (h : predicate g t params = .ok accepts)
    (descend : Bool) (nodes : List Node) :
    (Query.mk accepts descend []).run nodes =
      (Node.listing descend nodes).filter fun n => t.Wants g params n := by
  rw [run_eq_filter]
  refine List.filter_congr fun n _ => ?_
  rw [Bool.eq_iff_iff, predicate_iff_wants h n, decide_eq_true_iff]

end Query

/-- A search for a target finds the nodes that are listed and wanted, if only its parameters are
    understood. -/
theorem invoke_methodName_eq_ok_iff {g : Registry} {t : Target} {nodes : List Node}
    {params : Params} {descend : Bool} {found : List Node} :
    invoke g t.methodName nodes params descend = .ok found ↔
      (∃ accepts, Query.predicate g t params = .ok accepts) ∧
        found = (Node.listing descend nodes).filter fun n => t.Wants g params n := by
  rw [invoke, Query.ofMethod_methodName]
  simp only [Result.map_eq_ok_iff]
  constructor
  · rintro ⟨query, ⟨accepts, haccepts, rfl⟩, rfl⟩
    exact ⟨⟨accepts, haccepts⟩, Query.run_of_predicate haccepts descend nodes⟩
  · rintro ⟨⟨accepts, haccepts⟩, rfl⟩
    exact ⟨_, ⟨accepts, haccepts, rfl⟩, Query.run_of_predicate haccepts descend nodes⟩

open Classical in
/-- Two sets of parameters that agree find together what both of them find. -/
theorem invoke_union_eq_filter {g : Registry} {t : Target} {nodes : List Node} {descend : Bool}
    {p q : Params} {found others : List Node} (hagree : p.Agree q)
    (hp : invoke g t.methodName nodes p descend = .ok found)
    (hq : invoke g t.methodName nodes q descend = .ok others) :
    invoke g t.methodName nodes (p.union q) descend = .ok (found.filter (· ∈ others)) := by
  obtain ⟨hpok, rfl⟩ := invoke_methodName_eq_ok_iff.1 hp
  obtain ⟨hqok, rfl⟩ := invoke_methodName_eq_ok_iff.1 hq
  refine invoke_methodName_eq_ok_iff.2 ⟨Query.exists_predicate_union hagree hpok hqok, ?_⟩
  rw [List.filter_filter]
  refine List.filter_congr fun n hn => ?_
  have hunion : t.Wants g (p.union q) n ↔ t.Wants g p n ∧ t.Wants g q n :=
    Target.wants_union hagree (Query.get?_name_union hagree hpok hqok)
  rw [Bool.eq_iff_iff]
  simp [hunion, hn, and_comm]

open Classical in
/-- Parameters combine as a conjunction, whatever the target, the operators and the nodes are. If a
    search is not refused with one set of parameters nor with another that does not contradict it,
    it is not refused with both, and then it finds those nodes of the first search that the second
    one finds too, in their order and as often as before. So one more parameter that is understood
    adds no node, and neither repeats nor reorders any. -/
theorem invoke_union {g : Registry} {t : Target} {nodes : List Node} {descend : Bool}
    {p q : Params} {found others : List Node} (hagree : p.Agree q)
    (hp : invoke g t.methodName nodes p descend = .ok found)
    (hq : invoke g t.methodName nodes q descend = .ok others) :
    invoke g t.methodName nodes (p.union q) descend = .ok (found.filter (· ∈ others)) ∧
      ∀ k v narrowed, p.get? k = none →
        invoke g t.methodName nodes (p.insert k v) descend = .ok narrowed →
          narrowed.Sublist found := by
  refine ⟨invoke_union_eq_filter hagree hp hq, fun k v narrowed hk hinsert => ?_⟩
  -- the parameters with one more are the union of both sets
  have hsaid : ∀ k' v', p.get? k' = some v' → (p.insert k v).get? k' = some v' := by
    intro k' v' hv'
    have hne : k' ≠ k := by
      rintro rfl
      cases hk.symm.trans hv'
    rw [Params.get?_insert, if_neg hne, hv']
  obtain ⟨hagree', hunion⟩ := Params.union_eq_right hsaid
  have hboth := invoke_union_eq_filter hagree' hp hinsert
  rw [hunion, hinsert, Except.ok.injEq] at hboth
  rw [hboth]
  exact List.filter_sublist

/-- The node of a sum of two variables with names of one letter. -/
def sumNode (row : Nat) (left right : String) : Node :=
  ⟨left ++ "+" ++ right,
    .node row (.faultless "binary_expression" 0 5 true []) [
      .node 0 (.faultless "variable_name" 0 2 true ["left"]) [],
      .node 0 (.faultless "+" 2 3 false ["operator"]) [],
      .node 0 (.faultless "variable_name" 3 5 true ["right"]) []], []⟩

/-- Of three sums, the first of them given twice, two have the left operand that is asked for, and
    two the right one. -/
theorem invoke_union_sums :
    let nodes := [sumNode 1 "$a" "$b", sumNode 2 "$a" "$c", sumNode 3 "$d" "$b",
      sumNode 1 "$a" "$b"]
    let p : Params := ⟨[("left", "$a"), ("name", "addition")], by decide⟩
    let q : Params := ⟨[("name", "addition"), ("right", "$b")], by decide⟩
    p.Agree q ∧ ∃ found others both,
      invoke .standard "find_operator" nodes p true = .ok found ∧
      invoke .standard "find_operator" nodes q true = .ok others ∧
      found.map (·.tree.row) = [1, 2, 1] ∧ others.map (·.tree.row) = [1, 3, 1] ∧
      invoke .standard "find_operator" nodes (p.union q) true = .ok both ∧
      both.map (·.tree.row) = [1, 1] ∧ both.Sublist found ∧
      ∀ n, n ∈ both ↔ n ∈ found ∧ n ∈ others := by
  intro nodes p q
  have hagree : p.Agree q := by decide
  have hrows : [p, q, p.union q].map (fun params =>
      (invoke .standard "find_operator" nodes params true).map fun found =>
        found.map (·.tree.row)) = [.ok [1, 2, 1], .ok [1, 3, 1], .ok [1, 1]] := by
    decide +kernel
  simp only [List.map_cons, List.map_nil, List.cons.injEq, and_true, Result.map_eq_ok_iff] at hrows
  obtain ⟨⟨found, hp, hfound⟩, ⟨others, hq, hothers⟩, both, hboth, hbothRows⟩ := hrows
  have hunion := (invoke_union (t := .operator) hagree hp hq).1
  obtain rfl := Except.ok.inj (hunion.symm.trans hboth)
  exact ⟨hagree, found, others, _, hp, hq, hfound, hothers, hboth, hbothRows, List.filter_sublist,
    by simp⟩

end TreeQuery
