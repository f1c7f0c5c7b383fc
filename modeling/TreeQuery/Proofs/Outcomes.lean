import TreeQuery.Checklist.Outcome
import TreeQuery.Proofs.Refusal
import TreeQuery.Proofs.RoundTrip

/-!
# Outcomes of checks

What a check says about its query: its outcome names the check, and its status is that of its
query. A check with a selector and a check with a method come to the same if the selector is the
canonical text of what the method asks for.

* `Check.judge_status_eq_error_iff`: a check fails with an error exactly if its query does.
* `find_eq_invoke`: a target is searched for by its kind as by its method.
* `Check.run_selector_eq_run_method`: both ways of writing a check have the same outcome.
-/

namespace TreeQuery

/-! ## Judging a query -/

namespace Check

theorem judge_id (c : Check) (result : Except QueryError Nat) : (c.judge result).id = c.id := by
  cases result with
  | error e => rfl
  | ok count =>
    rw [judge]
    split <;> rfl

theorem judge_status_eq_error_iff {c : Check} {result : Except QueryError Nat} {e : QueryError} :
    (c.judge result).status = .error e ↔ result = .error e := by
  cases result with
  | error e' => simp [judge]
  | ok count =>
    rw [judge]
    split <;> simp

theorem judge_status_ne_invalid (c : Check) (result : Except QueryError Nat) (reason : NoQuery) :
    (c.judge result).status ≠ .invalid reason := by
  cases result with
  | error e => simp [judge]
  | ok count =>
    rw [judge]
    split <;> simp

theorem run_id (g : Registry) (d : Document) (c : Check) : (c.run g d).id = c.id := by
  rw [run]
  split
  · exact judge_id c _
  · exact judge_id c _
  · rfl

theorem source_eq_selector {c : Check} {text : String} (hs : c.selector? = some text)
    (hm : c.method? = none) : c.source = .selector text := by
  rw [source, hs, hm]

theorem source_eq_method {c : Check} {name : String} (hs : c.selector? = none)
    (hm : c.method? = some name) : c.source = .method name := by
  rw [source, hs, hm]

/-- A check whose selector can be read is judged by what the selector finds. -/
theorem run_of_selector {c : Check} {text : String} {s : Selector} (hs : c.selector? = some text)
    (hm : c.method? = none) (hparse : Selector.parse text = .ok s) (g : Registry) (d : Document) :
    c.run g d = c.judge ((find g d.topLevel s).map List.length) := by
  rw [run, source_eq_selector hs hm]
  dsimp only
  rw [hparse]
  rfl

/-- A check with a method is judged by what the method finds. -/
theorem run_of_method {c : Check} {name : String} (hs : c.selector? = none)
    (hm : c.method? = some name) (g : Registry) (d : Document) :
    c.run g d =
      c.judge ((invoke g name d.topLevel c.params (c.descend?.getD true)).map List.length) := by
  rw [run, source_eq_method hs hm]

end Check

/-! ## Kinds and methods -/

/-- A target can be written as the kind of a selector. -/
theorem Target.kindName_isIdentifier (t : Target) : IsIdentifier t.kindName := by
  rw [← isName_iff_identifier]
  cases t <;> decide

theorem Query.ofSelector_eq_ofMethod (g : Registry) (t : Target) (params : Params)
    (descend : Bool) :
    ofSelector g ⟨t.kindName, params, descend, []⟩ =
      ofMethod g t.methodName params descend := by
  have htarget : Registry.target t.kindName = .ok t :=
    Registry.target_eq_ok_iff.2 (Target.ofKind?_eq_some_iff.2 rfl)
  have hmethod : Registry.method t.methodName = .ok t :=
    Registry.method_eq_ok_iff.2 (Target.ofMethod?_eq_some_iff.2 rfl)
  rw [ofSelector, ofMethod, htarget, hmethod]
  rfl

/-- Without refinements, a target is searched for by its kind as by its method. -/
theorem find_eq_invoke (g : Registry) (nodes : List Node) (t : Target) (params : Params)
    (descend : Bool) :
    find g nodes ⟨t.kindName, params, descend, []⟩ =
      invoke g t.methodName nodes params descend := by
  rw [find, invoke, Query.ofSelector_eq_ofMethod]

namespace Check

/-- A check by a selector and a check by a method have the same outcome, be it an error or a
    number of matches, if the selector is the canonical text for the target of the method with
    the same parameters. The values of the parameters may be any texts; their names have to be
    identifiers. What the check by selector says besides about parameters is not looked at. -/
theorem run_selector_eq_run_method (g : Registry) (d : Document) (t : Target) (params : Params)
    (hparams : ∀ key ∈ params.names, IsIdentifier key) (descend : Bool) (id : String)
    (bounds : Bounds) (message? : Option String) (unused : Params) (unused? : Option Bool) :
    let s : Selector := ⟨t.kindName, params, descend, []⟩
    Check.run g d ⟨id, some s.render, none, unused, unused?, bounds, message?⟩ =
      Check.run g d ⟨id, none, some t.methodName, params, some descend, bounds, message?⟩ := by
  intro s
  have hnamed : s.WellNamed := ⟨t.kindName_isIdentifier, hparams, by simp [s]⟩
  have hparse := Selector.parse_render_of_wellNamed hnamed
  rw [run_of_selector rfl rfl hparse, run_of_method rfl rfl, find_eq_invoke]
  rfl

/-- A sum whose left operand is a variable: in the selector, the name of the variable has to be
    quoted. -/
theorem run_selector_eq_run_method_sum :
    let params : Params := ⟨[("left", "$a"), ("name", "addition")], by decide⟩
    let s : Selector := ⟨"operator", params, true, []⟩
    let byMethod : Check :=
      ⟨"sum", none, some "find_operator", params, some true, ⟨some 1, some 1⟩, some "Add."⟩
    s.render = "operator[left=\"$a\",name=addition]" ∧
      byMethod.run .standard sumDocument = ⟨"sum", 1, .passed, some "Add."⟩ ∧
      Check.run .standard sumDocument
          ⟨"sum", some s.render, none, .empty, none, ⟨some 1, some 1⟩, some "Add."⟩ =
        byMethod.run .standard sumDocument := by
  intro params s byMethod
  have hparams : ∀ key ∈ params.names, IsIdentifier key := by
    intro key hkey
    have hname : ∀ key ∈ params.names, isName key.toList = true := by decide
    exact isName_iff_identifier.1 (hname key hkey)
  refine ⟨by decide +kernel, by decide +kernel, ?_⟩
  exact run_selector_eq_run_method .standard sumDocument .operator params hparams true "sum"
    ⟨some 1, some 1⟩ (some "Add.") .empty none

end Check

end TreeQuery
