import TreeQuery.Checklist.Basic
import TreeQuery.Query.Basic

/-!
# Running checks

Every check of a checklist is run on a document, in order, whatever becomes of the others. A check
passes if its query can be resolved and has as many matches as it asks for.
-/

namespace TreeQuery

/-- Why a check has no query to run. -/
inductive NoQuery where
  | both
  | neither
  deriving DecidableEq, Repr

/-- The wording of a missing query. -/
def NoQuery.message : NoQuery → String
  | both => "selector and method are mutually exclusive"
  | neither => "check has neither a selector nor a method"

/-- What became of a check (`CheckStatus`). -/
inductive Status where
  | passed
  | failed (expected : Expectation)
  | error (error : QueryError)
  | invalid (reason : NoQuery)
  deriving DecidableEq, Repr

/-- The result of a check (`CheckOutcome`). -/
structure Outcome where
  id : String
  /-- The number of matches. -/
  matched : Nat
  status : Status
  message? : Option String
  deriving DecidableEq

/-- Did the check pass (`CheckOutcome::passed`)? -/
def Outcome.passed (o : Outcome) : Bool :=
  o.status == .passed

namespace Check

/-- The query of a check, or why there is none. -/
inductive Source where
  | selector (text : String)
  | method (name : String)
  | missing (reason : NoQuery)
  deriving DecidableEq, Repr

/-- Where the query of a check comes from. -/
def source (c : Check) : Source :=
  match c.selector?, c.method? with
  | some text, none => .selector text
  | none, some name => .method name
  | some _, some _ => .missing .both
  | none, none => .missing .neither

/-- The outcome of a check from the result of its query. -/
def judge (c : Check) (result : Except QueryError Nat) : Outcome :=
  match result with
  | .ok count =>
    if c.bounds.accepts count then ⟨c.id, count, .passed, c.message?⟩
    else ⟨c.id, count, .failed c.bounds.expectation, c.message?⟩
  | .error e => ⟨c.id, 0, .error e, c.message?⟩

/-- Run a check on a document (`run_check`). -/
def run (g : Registry) (d : Document) (c : Check) : Outcome :=
  match c.source with
  | .selector text =>
    c.judge <| do
      let s ← (Selector.parse text).mapError .selector
      let nodes ← find g d.topLevel s
      return nodes.length
  | .method name =>
    c.judge ((invoke g name d.topLevel c.params (c.descend?.getD true)).map List.length)
  | .missing reason => ⟨c.id, 0, .invalid reason, c.message?⟩

end Check

/-- Run all checks of a checklist on a document (`run_checks`). -/
def Checklist.run (g : Registry) (d : Document) (l : Checklist) : List Outcome :=
  l.checks.map (Check.run g d)

/-- Did all checks pass (`all_passed`)? -/
def allPassed (outcomes : List Outcome) : Bool :=
  outcomes.all Outcome.passed

end TreeQuery
