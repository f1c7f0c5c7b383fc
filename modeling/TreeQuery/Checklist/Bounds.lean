/-!
# How many matches are expected

A check may ask for a least and for a greatest number of matches. Without either it asks for one
match at least; with a greatest number alone, no match is needed.
-/

namespace TreeQuery

/-- The numbers of matches that a check asks for, as they are given. -/
structure Bounds where
  min? : Option Nat
  max? : Option Nat
  deriving DecidableEq, Repr

/-- What a check asks for, in words. -/
inductive Expectation where
  | none
  | exactly (count : Nat)
  | atMost (count : Nat)
  | between (least greatest : Nat)
  | atLeast (count : Nat)
  deriving DecidableEq, Repr

/-- The wording of an expectation. -/
def Expectation.text : Expectation → String
  | none => "none"
  | exactly count => "exactly " ++ toString count
  | atMost count => "at most " ++ toString count
  | between least greatest => "between " ++ toString least ++ " and " ++ toString greatest
  | atLeast count => "at least " ++ toString count

namespace Bounds

/-- The least number of matches (`CheckDefinition::min_count`). -/
def least (b : Bounds) : Nat :=
  match b.min?, b.max? with
  | some min, _ => min
  | none, some _ => 0
  | none, none => 1

/-- Is a number of matches as asked for (`CheckDefinition::accepts`)? -/
def accepts (b : Bounds) (count : Nat) : Bool :=
  decide (b.least ≤ count) &&
    match b.max? with
    | some max => decide (count ≤ max)
    | none => true

/-- What the bounds ask for (`CheckDefinition::expectation`). -/
def expectation (b : Bounds) : Expectation :=
  match b.max? with
  | none => .atLeast b.least
  | some max =>
    if b.least = 0 ∧ max = 0 then .none
    else if b.least = max then .exactly max
    else if b.least = 0 then .atMost max
    else .between b.least max

end Bounds

end TreeQuery
