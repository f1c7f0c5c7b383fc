import TreeQuery.Query.Error
import TreeQuery.Selector.Basic
import TreeQuery.Text.Blank

/-!
# Narrowing by position

A stage keeps some of the items of a list by their position, counted from zero, and in their
order. Stages are applied one after the other.

An index is a signed 64-bit number. One that does not fit is as good as the nearest that does,
since no list is that long: it lies behind every item, or before all of them.
-/

namespace TreeQuery

/-- A narrowing by position (`Pseudo`). -/
inductive Stage where
  | first
  | last
  | eq (index : Int64)
  | gt (index : Int64)
  | lt (index : Int64)
  | even
  | odd
  deriving DecidableEq

namespace Stage

/-- The names of the stages, in the order in which they are listed. -/
def names : List String :=
  ["first", "last", "eq", "gt", "lt", "even", "odd"]

/-! ## What a stage keeps -/

/-- Every second item, from the first on. -/
def everySecond {α : Type} : List α → List α
  | [] => []
  | [x] => [x]
  | x :: _ :: rest => x :: everySecond rest

/-- The items that a stage keeps (`Pseudo::apply`). -/
def apply {α : Type} (stage : Stage) (items : List α) : List α :=
  match stage with
  | first => items.take 1
  | last => items.getLast?.toList
  | eq index => if index < 0 then [] else items[index.toInt.toNat]?.toList
  | gt index => if index < 0 then items else items.drop (index.toInt.toNat + 1)
  | lt index => if index ≤ 0 then [] else items.take index.toInt.toNat
  | even => everySecond items
  | odd => everySecond (items.drop 1)

/-- The items that are left after all stages (`PseudoFilter::filter`). -/
def applyAll {α : Type} (stages : List Stage) (items : List α) : List α :=
  stages.foldl (fun items stage => stage.apply items) items

/-! ## Reading stages -/

/-- The number that decimal digits stand for. -/
def digitsValue (digits : List Char) : Nat :=
  digits.foldl (fun n c => 10 * n + (c.toNat - '0'.toNat)) 0

/-- The signed 64-bit number nearest to `z`. -/
def saturate (z : Int) : Int64 :=
  if z < Int64.minValue.toInt then Int64.minValue
  else if Int64.maxValue.toInt < z then Int64.maxValue
  else Int64.ofInt z

/-- The integer that a text stands for: decimal digits, perhaps after a minus sign. -/
def integer? : List Char → Option Int
  | '-' :: digits =>
    if digits.isEmpty || !digits.all Char.isDigit then none else some (-(digitsValue digits : Int))
  | digits =>
    if digits.isEmpty || !digits.all Char.isDigit then none else some (digitsValue digits)

/-- The index that a refinement has as its argument (`index_arg`). Blanks around it do not
    matter. -/
def index (r : Refinement) : Except QueryError Int64 :=
  match r.argument with
  | none => .error (.badArgument r.name none .required)
  | some argument =>
    match integer? (Text.trimChars argument.toList) with
    | none => .error (.badArgument r.name (some argument) .notInteger)
    | some z => .ok (saturate z)

/-- A stage that takes no argument. -/
def plain (r : Refinement) (stage : Stage) : Except QueryError Stage :=
  match r.argument with
  | none => .ok stage
  | some argument => .error (.badArgument r.name (some argument) .unwanted)

/-- The stage that a refinement stands for (`Pseudo::from_spec`). -/
def ofRefinement (r : Refinement) : Except QueryError Stage :=
  match r.name with
  | "first" => plain r first
  | "last" => plain r last
  | "even" => plain r even
  | "odd" => plain r odd
  | "eq" => (index r).map eq
  | "gt" => (index r).map gt
  | "lt" => (index r).map lt
  | name => .error (.unknownName .refinement name names)

/-- The stages that refinements stand for (`PseudoFilter::new`). The first fault counts. -/
def ofRefinements (rs : List Refinement) : Except QueryError (List Stage) :=
  rs.mapM ofRefinement

end Stage

end TreeQuery
