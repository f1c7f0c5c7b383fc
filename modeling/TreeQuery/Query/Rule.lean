import TreeQuery.Php
import TreeQuery.Text.Quoted

/-!
# Operators

An operator is known by its name. Its rule says which nodes use the operator, and which parameters
a query may compare with parts of such a node.
-/

namespace TreeQuery

/-- A parameter that a rule understands, and the part of a node that it is compared with
    (`OptionalParam`). -/
structure RuleParam where
  name : String
  value? : Node → Option String

/-- A named operator (`Rule`). -/
structure Rule where
  name : String
  description : String
  /-- Does a node use this operator? -/
  holds : Node → Bool
  params : List RuleParam

namespace Rule

/-- The text of a field of a node. -/
def fieldText? (name : String) (n : Node) : Option String :=
  (n.field? name).map Node.text

/-- Is this node an expression with two operands and the given operator between them
    (`binary_with`)? -/
def isBinary (operator : String) (n : Node) : Bool :=
  n.kind == "binary_expression" && (n.field? "operator").any fun op => op.kind == operator

/-- The left operand as it is written. -/
def left : RuleParam :=
  ⟨"left", fieldText? "left"⟩

/-- The right operand as it is written. -/
def right : RuleParam :=
  ⟨"right", fieldText? "right"⟩

/-- The name of the variable that an assignment assigns to. -/
def assigned : RuleParam :=
  ⟨"variable", fun n => (n.field? "left").bind Php.variableName?⟩

/-- Comparison by `==`. -/
def equal : Rule :=
  ⟨"equal", "\x60==\x60 comparison", isBinary "==", [left, right]⟩

/-- Addition. -/
def addition : Rule :=
  ⟨"addition", "\x60+\x60 addition", isBinary "+", [left, right]⟩

/-- Assignment. -/
def assignment : Rule :=
  ⟨"assignment", "\x60=\x60 assignment", fun n => n.kind == "assignment_expression", [assigned]⟩

/-- All rules, in the order in which they are listed (`operator_rules`). -/
def standard : List Rule :=
  [equal, addition, assignment]

/-- The names of the parameters of a rule (`Rule::allowed_optional_filter`). -/
def paramNames (r : Rule) : List String :=
  r.params.map (·.name)

/-- The parameter of a rule with a given name (`Rule::optional_param`). -/
def param? (r : Rule) (name : String) : Option RuleParam :=
  r.params.find? fun p => p.name == name

/-- A rule on one line: its name and those of its parameters. -/
def describe (r : Rule) : String :=
  let param (p : RuleParam) := "OptionalParam \x7b name: " ++ Text.quoted p.name ++ ", .. \x7d"
  "Rule \x7b name: " ++ Text.quoted r.name ++ ", optional: [" ++
    ", ".intercalate (r.params.map param) ++ "], .. \x7d"

end Rule

end TreeQuery
