/-!
# What queries look for
-/

namespace TreeQuery

/-- The kinds of things a query can look for (`Action`). -/
inductive Target where
  | variableUse
  | operator
  | function
  | construct
  | builtinCall
  | stringLiteral
  | interpolation
  | fragment
  deriving DecidableEq, Repr

namespace Target

/-- All targets, in the order in which they are listed. -/
def all : List Target :=
  [variableUse, operator, function, construct, builtinCall, stringLiteral, interpolation, fragment]

/-- The name of a target in selectors (`Action::kind_name`). -/
def kindName : Target → String
  | variableUse => "variable"
  | operator => "operator"
  | function => "function"
  | construct => "construct"
  | builtinCall => "builtin"
  | stringLiteral => "string"
  | interpolation => "interpolation"
  | fragment => "encapsed-string"

/-- The name of a target as a method (`Action::method_name`). -/
def methodName : Target → String
  | variableUse => "find_variable"
  | operator => "find_operator"
  | function => "find_function"
  | construct => "find_construct"
  | builtinCall => "find_builtin_function"
  | stringLiteral => "find_string"
  | interpolation => "find_interpolation"
  | fragment => "find_encapsed_string"

/-- The target with a given name in selectors. -/
def ofKind? (kind : String) : Option Target :=
  all.find? fun t => t.kindName == kind

/-- The target with a given name as a method (`Action::from_method`). -/
def ofMethod? (method : String) : Option Target :=
  all.find? fun t => t.methodName == method

/-- The parameters a target understands by itself (`Action::accepted_params`). -/
def accepted : Target → List String
  | variableUse | operator | function | construct | builtinCall => ["name"]
  | stringLiteral | fragment => ["value"]
  | interpolation => []

/-- Does the parameter `name` have to be given, and to be a known name (`Action::requires_name`)? -/
def requiresName : Target → Bool
  | operator | construct | builtinCall => true
  | _ => false

end Target

end TreeQuery
