import TreeQuery.Query.Error
import TreeQuery.Query.Rule

/-!
# Known names

The names that queries can use: targets, operators, language constructs and built-in functions.
Only the operators can be exchanged. A name that is not known is refused with all those that are.
-/

namespace TreeQuery

/-- A language construct and the kind of its nodes in the grammar. -/
structure Construct where
  name : String
  nodeKind : String
  deriving DecidableEq, Repr

/-- The known language constructs. -/
def Construct.standard : List Construct :=
  [⟨"echo", "echo_statement"⟩, ⟨"print", "print_intrinsic"⟩, ⟨"unset", "unset_statement"⟩]

/-- The known built-in functions. -/
def builtinFunctions : List String :=
  ["count", "strlen", "str_replace", "implode", "explode", "array_push", "printf", "var_dump"]

/-- The names that queries can use (`Registry`). -/
structure Registry where
  operators : List Rule

namespace Registry

/-- The names with the standard operators (`Registry::standard`). -/
def standard : Registry :=
  ⟨Rule.standard⟩

/-- The names of the targets in selectors. -/
def kindNames : List String :=
  Target.all.map Target.kindName

/-- The names of the targets as methods. -/
def methodNames : List String :=
  Target.all.map Target.methodName

/-- The names of the operators. -/
def operatorNames (g : Registry) : List String :=
  g.operators.map (·.name)

/-- The names of the language constructs. -/
def constructNames : List String :=
  Construct.standard.map (·.name)

/-- The target with a given name in selectors (`Registry::action`). -/
def target (kind : String) : Except QueryError Target :=
  match Target.ofKind? kind with
  | some t => .ok t
  | none => .error (.unknownName .nodeKind kind kindNames)

/-- The target with a given name as a method. -/
def method (name : String) : Except QueryError Target :=
  match Target.ofMethod? name with
  | some t => .ok t
  | none => .error (.unknownMethod name methodNames)

/-- The operator with a given name (`Registry::operator`). -/
def operator (g : Registry) (name : String) : Except QueryError Rule :=
  match g.operators.find? fun r => r.name == name with
  | some r => .ok r
  | none => .error (.unknownName .operator name g.operatorNames)

/-- The language construct with a given name (`Registry::construct`). -/
def construct (name : String) : Except QueryError Construct :=
  match Construct.standard.find? fun c => c.name == name with
  | some c => .ok c
  | none => .error (.unknownName .construct name constructNames)

/-- The built-in function with a given name (`Registry::builtin_function`). -/
def builtin (name : String) : Except QueryError String :=
  match builtinFunctions.find? fun f => f == name with
  | some f => .ok f
  | none => .error (.unknownName .builtin name builtinFunctions)

/-- The values that the parameter `name` of a target can have, where it is required
    (`Registry::names_for`). -/
def namesFor (g : Registry) : Target → List String
  | .operator => g.operatorNames
  | .construct => constructNames
  | .builtinCall => builtinFunctions
  | _ => []

end Registry

end TreeQuery
