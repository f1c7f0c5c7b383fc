import TreeQuery.Query.Registry
import TreeQuery.Query.Stage
import TreeQuery.Selector.Parser
import TreeQuery.Tree.Document

/-!
# Queries

A selector is resolved into a query before any node is looked at: its kind, refinements, names and
parameters are checked in that order, and the first fault is the answer. A resolved query cannot
fail. It takes the given nodes, with everything below them if it descends, keeps those that it
accepts, and narrows them stage by stage.
-/

namespace TreeQuery

/-- A resolved selector. -/
structure Query where
  /-- Which nodes count. -/
  accepts : Node → Bool
  /-- Look below the given nodes too. -/
  descend : Bool
  /-- Narrowings by position. -/
  stages : List Stage

namespace Query

/-- The nodes that count, before they are narrowed by position. -/
def matched (q : Query) (nodes : List Node) : List Node :=
  Node.collect q.accepts q.descend nodes

/-- The nodes that a query finds. -/
def run (q : Query) (nodes : List Node) : List Node :=
  let found := q.matched nodes
  -- nothing to narrow, or nothing to narrow by
  if found.isEmpty || q.stages.isEmpty then found else Stage.applyAll q.stages found

/-! ## Resolving parameters -/

/-- A parameter that is not given asks for nothing (`matches_param`). -/
def agrees (expected actual : Option String) : Bool :=
  match expected with
  | some _ => actual == expected
  | none => true

/-- Are all given parameters understood (`check_params`)? The first that is not, in the order of
    names, is refused. -/
def checkParams (target : Target) (params : Params) (extra : List String) :
    Except QueryError Unit :=
  let accepted := target.accepted ++ extra
  match params.names.find? fun name => !accepted.contains name with
  | some name => .error (.unsupportedParam target name accepted)
  | none => .ok ()

/-- The parameter `name`, where it is required (`NodeFinder::require_name`). -/
def requireName (g : Registry) (target : Target) (params : Params) : Except QueryError String :=
  match params.get? "name" with
  | some name => .ok name
  | none => .error (.missingParam target "name" (g.namesFor target))

/-- ASCII letters in lower case. -/
def lowered (s : String) : List Char :=
  s.toList.map Char.toLower

/-- Which nodes a target with given parameters stands for (`NodeFinder::dispatch`, with the function
    that it calls for the target). -/
def predicate (g : Registry) (target : Target) (params : Params) :
    Except QueryError (Node → Bool) :=
  match target with
  | .variableUse => do
    checkParams target params []
    let name := (params.get? "name").map Php.stripDollars
    return fun n =>
      let found := Php.variableName? n
      found.isSome && agrees name found
  | .operator => do
    let name ← requireName g target params
    let rule ← g.operator name
    checkParams target params rule.paramNames
    return fun n =>
      rule.holds n && params.entries.all fun (key, value) =>
        match rule.param? key with
        | some p => p.value? n == some value
        | none => true
  | .function => do
    checkParams target params []
    return fun n =>
      let found := Php.functionName? n
      found.isSome && agrees (params.get? "name") found
  | .construct => do
    let name ← requireName g target params
    let construct ← Registry.construct name
    checkParams target params []
    return fun n => n.kind == construct.nodeKind
  | .builtinCall => do
    let name ← requireName g target params
    let function ← Registry.builtin name
    checkParams target params []
    return fun n => (Php.calleeName? n).any fun callee => lowered callee == lowered function
  | .stringLiteral => do
    checkParams target params []
    return fun n =>
      (n.kind == "string" || (n.kind == "encapsed_string" && !Php.isInterpolated n)) &&
        agrees (params.get? "value") (some (Php.stringValue n.text))
  | .interpolation => do
    checkParams target params []
    return Php.isInterpolated
  | .fragment => do
    checkParams target params []
    return fun n =>
      n.kind == "string_content" && Php.inInterpolated n &&
        agrees (params.get? "value") (some n.text)

/-! ## Resolving selectors and methods -/

/-- The query of a selector. -/
def ofSelector (g : Registry) (s : Selector) : Except QueryError Query := do
  let target ← Registry.target s.kind
  let stages ← Stage.ofRefinements s.refinements
  let accepts ← predicate g target s.params
  return ⟨accepts, s.descend, stages⟩

/-- The query of a method call. -/
def ofMethod (g : Registry) (method : String) (params : Params) (descend : Bool) :
    Except QueryError Query := do
  let target ← Registry.method method
  let accepts ← predicate g target params
  return ⟨accepts, descend, []⟩

end Query

/-- The nodes that a selector finds among and below the given ones (`NodeFinder::find`). -/
def find (g : Registry) (nodes : List Node) (s : Selector) : Except QueryError (List Node) :=
  (Query.ofSelector g s).map fun q => q.run nodes

/-- The nodes that a method finds among and below the given ones (`NodeFinder::invoke`). -/
def invoke (g : Registry) (method : String) (nodes : List Node) (params : Params)
    (descend : Bool) : Except QueryError (List Node) :=
  (Query.ofMethod g method params descend).map fun q => q.run nodes

/-- The nodes that a selector text finds in a document (`Code::find`). -/
def Document.find (d : Document) (text : String) : Except QueryError (List Node) := do
  let s ← (Selector.parse text).mapError .selector
  TreeQuery.find .standard d.topLevel s

end TreeQuery
