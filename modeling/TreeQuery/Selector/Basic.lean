import TreeQuery.Params

/-!
# Selectors

A selector says which nodes of a syntax tree a query is after: nodes of some kind, whose
parameters have given values, narrowed by position. Nothing in a selector is checked against
what queries know; that is done when it is resolved.
-/

namespace TreeQuery

/-- A narrowing by position as it is written (`PseudoSpec`): a name, perhaps with an argument. -/
structure Refinement where
  name : String
  argument : Option String
  deriving DecidableEq

/-- A query in structured form (`Filter`). -/
structure Selector where
  /-- What kind of node to look for. -/
  kind : String
  /-- Values that the parameters of a node have to have. -/
  params : Params
  /-- Look below the given nodes too, and not only at them. -/
  descend : Bool
  /-- Narrowings by position, in the order in which they apply. -/
  refinements : List Refinement
  deriving DecidableEq

/-- The selector for all nodes of a kind (`Filter::new`). -/
def Selector.ofKind (kind : String) : Selector :=
  ⟨kind, .empty, true, []⟩

/-- The value that a selector asks a parameter to have (`Filter::param`). -/
def Selector.param? (s : Selector) (name : String) : Option String :=
  s.params.get? name

end TreeQuery
