import TreeQuery.Checklist.Bounds
import TreeQuery.Params

/-!
# Checklists

A checklist holds checks to run on a source file. A check has an identifier and a query, given as
a selector or as a method with its parameters, and says how many matches the query should have.
Nothing keeps a check from having both or neither; `Checklist.issues` finds such faults.
-/

namespace TreeQuery

/-- One check (`CheckDefinition`). -/
structure Check where
  id : String
  selector? : Option String
  method? : Option String
  params : Params
  /-- Look below the top-level statements: for methods, and only if given. -/
  descend? : Option Bool
  bounds : Bounds
  /-- A hint for those whose source fails the check. -/
  message? : Option String
  deriving DecidableEq

/-- Checks to run on one source file (`ProofFile`). -/
structure Checklist where
  name : String
  description? : Option String
  checks : List Check
  deriving DecidableEq

end TreeQuery
