import TreeQuery.Query.Target
import TreeQuery.Selector.Error
import TreeQuery.Text.EditDistance
import TreeQuery.Text.Quoted

/-!
# Faults in queries

Why a query is refused. An unknown name is reported with all names that would do, and with the
closest of them if it is close.
-/

namespace TreeQuery

/-- Where a name was looked up (`QueryCategory`). -/
inductive Category where
  | nodeKind
  | operator
  | construct
  | builtin
  | refinement
  deriving DecidableEq, Repr

/-- How a message names a category. -/
def Category.phrase : Category → String
  | nodeKind => "node kind"
  | operator => "operator"
  | construct => "language construct"
  | builtin => "built-in function"
  | refinement => "pseudo-filter"

/-- What is wrong with the argument of a refinement. -/
inductive ArgumentFault where
  | required
  | notInteger
  | unwanted
  deriving DecidableEq, Repr

/-- The wording of a fault in an argument. -/
def ArgumentFault.message : ArgumentFault → String
  | required => "requires an index argument"
  | notInteger => "index must be an integer"
  | unwanted => "takes no argument"

/-- Why a query is refused (`QueryError`). -/
inductive QueryError where
  /-- The selector text is no selector. -/
  | selector (error : SelectorError)
  /-- A name is not among the `valid` ones. -/
  | unknownName (category : Category) (name : String) (valid : List String)
  /-- A method is not among the `supported` ones. -/
  | unknownMethod (method : String) (supported : List String)
  /-- A parameter is none of those `accepted`. -/
  | unsupportedParam (target : Target) (name : String) (accepted : List String)
  /-- A required parameter is absent; `valid` lists the values it could have. -/
  | missingParam (target : Target) (name : String) (valid : List String)
  /-- A refinement has an argument it cannot use. -/
  | badArgument (refinement : String) (argument : Option String) (fault : ArgumentFault)
  deriving DecidableEq, Repr

namespace QueryError

/-- The name an error suggests in place of an unknown one. -/
def suggestion? : QueryError → Option String
  | unknownName _ name valid => Text.closest name valid
  | unknownMethod method supported => Text.closest method supported
  | _ => none

/-- The wording of a suggestion. -/
def hint : Option String → String
  | some name => " (did you mean '" ++ name ++ "'?)"
  | none => ""

/-- A list of names in brackets. -/
def bracketed (names : List String) : String :=
  "[" ++ ", ".intercalate names ++ "]"

/-- The wording of an error. -/
def message (e : QueryError) : String :=
  match e with
  | selector error => error.message
  | unknownName category name valid =>
    "unknown " ++ category.phrase ++ " '" ++ name ++ "'. Supported: " ++ bracketed valid ++
      hint e.suggestion?
  | unknownMethod method supported =>
    "unknown method '" ++ method ++ "' for NodeFinder. Supported: " ++ bracketed supported ++
      hint e.suggestion?
  | unsupportedParam target name accepted =>
    target.kindName ++ " does not accept parameter '" ++ name ++ "'. Accepted: " ++
      bracketed accepted
  | missingParam target name valid =>
    target.kindName ++ " requires parameter '" ++ name ++ "'. Valid values: " ++ bracketed valid
  | badArgument refinement argument fault =>
    "invalid argument " ++ Text.quotedOption argument ++ " for pseudo-filter '" ++ refinement ++
      "': " ++ fault.message

end QueryError

end TreeQuery
