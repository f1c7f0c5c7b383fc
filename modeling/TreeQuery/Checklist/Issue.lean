import TreeQuery.Checklist.Basic
import TreeQuery.Selector.Parser
import TreeQuery.Text.Blank

/-!
# Faults in checklists

A checklist is examined as a whole: all faults are reported, check by check, and for each check
first those of its identifier, then those of its query, then those of its bounds.
-/

namespace TreeQuery

/-- The fields that a check cannot do without. -/
inductive Field where
  | id
  | selector
  | method
  deriving DecidableEq, Repr

/-- The name of a field. -/
def Field.label : Field → String
  | id => "id"
  | selector => "selector"
  | method => "method"

/-- Settings of a check that do not go together. -/
inductive Conflict where
  | selectorAndMethod
  | paramsWithSelector
  | emptyBounds (min max : Nat)
  deriving DecidableEq, Repr

/-- The wording of a conflict. -/
def Conflict.message : Conflict → String
  | selectorAndMethod => "selector and method are mutually exclusive"
  | paramsWithSelector =>
    "params and traverse_children only apply to method checks; put them in the selector instead"
  | emptyBounds min max =>
    "min (" ++ toString min ++ ") is greater than max (" ++ toString max ++ ")"

/-- A fault of a checklist (`ValidationIssue`). A check with a blank identifier is not named. -/
inductive Issue where
  | noChecks
  | missingField (id? : Option String) (field : Field)
  | duplicateId (id : String)
  | badSelector (id? : Option String) (error : SelectorError)
  | conflict (id? : Option String) (cause : Conflict)
  deriving DecidableEq, Repr

/-- The wording of a fault. -/
def Issue.text : Issue → String
  | noChecks => "proof file contains no checks"
  | missingField (some id) field =>
    "check '" ++ id ++ "' missing required field '" ++ field.label ++ "'"
  | missingField none field => "check missing required field '" ++ field.label ++ "'"
  | duplicateId id => "check id '" ++ id ++ "' is used more than once"
  | badSelector (some id) error =>
    "check '" ++ id ++ "' has an invalid selector: " ++ error.message
  | badSelector none error => "invalid selector: " ++ error.message
  | conflict (some id) cause =>
    "check '" ++ id ++ "' has invalid configuration: " ++ cause.message
  | conflict none cause => "invalid check configuration: " ++ cause.message

/-- The identifier that a fault names. -/
def Issue.id? : Issue → Option String
  | noChecks => none
  | missingField id? _ | badSelector id? _ | conflict id? _ => id?
  | duplicateId id => some id

namespace Check

/-- The identifier, unless it is blank. -/
def givenId? (c : Check) : Option String :=
  if Text.isBlankText c.id then none else some c.id

/-- The faults of the identifier, where the checks before use the identifiers `seen`. -/
def idIssues (seen : List String) (c : Check) : List Issue :=
  match c.givenId? with
  | none => [.missingField none .id]
  | some id => if seen.contains id then [.duplicateId id] else []

/-- The faults of the query. -/
def queryIssues (c : Check) : List Issue :=
  match c.selector?, c.method? with
  | some _, some _ => [.conflict c.givenId? .selectorAndMethod]
  | none, none => [.missingField c.givenId? .selector]
  | some selector, none =>
    (match Selector.parse selector with
      | .error e => [.badSelector c.givenId? e]
      | .ok _ => []) ++
    (if !c.params.isEmpty || c.descend?.isSome then [.conflict c.givenId? .paramsWithSelector]
      else [])
  | none, some method =>
    if Text.isBlankText method then [.missingField c.givenId? .method] else []

/-- The faults of the bounds. -/
def boundsIssues (c : Check) : List Issue :=
  match c.bounds.min?, c.bounds.max? with
  | some min, some max =>
    if max < min then [.conflict c.givenId? (.emptyBounds min max)] else []
  | _, _ => []

/-- The faults of a check. -/
def issues (seen : List String) (c : Check) : List Issue :=
  c.idIssues seen ++ c.queryIssues ++ c.boundsIssues

end Check

namespace Checklist

/-- The faults of checks, where the checks before them use the identifiers `seen`. -/
def issuesAfter (seen : List String) : List Check → List Issue
  | [] => []
  | c :: rest => c.issues seen ++ issuesAfter (c.givenId?.toList ++ seen) rest

/-- All faults of a checklist, in order (`ProofFile::validate`). -/
def issues (l : Checklist) : List Issue :=
  if l.checks.isEmpty then [.noChecks] else issuesAfter [] l.checks

/-- The faults of a checklist, one to a line (`ValidationError`). -/
def issuesText (issues : List Issue) : String :=
  "\n".intercalate (issues.map Issue.text)

end Checklist

end TreeQuery
