import TreeQuery.Tree.Node

/-!
# Nodes of PHP

How the PHP grammar writes variables, calls, definitions and strings, and what can be read off
such nodes.
-/

namespace TreeQuery.Php

/-- The part of a text behind its leading dollar signs. -/
def stripDollars (s : String) : String :=
  String.ofList (s.toList.dropWhile fun c => c == '$')

/-- The name of a variable (`variable_identifier`): `count` for `$count`. -/
def variableName? (n : Node) : Option String :=
  if n.kind = "variable_name" then
    match n.childOfKind? "name" with
    | some name => some name.text
    | none => some (stripDollars n.text)
  else none

/-- The name after the backslash of a global name such as `\strlen`. Names inside a namespace have
    further backslashes and are no global names. -/
def globalName? (text : String) : Option String :=
  match text.toList with
  | '\\' :: name =>
    if name.isEmpty || name.contains '\\' then none else some (String.ofList name)
  | _ => none

/-- The name of the function that a call calls, as it is written (`callee_name`). -/
def calleeName? (n : Node) : Option String :=
  if n.kind = "function_call_expression" then
    (n.field? "function").bind fun callee =>
      if callee.kind = "name" then some callee.text
      else if callee.kind = "qualified_name" then globalName? callee.text
      else none
  else none

/-- The name that a function definition defines (`function_name`). -/
def functionName? (n : Node) : Option String :=
  if n.kind = "function_definition" then (n.field? "name").map Node.text else none

/-- The kinds of the parts of a string that are literal text (`is_literal_part`). -/
def isLiteralPart (kind : String) : Bool :=
  kind == "string_content" || kind == "escape_sequence"

/-- Does a string have a part that is not literal text (`has_interpolated_part`)? -/
def hasInterpolatedPart (n : Node) : Bool :=
  n.namedChildren.any fun c => !isLiteralPart c.kind

/-- Is this a string in double quotes, or a heredoc, with a value filled in (`is_interpolated`)? -/
def isInterpolated (n : Node) : Bool :=
  if n.kind = "encapsed_string" then hasInterpolatedPart n
  else if n.kind = "heredoc" then
    match n.childOfKind? "heredoc_body" with
    | some body => hasInterpolatedPart body
    | none => false
  else false

/-- Is this node directly inside a string with a value filled in (`in_interpolated_string`)? The
    body of a heredoc counts as the heredoc. -/
def inInterpolated (n : Node) : Bool :=
  match n.parent? with
  | none => false
  | some parent =>
    if parent.kind = "heredoc_body" then
      match parent.parent? with
      | some heredoc => isInterpolated heredoc
      | none => false
    else isInterpolated parent

/-! ## The contents of a string literal -/

/-- Single and double quotes. -/
def isStringQuote (c : Char) : Bool :=
  c == '\x22' || c == '\x27'

/-- Text without a `b` or `B` in front of an opening quote. -/
def stripBinaryMark : List Char → List Char
  | m :: q :: rest =>
    if (m == 'b' || m == 'B') && isStringQuote q then q :: rest else m :: q :: rest
  | cs => cs

/-- The text between two equal quotes, or all of it if it does not stand between such. -/
def unquote : List Char → List Char
  | [] => []
  | opening :: rest =>
    if isStringQuote opening && rest.getLast? == some opening then rest.dropLast
    else opening :: rest

/-- The contents of a string literal, escapes left as they are written (`string_value`). -/
def stringValue (text : String) : String :=
  String.ofList (unquote (stripBinaryMark text.toList))

end TreeQuery.Php
