import TreeQuery.Command.Session

/-!
# Listing the vocabulary

The command that lists all names that queries can use.
-/

namespace TreeQuery.Vocabulary

/-- A text with blanks behind it up to a width. -/
def padded (width : Nat) (text : String) : String :=
  text ++ String.ofList (List.replicate (width - text.length) ' ')

/-- Names with commas between them. -/
def listed (names : List String) : String :=
  ", ".intercalate names

/-- A kind of node: its name, its method and its parameters. -/
def targetLine (s : Session) (t : Target) : String :=
  "  " ++ padded 16 t.kindName ++ " " ++ s.paint .dimmed (padded 24 t.methodName) ++ " [" ++
    listed t.accepted ++ "]"

/-- An operator: its name, what it stands for, and its parameters. -/
def ruleLine (s : Session) (r : Rule) : String :=
  "  " ++ padded 16 r.name ++ " " ++ s.paint .dimmed r.description ++ " [" ++
    listed r.paramNames ++ "]"

/-- All lines of the list. -/
def lines (s : Session) : List String :=
  [s.paint .bold "Node kinds:"] ++ Target.all.map (targetLine s) ++
  ["", s.paint .bold "Operators:"] ++ Registry.standard.operators.map (ruleLine s) ++
  ["", s.paint .bold "Constructs:", "  " ++ listed Registry.constructNames,
    "", s.paint .bold "Built-in functions:", "  " ++ listed builtinFunctions,
    "", s.paint .bold "Pseudo-filters:", "  " ++ listed Stage.names]

/-- List the names that queries can use (`cmd_list`). -/
def run (s : Session) : Run Unit :=
  (lines s).forM Run.out

end TreeQuery.Vocabulary
