import TreeQuery.Command.Arguments
import TreeQuery.Console.Style

/-!
# Help

The texts that explain the command line. Where colours are on, headings and the names that are
typed as they stand are set off; places to fill in are not.
-/

namespace TreeQuery.Help

/-- The name of the program with its version. -/
def version : String := "code-proof 0.1.0"

/-- A piece of text: either a name that is typed as it stands, or anything else. -/
inductive Piece where
  | name (text : String)
  | other (text : String)
  deriving DecidableEq, Repr

namespace Piece

/-- The text of a piece. -/
def text : Piece → String
  | name text => text
  | other text => text

/-- A piece as it is printed. -/
def render (colours : Bool) : Piece → String
  | name text => Style.bold.paint colours text
  | other text => text

end Piece

/-- How many characters of a line pieces take up. -/
def width (pieces : List Piece) : Nat :=
  pieces.foldl (fun width piece => width + piece.text.length) 0

/-- Pieces one behind the other. -/
def render (colours : Bool) (pieces : List Piece) : String :=
  String.join (pieces.map (·.render colours))

/-- A heading. -/
def heading (colours : Bool) (text : String) : String :=
  Style.heading.paint colours (text ++ ":")

/-- Lines of two columns under a heading. -/
def table (colours : Bool) (title : String) (rows : List (List Piece × String)) : List String :=
  let most := (rows.map fun row => width row.1).foldl max 0
  if rows.isEmpty then []
  else
    ["", heading colours title] ++ rows.map fun (pieces, about) =>
      "  " ++ render colours pieces ++
        String.ofList (List.replicate (most - width pieces + 2) ' ') ++ about

/-- What a topic is about. -/
def about : Topic → String
  | .program => "Query PHP syntax trees with selectors and run proof checks"
  | .find => "Print nodes matching a selector"
  | .explain => "Show how a selector is tokenized and parsed"
  | .check => "Run proof checks against a source file"
  | .list => "List supported node kinds, names and pseudo-filters"
  | .help => "Print this message or the help of the given subcommand(s)"

/-- How a command is called. -/
def usage : Topic → List Piece
  | .program => [.name "code-proof", .other " [OPTIONS] <COMMAND>"]
  | .find => [.name "code-proof find", .other " [OPTIONS] <SELECTOR> [PATHS]..."]
  | .explain => [.name "code-proof parse", .other " [OPTIONS] <SELECTOR>"]
  | .check => [.name "code-proof check", .other " [OPTIONS] [PATH]"]
  | .list => [.name "code-proof list", .other " [OPTIONS]"]
  | .help => [.name "code-proof help", .other " [COMMAND]..."]

/-- The commands, under the program. -/
def commands : Topic → List (List Piece × String)
  | .program =>
    [([.name "find"], about .find), ([.name "parse"], about .explain),
      ([.name "check"], about .check), ([.name "list"], about .list),
      ([.name "help"], about .help)]
  | _ => []

/-- The plain arguments of a command. -/
def arguments : Topic → List (List Piece × String)
  | .find =>
    [([.other "<SELECTOR>"], "Selector, e.g. \x60operator[name=equal]:first\x60"),
      ([.other "[PATHS]..."],
        "Files or directories to search (defaults to the configured code path)")]
  | .explain => [([.other "<SELECTOR>"], "")]
  | .check =>
    [([.other "[PATH]"], "Source file to check (defaults to the configured code path)")]
  | .help => [([.other "[COMMAND]..."], "Print help for the subcommand(s)")]
  | .program | .list => []

/-- The two names of a switch. -/
def switch (short long : String) : List Piece :=
  [.name short, .other ", ", .name long]

/-- The switch that turns on notes. -/
def verbose : List Piece × String :=
  (switch "-v" "--verbose", "Enable debug logging")

/-- The switch that asks for help. -/
def help : List Piece × String :=
  (switch "-h" "--help", "Print help")

/-- The switches of a command. -/
def switches : Topic → List (List Piece × String)
  | .program => [verbose, help, (switch "-V" "--version", "Print version")]
  | .find => [([.other "    ", .name "--json"], "Emit matches as JSON"), verbose, help]
  | .explain | .list => [verbose, help]
  | .check =>
    [(switch "-p" "--proof" ++ [.other " <PROOF>"],
        "Proof file to run (otherwise runs every proof in the proof directory)"), verbose, help]
  | .help => []

/-- The help on a topic. -/
def lines (colours : Bool) (topic : Topic) : List String :=
  [about topic, "", heading colours "Usage" ++ " " ++ render colours (usage topic)] ++
    table colours "Commands" (commands topic) ++ table colours "Arguments" (arguments topic) ++
    table colours "Options" (switches topic)

end TreeQuery.Help
