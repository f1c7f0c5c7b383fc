/-!
# Command lines

What a list of arguments asks for. Switches may be given in any order, short ones may be put
together, and two dashes make all that follows plain. A command line is read from the left: the
first request for help wins over all that comes behind it, and over nothing before.
-/

namespace TreeQuery

/-- What can be done (`Commands`). -/
inductive Command where
  /-- Find nodes in files. -/
  | find (selector : String) (paths : List String) (json : Bool)
  /-- Show how a selector is read. -/
  | explain (selector : String)
  /-- Run checklists on sources. -/
  | check (checklist? path? : Option String)
  /-- List the names that queries can use. -/
  | list
  deriving DecidableEq, Repr

/-- What there is help on. -/
inductive Topic where
  | program
  | find
  | explain
  | check
  | list
  | help
  deriving DecidableEq, Repr

/-- What a command line asks for. -/
inductive Request where
  | run (verbose : Bool) (command : Command)
  | help (topic : Topic)
  | version
  deriving DecidableEq, Repr

namespace Arguments

/-! ## Switches -/

/-- The switches of all commands. -/
inductive Switch where
  | verbose
  | json
  | checklist
  | help
  | version
  deriving DecidableEq, Repr

namespace Switch

/-- The long name. -/
def long : Switch → String
  | verbose => "verbose"
  | json => "json"
  | checklist => "proof"
  | help => "help"
  | version => "version"

/-- The short name. -/
def short? : Switch → Option Char
  | verbose => some 'v'
  | json => none
  | checklist => some 'p'
  | help => some 'h'
  | version => some 'V'

end Switch

/-- What is understood behind a command: its switches, and its plain arguments by position. -/
structure Scope where
  topic : Topic
  switches : List Switch
  /-- Can this text be the plain argument at this position? -/
  plain : Nat → String → Bool

/-- Before a command, nothing but switches is understood. -/
def Scope.program : Scope :=
  ⟨.program, [.verbose, .help, .version], fun _ _ => false⟩

/-- A selector, then any number of paths. -/
def Scope.find : Scope :=
  ⟨.find, [.json, .verbose, .help], fun i text => i = 0 || !text.isEmpty⟩

/-- A selector. -/
def Scope.explain : Scope :=
  ⟨.explain, [.verbose, .help], fun i _ => i = 0⟩

/-- At most a path. -/
def Scope.check : Scope :=
  ⟨.check, [.checklist, .verbose, .help], fun i text => i = 0 && !text.isEmpty⟩

/-- No plain arguments. -/
def Scope.list : Scope :=
  ⟨.list, [.verbose, .help], fun _ _ => false⟩

/-- What has been read so far. -/
structure Given where
  verbose : Bool
  json : Bool
  checklist? : Option String
  plain : List String

/-- Nothing. -/
def Given.none : Given :=
  ⟨false, false, .none, []⟩

/-- Why reading stops before the end. -/
inductive Stop where
  /-- The arguments are wrong. -/
  | misuse
  /-- Something other than a command is asked for. -/
  | request (request : Request)

/-- A switch without a value. No switch may be given twice. -/
def turnOn (scope : Scope) (g : Given) : Switch → Except Stop Given
  | .verbose => if g.verbose then .error .misuse else .ok { g with verbose := true }
  | .json => if g.json then .error .misuse else .ok { g with json := true }
  | .help => .error (.request (.help scope.topic))
  | .version => .error (.request .version)
  | .checklist => .error .misuse

/-- The path of a checklist. -/
def setChecklist (g : Given) (path : String) : Except Stop Given :=
  if g.checklist?.isSome || path.isEmpty then .error .misuse
  else .ok { g with checklist? := some path }

/-- A plain argument. -/
def addPlain (scope : Scope) (g : Given) (text : String) : Except Stop Given :=
  if scope.plain g.plain.length text then .ok { g with plain := g.plain ++ [text] }
  else .error .misuse

/-- Short switches behind a single dash. True says that the last of them waits for its value. -/
def readShort (scope : Scope) (g : Given) : List Char → Except Stop (Given × Bool)
  | [] => .ok (g, false)
  | c :: rest =>
    match scope.switches.find? fun s => s.short? == some c with
    | none => .error .misuse
    | some .checklist =>
      match rest with
      | [] => .ok (g, true)
      | '=' :: path => (setChecklist g (String.ofList path)).map (·, false)
      | path => (setChecklist g (String.ofList path)).map (·, false)
    | some s => do
      let g ← turnOn scope g s
      readShort scope g rest

/-- A long switch behind two dashes. True says that it waits for its value. -/
def readLong (scope : Scope) (g : Given) (cs : List Char) : Except Stop (Given × Bool) :=
  let name := cs.takeWhile fun c => c != '='
  let value? := (cs.drop name.length).tail?.map String.ofList
  match scope.switches.find? fun s => s.long.toList == name, value? with
  | none, _ => .error .misuse
  | some .checklist, none => .ok (g, true)
  | some .checklist, some path => (setChecklist g path).map (·, false)
  | some s, none => (turnOn scope g s).map (·, false)
  | some _, some _ => .error .misuse

/-- What the first characters of an argument make of it. -/
inductive Shape where
  /-- Two dashes and nothing else. -/
  | separator
  | long (cs : List Char)
  | short (cs : List Char)
  | plain
  deriving DecidableEq, Repr

/-- The shape of an argument. A single dash is a plain argument. -/
def shape (argument : String) : Shape :=
  match argument.toList with
  | ['-', '-'] => .separator
  | '-' :: '-' :: cs => .long cs
  | '-' :: c :: cs => .short (c :: cs)
  | _ => .plain

/-- All arguments behind a command. `waiting` says that the value of the last switch is still to
    come. -/
def readAll (scope : Scope) (g : Given) (waiting : Bool) : List String → Except Stop Given
  | [] => if waiting then .error .misuse else .ok g
  | argument :: rest =>
    match shape argument, waiting with
    | .plain, true => do
      let g ← setChecklist g argument
      readAll scope g false rest
    | .plain, false => do
      let g ← addPlain scope g argument
      readAll scope g false rest
    | _, true => .error .misuse
    | .separator, false => rest.foldlM (addPlain scope) g
    | .long cs, false => do
      let (g, waiting) ← readLong scope g cs
      readAll scope g waiting rest
    | .short cs, false => do
      let (g, waiting) ← readShort scope g cs
      readAll scope g waiting rest

/-! ## Commands -/

/-- A command, its name and what is understood behind it. -/
def scopes : List (String × Scope) :=
  [("find", .find), ("parse", .explain), ("check", .check), ("list", .list)]

/-- The command that arguments of a topic make up. -/
def command? (topic : Topic) (g : Given) : Option Command :=
  match topic, g.plain with
  | .find, selector :: paths => some (.find selector paths g.json)
  | .explain, [selector] => some (.explain selector)
  | .check, [] => some (.check g.checklist? none)
  | .check, [path] => some (.check g.checklist? (some path))
  | .list, [] => some .list
  | _, _ => none

/-- The help that is asked for behind the command for help. -/
def helpOn : List String → Except Stop Request
  | [] => .ok (.help .program)
  | [name] =>
    if name = "help" then .ok (.help .help)
    else
      match scopes.lookup name with
      | some scope => .ok (.help scope.topic)
      | none => .error .misuse
  | _ => .error .misuse

/-- A command line, from its start. -/
def readProgram (g : Given) : List String → Except Stop Request
  | [] => .error .misuse
  | argument :: rest =>
    match shape argument with
    | .separator => .error .misuse
    | .long cs => do
      let (g, _) ← readLong .program g cs
      readProgram g rest
    | .short cs => do
      let (g, _) ← readShort .program g cs
      readProgram g rest
    | .plain =>
      if argument = "help" then helpOn rest
      else
        match scopes.lookup argument with
        | none => .error .misuse
        | some scope => do
          let h ← readAll scope .none false rest
          match command? scope.topic h with
          | some command => return .run (g.verbose || h.verbose) command
          | none => .error .misuse

/-- What a command line asks for, unless it is wrong (`Cli`). -/
def parse? (arguments : List String) : Option Request :=
  match readProgram .none arguments with
  | .ok request => some request
  | .error (.request request) => some request
  | .error .misuse => none

end Arguments

end TreeQuery
