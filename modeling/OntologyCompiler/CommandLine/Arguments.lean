import OntologyCompiler.CommandLine.Selection
import OntologyCompiler.Policy

/-!
# Arguments of the command line

A command line is options, the name of a command, and options and operands of the command. An option
is given by a long name after two dashes or by a letter after one; its value follows, either
attached or as the next argument. Letters may be run together. After `--` everything is an operand.

Options that every command has may stand on both sides of the command; the value nearer to the end
counts. An option may not be repeated on one side.

* `Invocation.ofArguments`: what a command line asks for.
-/

namespace OntologyCompiler.CommandLine

/-- Why a command line is not followed to its end. -/
inductive Ending where
  /-- It asks for nothing that there is. -/
  | misuse
  /-- It asks for the version of the program, or of one of its commands. -/
  | version (command : Option String)
  | help
  deriving DecidableEq

/-- What an option does. -/
inductive Role where
  /-- It is given or not. -/
  | switch
  /-- It has one of the values that are accepted. -/
  | value (accepts : String → Bool)
  /-- It ends the reading of the command line. -/
  | ends (ending : Ending)

/-- An option. -/
structure Flag where
  long : String
  short : Option Char
  role : Role

/-- What may be given on one side of a command's name. -/
structure Side where
  flags : List Flag
  commands : List String
  /-- How many operands there may be. -/
  operands : Nat

/-- What is given on one side of a command's name. -/
structure Given where
  options : List (String × String) := []
  operands : List String := []

namespace Given

/-- The value of an option. -/
def option? (g : Given) (name : String) : Option String :=
  g.options.lookup name

/-- Whether an option is given. -/
def has (g : Given) (name : String) : Bool :=
  (g.option? name).isSome

/-- Take in an option with a value. -/
def set (g : Given) (f : Flag) (value : String) : Except Ending Given :=
  match f.role with
  | .ends ending => .error ending
  | .switch =>
    if g.has f.long then .error .misuse else .ok { g with options := (f.long, "") :: g.options }
  | .value accepts =>
    if g.has f.long || !accepts value then .error .misuse
    else .ok { g with options := (f.long, value) :: g.options }

/-- Take in operands. -/
def addOperands (g : Given) (side : Side) (ws : List String) : Except Ending Given :=
  if side.operands < g.operands.length + ws.length || ws.any (· == "") then .error .misuse
  else .ok { g with operands := g.operands ++ ws }

end Given

namespace Flag

/-- Whether a value belongs to the option. -/
def takesValue (f : Flag) : Bool :=
  match f.role with
  | .value _ => true
  | _ => false

end Flag

/-- Options by letters that are run together, and the one at the end whose value comes next. -/
def letters (side : Side) : Given → List Char → Except Ending (Given × Option Flag)
  | g, [] => .ok (g, none)
  | g, c :: cs =>
    match side.flags.find? (·.short == some c) with
    | none => .error .misuse
    | some f =>
      if !f.takesValue then do letters side (← g.set f "") cs
      else
        match cs with
        | [] => .ok (g, some f)
        | '=' :: value => do return (← g.set f (String.ofList value), none)
        | value => do return (← g.set f (String.ofList value), none)

/-- An option by its long name, and whether its value comes next. -/
def longName (side : Side) (g : Given) (cs : List Char) : Except Ending (Given × Option Flag) :=
  let name := String.ofList (cs.takeWhile (· != '='))
  match side.flags.find? (·.long == name), cs.dropWhile (· != '=') with
  | none, _ => .error .misuse
  | some f, [] => if f.takesValue then .ok (g, some f) else do return (← g.set f "", none)
  | some f, _ :: value =>
    if f.takesValue then do return (← g.set f (String.ofList value), none) else .error .misuse

/-- Whether an argument is an option, or the mark behind the last of them. -/
def isOption (arg : String) : Bool :=
  arg.toList.head? == some '-' && arg != "-"

/-- Read the arguments of one side, up to the name of a command if there may be one. -/
def scan (side : Side) : Given → List String → Except Ending (Given × List String)
  | g, [] => .ok (g, [])
  | g, arg :: rest =>
    if side.commands.contains arg then .ok (g, arg :: rest)
    else if arg == "--" then do return (← g.addOperands side rest, [])
    else if !isOption arg then do scan side (← g.addOperands side [arg]) rest
    else do
      let (g, pending) ← match arg.toList with
        | '-' :: '-' :: cs => longName side g cs
        | cs => letters side g (cs.drop 1)
      match pending, rest with
      | none, rest => scan side g rest
      | some _, [] => .error .misuse
      | some f, value :: rest =>
        if isOption value then .error .misuse else do scan side (← g.set f value) rest

/-! ## The command line of this program -/

/-- The name of the program. -/
def programName : String := "ontology"

/-- The version of the program. -/
def programVersion : String := "0.1.0"

/-- An option with a value that may not be empty. -/
def pathFlag (long : String) (short : Option Char) : Flag :=
  ⟨long, short, .value (· != "")⟩

/-- An option with any value. -/
def textFlag (long : String) (short : Option Char) : Flag :=
  ⟨long, short, .value fun _ => true⟩

/-- The options that every command has. -/
def commonFlags (command : Option String) : List Flag :=
  [pathFlag "config" none,
   ⟨"collisions", none, .value fun v => (CollisionPolicy.parse? v).isSome⟩,
   ⟨"json", some 'j', .switch⟩,
   ⟨"help", some 'h', .ends .help⟩,
   ⟨"version", some 'V', .ends (.version command)⟩]

/-- The options that pick a part of the ontology. -/
def selectionFlags : List Flag :=
  [textFlag "object" none, textFlag "action" none]

/-- The commands: their own options, and how many operands they have. -/
def commands : List (String × List Flag × Nat) :=
  [("init", [⟨"force", none, .switch⟩], 0),
   ("openapi", selectionFlags ++ [textFlag "format" none, pathFlag "out" (some 'o')], 1),
   ("tools", textFlag "dialect" (some 'd') :: selectionFlags
      ++ [textFlag "format" none, pathFlag "out" (some 'o')], 1),
   ("codegen", textFlag "target" (some 't') :: selectionFlags ++ [pathFlag "out" (some 'o')], 1),
   ("check", [], 1),
   ("dialects", [], 0)]

/-- The side before the name of a command. -/
def front : Side :=
  ⟨commonFlags none, "help" :: commands.map Prod.fst, 0⟩

/-- What is asked for. -/
inductive Command where
  /-- Write a default configuration. -/
  | init (force : Bool)
  /-- Compile a document. -/
  | openApi (file : String) (selection : Selection) (format out : Option String)
  /-- Compile tools in a dialect. -/
  | tools (file dialect : String) (selection : Selection) (format out : Option String)
  /-- Generate code. -/
  | codegen (file target : String) (selection : Selection) (out : Option String)
  /-- Report what is odd about an ontology. -/
  | check (file : String)
  /-- List the dialects. -/
  | dialects
  deriving DecidableEq

/-- A command together with the options that every command has. -/
structure Invocation where
  config : Option String
  collisions : Option CollisionPolicy
  json : Bool
  command : Command
  deriving DecidableEq

namespace Given

/-- The selection that is given; an action asks for an object. -/
def selection? (g : Given) : Option Selection :=
  if g.has "action" && !g.has "object" then none else some ⟨g.option? "object", g.option? "action"⟩

/-- The command of a name, if everything that it needs is given. -/
def command? (g : Given) (name : String) : Option Command :=
  match name with
  | "init" => some (.init (g.has "force"))
  | "dialects" => some .dialects
  | _ => do
    let file ← g.operands.head?
    let selection ← g.selection?
    match name with
    | "openapi" => return .openApi file selection (g.option? "format") (g.option? "out")
    | "tools" =>
      return .tools file ((g.option? "dialect").getD "openai") selection (g.option? "format")
        (g.option? "out")
    | "codegen" => return .codegen file (← g.option? "target") selection (g.option? "out")
    | "check" => return .check file
    | _ => none

end Given

namespace Invocation

/-- Whether a side leaves the configuration to an environment that names none. -/
def lacksConfig (environment : Option String) (g : Given) : Bool :=
  environment == some "" && !g.has "config"

/-- What a command line asks for. The environment may name a configuration, which an option
overrides. -/
def ofArguments (environment : Option String) (args : List String) : Except Ending Invocation := do
  let (before, rest) ← scan front {} args
  match rest with
  | [] => throw .misuse
  | name :: rest =>
    match commands.lookup name with
    | none =>
      if rest.length ≤ 1 && rest.all front.commands.contains then throw .help else throw .misuse
    | some (flags, operands) =>
      let (after, _) ← scan ⟨commonFlags (some name) ++ flags, [], operands⟩ {} rest
      if lacksConfig environment before || lacksConfig environment after then throw .misuse
      else
        match after.command? name with
        | none => throw .misuse
        | some command =>
          let option? (option : String) := after.option? option <|> before.option? option
          return ⟨option? "config" <|> environment,
            (option? "collisions").bind CollisionPolicy.parse?,
            after.has "json" || before.has "json", command⟩

end Invocation

/-- How the program is used. -/
def usageText : String :=
  "Usage: " ++ programName ++ " [OPTIONS] <COMMAND>\n\nCommands:\n"
    ++ String.join (commands.map fun c => "  " ++ c.1 ++ "\n")

/-- The name and version that are shown. -/
def versionText (command : Option String) : String :=
  programName ++ (command.map ("-" ++ ·)).getD "" ++ " " ++ programVersion ++ "\n"

end OntologyCompiler.CommandLine
