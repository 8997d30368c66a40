import OntologyCompiler.Check
import OntologyCompiler.Code.Generate
import OntologyCompiler.CommandLine.Arguments
import OntologyCompiler.CommandLine.Table
import OntologyCompiler.Config.Store
import OntologyCompiler.Ontology.Load

/-!
# Running commands

A command reads files, compiles, and shows the result or writes it to a file. What goes wrong is
told together with what was going on.

* `run`: what a command does and shows.
-/

namespace OntologyCompiler.CommandLine

/-- A failure, and what was going on, the widest context first. -/
structure Trouble where
  context : List String
  cause : Failure

namespace Trouble

/-- Trouble in words, with the words of its cause given. -/
def tell (t : Trouble) (cause : String) : String :=
  "error: " ++ ": ".intercalate (t.context ++ [cause]) ++ "\n"

/-- Trouble in words. -/
def message (t : Trouble) : String :=
  t.tell t.cause.message

end Trouble

/-- What a command shows, and what went wrong at its end. -/
structure Outcome where
  output : String := ""
  note : String := ""
  trouble : Option Trouble := none

namespace Outcome

/-- Everything that is told besides the output. -/
def errorText (o : Outcome) : String :=
  o.note ++ (o.trouble.map Trouble.message).getD ""

/-- The exit code. -/
def code (o : Outcome) : Nat :=
  if o.trouble.isSome then 1 else 0

end Outcome

variable {m : Type → Type} [Monad m] [Files m]

/-- An action that may end in trouble. -/
abbrev Task (m : Type → Type) (α : Type) := ExceptT Trouble m α

/-- An action in a context. -/
def within {α : Type} (context : List String) (act : ExceptT Failure m α) : Task m α :=
  ExceptT.mk do return (← act.run).mapError fun f => ⟨context, f⟩

/-- A result in a context. -/
def settle {α : Type} (context : List String) (result : Except Failure α) : Task m α :=
  ExceptT.mk (return result.mapError fun f => ⟨context, f⟩)

/-- What a name stands for, or the failure that it stands for nothing. -/
def settleName {α : Type} (failure : String → Failure) (parse? : String → Option α)
    (given : String) : Task m α :=
  settle [] (match parse? given with
    | some a => .ok a
    | none => .error (failure given))

/-- The configuration of an invocation. -/
def loadConfig (i : Invocation) : Task m Config := do
  let directory ← (Files.current : m String)
  let config ← match ← (Config.find? i.config directory : m (Option String)) with
    | some path => within ["failed to load config " ++ path] (Config.load path)
    | none => pure {}
  return match i.collisions with
    | some policy => config.withPolicy policy
    | none => config

/-- The ontology in a file. -/
def loadOntology (path : String) : Task m Ontology :=
  within ["failed to read ontology " ++ path] (Ontology.load path)

/-- Show a text, or write it to a file. -/
def deliver (text : String) (out : Option String) : Task m Outcome :=
  match out with
  | none => return { output := text }
  | some path => do
    match ← within ["failed to write " ++ path] (Files.writeArtifact path text) with
    | .written => return { note := "Wrote " ++ path ++ "\n" }
    | .unchanged => return { note := "Unchanged " ++ path ++ "\n" }

/-- Write a default configuration. -/
def initialise (config : Option String) (force : Bool) : Task m Outcome := do
  let path ← match config with
    | some path => pure path
    | none => do
      let directory ← (Files.current : m String)
      pure (Path.join directory Config.fileName)
  if (← (Files.isPresent path : m Bool)) && !force then throw ⟨[], .configExists path⟩
  let _ ← within ["failed to write " ++ path] (Config.save {} path)
  return { output := "Wrote " ++ path ++ "\n" }

/-- Compile a document. -/
def compileDocument (config : Config) (json : Bool) (file : String) (selection : Selection)
    (format out : Option String) : Task m Outcome := do
  let ontology ← loadOntology file
  let scope ← settle [] (selection.scope ontology)
  let format ← settle [] (chooseFormat format out json)
  let compiled ← settle ["failed to compile OpenAPI document"] (assemble config scope)
  deliver (format.render compiled.output.toJson) out

/-- Compile tools in a dialect. -/
def compileTools (config : Config) (json : Bool) (file dialect : String) (selection : Selection)
    (format out : Option String) : Task m Outcome := do
  let dialect ← settleName .unknownDialect Dialect.parse? dialect
  let ontology ← loadOntology file
  let scope ← settle [] (selection.scope ontology)
  let format ← settle [] (chooseFormat format out json)
  let compiled ← settle ["failed to compile " ++ dialect.name ++ " tools"]
    (emit config scope dialect)
  deliver (format.render (.arr (compiled.output.map RenderedTool.toJson))) out

/-- Generate code. -/
def generateCode (config : Config) (file target : String) (selection : Selection)
    (out : Option String) : Task m Outcome := do
  let target ← settleName .unknownTarget CodeTarget.parse? target
  let ontology ← loadOntology file
  let scope ← settle [] (selection.scope ontology)
  let compiled ← settle ["failed to generate " ++ target.name ++ " source"]
    (generate config scope target)
  deliver compiled.output out

/-- Report what is odd about an ontology. -/
def reportOn (config : Config) (json : Bool) (file : String) : Task m Outcome := do
  let ontology ← loadOntology file
  let report ← settle [] (check config ontology)
  let text := if json then report.toJson.pretty ++ "\n" else report.text
  let trouble := if report.errors = 0 then none else some ⟨[], .errorsFound report.errors⟩
  return { output := text, trouble := trouble }

/-- The dialects, as a list of objects or as a table. -/
def dialectList (json : Bool) : String :=
  if json then
    (Json.arr (Dialect.all.map fun d =>
      .obj [("name", .str d.name), ("governance", .bool d.carriesGovernance),
        ("description", .str d.about)])).pretty ++ "\n"
  else
    Table.text ⟨["DIALECT", "GOVERNANCE", "DESCRIPTION"], Dialect.all.map fun d =>
      [d.name, if d.carriesGovernance then "carried" else "dropped", d.about]⟩

/-- What an invocation does. -/
def perform (i : Invocation) : Task m Outcome :=
  match i.command with
  | .init force => initialise i.config force
  | .dialects => return { output := dialectList i.json }
  | .openApi file selection format out => do
    compileDocument (← loadConfig i) i.json file selection format out
  | .tools file dialect selection format out => do
    compileTools (← loadConfig i) i.json file dialect selection format out
  | .codegen file target selection out => do
    generateCode (← loadConfig i) file target selection out
  | .check file => do reportOn (← loadConfig i) i.json file

/-- What an invocation does and shows. -/
def run (i : Invocation) : m Outcome := do
  match ← (perform i).run with
  | .ok outcome => return outcome
  | .error trouble => return { trouble := some trouble }

end OntologyCompiler.CommandLine
