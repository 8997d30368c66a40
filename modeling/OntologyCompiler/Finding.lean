import OntologyCompiler.Code.Target
import OntologyCompiler.Ontology.Write
import OntologyCompiler.Reading.Medium
import OntologyCompiler.Tool.Dialect

/-!
# Findings

A finding is something that deserves notice while a compilation goes on. It is kept as what
happened; its level and its words are functions of that. A finding that something was lost is an
error, every other one is a warning.

* `Finding.isError_iff`: the findings that are errors.
-/

namespace OntologyCompiler

/-- How much a diagnostic weighs. -/
inductive Level where
  | warning
  | error
  deriving DecidableEq, Inhabited

namespace Level

/-- The written name. -/
def name : Level → String
  | warning => "warning"
  | error => "error"

/-- The levels by name. -/
def table : List (String × Level) :=
  [warning, error].map fun l => (l.name, l)

/-- Read a level from its name. -/
def read {ν : Type} {m : Type → Type} [Reads m] [Medium ν m] : ν → m Level :=
  Reading.variant table

/-- A level as a value. -/
def toJson (l : Level) : Json :=
  .str l.name

end Level

/-- A finding in words. -/
structure Diagnostic where
  level : Level := .warning
  message : String := ""
  deriving DecidableEq, Inhabited

namespace Diagnostic

/-- Whether a diagnostic is of the level of errors. -/
def isError (d : Diagnostic) : Bool :=
  d.level == .error

/-- A diagnostic on one line. -/
def line (d : Diagnostic) : String :=
  "[" ++ d.level.name ++ "] " ++ d.message

section Read

variable {ν : Type} {m : Type → Type} [Reads m] [Medium ν m]

/-- The fields of a diagnostic. -/
def fields : List (Field ν m Diagnostic) :=
  [.must "level" Level.read fun r v => { r with level := v },
   .must "message" Medium.text fun r v => { r with message := v }]

/-- Read a diagnostic. -/
def read : ν → m Diagnostic :=
  Record.read "Diagnostic" fields {}

end Read

/-- A diagnostic as an object. -/
def toJson (d : Diagnostic) : Json :=
  .record [Json.always "level" d.level.toJson, Json.always "message" (.str d.message)]

end Diagnostic

/-- What happened in a compilation. Labels name actions by object and name. -/
inductive Finding where
  /-- An action without a name. -/
  | unnamedAction (object : String)
  /-- An action takes over an identifier, and with it the schemas, of the action `first`. -/
  | identifierReplaced (label identifier first : String)
  /-- An identifier was in use by the action `first`, so another one is taken. -/
  | identifierRenamed (label identifier first renamed : String)
  /-- A tool has the same name as that of the action `first`. -/
  | toolNameReused (label toolName first : String)
  /-- A tool name was in use by the action `first`, so another one is taken. -/
  | toolNameRenamed (label toolName first renamed : String)
  /-- The authored method is not known. -/
  | unknownMethod (label method : String)
  /-- An operation takes the place of the one of the action `first`. -/
  | operationReplaced (label first : String) (verb : Verb) (path : String)
  /-- A dialect has no place for the governance of a tool. -/
  | governanceDropped (dialect : Dialect) (tool : String) (tier : UInt8) (risk : RiskLevel)
  /-- A name in generated code was taken, so another one is bound. -/
  | boundOtherwise (target : CodeTarget) (candidate owner bound : String)
  /-- The configured title is blank. -/
  | blankTitle
  /-- The configured version is blank. -/
  | blankVersion
  /-- A configured server has no usable address. -/
  | oddServer (server : String)
  /-- A remark in free words. -/
  | remark (text : String)
  deriving DecidableEq

namespace Finding

/-- The level of a finding: an error where something was lost. -/
def level : Finding → Level
  | identifierReplaced .. => .error
  | toolNameReused .. => .error
  | operationReplaced .. => .error
  | _ => .warning

/-- A text in single quotes. -/
def quoted (s : String) : String :=
  "'" ++ s ++ "'"

/-- The words of a finding. -/
def message : Finding → String
  | unnamedAction object => "action on object " ++ quoted object ++ " has an empty name"
  | identifierReplaced label identifier first =>
    quoted label ++ " derives identifier " ++ quoted identifier ++ " already used by "
      ++ quoted first ++ "; its schemas replace the earlier ones"
  | identifierRenamed label identifier first renamed =>
    quoted label ++ " derives identifier " ++ quoted identifier ++ " already used by "
      ++ quoted first ++ "; renamed to " ++ quoted renamed
  | toolNameReused label toolName first =>
    quoted label ++ " reuses tool name " ++ quoted toolName ++ " already used by " ++ quoted first
  | toolNameRenamed label toolName first renamed =>
    quoted label ++ " reuses tool name " ++ quoted toolName ++ " already used by " ++ quoted first
      ++ "; renamed to " ++ quoted renamed
  | unknownMethod label method =>
    quoted label ++ " uses unsupported HTTP method " ++ quoted method ++ "; using "
      ++ (default : Verb).name
  | operationReplaced label first verb path =>
    quoted label ++ " replaces " ++ quoted first ++ " at " ++ verb.name ++ " " ++ path
  | governanceDropped dialect tool tier risk =>
    dialect.name ++ " has no metadata slot; governance of tool " ++ quoted tool ++ " (tier "
      ++ toString tier.toNat ++ ", risk " ++ risk.text ++ ") is not carried"
  | boundOtherwise target candidate owner bound =>
    target.name ++ ": identifier " ++ quoted candidate ++ " for " ++ quoted owner
      ++ " is already used; emitted as " ++ quoted bound
  | blankTitle => "title is empty; the document title will be derived from the ontology"
  | blankVersion => "version is empty; the document version will be derived from the ontology"
  | oddServer server =>
    "server " ++ quoted server ++ " is neither an absolute URL nor a relative path"
  | remark text => text

/-- A finding in words. -/
def diagnostic (f : Finding) : Diagnostic :=
  ⟨f.level, f.message⟩

/-- Whether a finding is an error. -/
def isError (f : Finding) : Bool :=
  f.level == .error

theorem isError_iff (f : Finding) : f.isError = true ↔
    (∃ l i e, f = identifierReplaced l i e) ∨ (∃ l n e, f = toolNameReused l n e) ∨
      ∃ l e v p, f = operationReplaced l e v p := by
  cases f <;> simp [isError, level]

end Finding

/-- A result together with the findings made on the way to it. -/
structure Compiled (α : Type) where
  output : α
  findings : List Finding

namespace Compiled

/-- Whether an error was found. -/
def hasErrors {α : Type} (c : Compiled α) : Bool :=
  c.findings.any Finding.isError

end Compiled
end OntologyCompiler
