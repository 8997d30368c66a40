import OntologyCompiler.Text.Ascii

/-!
# Languages of generated code

* `CodeTarget.parse?_name`, `CodeTarget.parse?_extension`: a target is read from its name and from
  the extension of its files.
-/

namespace OntologyCompiler

/-- A language of generated code. -/
inductive CodeTarget where
  /-- Structured tools with argument models. -/
  | python
  /-- An array of function tools with argument interfaces. -/
  | typescript
  deriving DecidableEq, Inhabited

namespace CodeTarget

/-- Every target. -/
def all : List CodeTarget :=
  [python, typescript]

/-- The written name. -/
def name : CodeTarget → String
  | python => "python"
  | typescript => "typescript"

/-- The extension of a file in this language. -/
def extension : CodeTarget → String
  | python => "py"
  | typescript => "ts"

/-- The target of a name or extension, the case of its letters apart. -/
def parse? (s : String) : Option CodeTarget :=
  match Text.lowerAscii s with
  | "python" => some python
  | "py" => some python
  | "typescript" => some typescript
  | "ts" => some typescript
  | _ => none

theorem parse?_name (t : CodeTarget) : parse? t.name = some t := by
  cases t <;> decide +kernel

theorem parse?_extension (t : CodeTarget) : parse? t.extension = some t := by
  cases t <;> decide +kernel

end CodeTarget
end OntologyCompiler
