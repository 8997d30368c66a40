import OntologyCompiler.Failure
import OntologyCompiler.Files.Path
import OntologyCompiler.Json.Printer
import OntologyCompiler.Yaml.Writer

/-!
# Formats of documents

* `Format.render`: a value as the text of a document.
* `Format.parse?_name`: a format is read from its name.
-/

namespace OntologyCompiler

/-- A notation for documents. -/
inductive Format where
  | json
  | yaml
  deriving DecidableEq, Inhabited

namespace Format

/-- The written name. -/
def name : Format → String
  | json => "json"
  | yaml => "yaml"

/-- The format of a name or file extension, the case of its letters apart. -/
def parse? (s : String) : Option Format :=
  match Text.lowerAscii s with
  | "json" => some json
  | "yaml" => some yaml
  | "yml" => some yaml
  | _ => none

theorem parse?_name (f : Format) : parse? f.name = some f := by
  cases f <;> decide +kernel

/-- The format that the extension of a path names. -/
def ofPath? (path : String) : Option Format :=
  (Path.extension? path).bind parse?

/-- A value in a format, with a line end at the end. -/
def render (f : Format) (v : Json) : String :=
  match f with
  | json => v.pretty ++ "\n"
  | yaml => Yaml.write v

end Format
end OntologyCompiler
