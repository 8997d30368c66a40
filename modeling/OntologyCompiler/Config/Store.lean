import OntologyCompiler.Config.Text
import OntologyCompiler.Files.Access

/-!
# Configurations in files

* `Config.find?`: the file that holds the configuration of a directory, its own or the nearest one
  around it, unless another one is named.
* `Config.load`, `Config.save`: a configuration from and to a file.
-/

namespace OntologyCompiler.Config

variable {m : Type → Type} [Monad m] [Files m]

/-- The files that may hold the configuration of a directory, the nearest first. -/
def candidates (directory : String) : List String :=
  (Path.ancestors directory).map fun d => Path.join d fileName

/-- The file that holds the configuration of a directory. -/
def find? (named : Option String) (directory : String) : m (Option String) :=
  match named with
  | some path => return some path
  | none => (candidates directory).findM? Files.isFile

/-- The configuration in a file. -/
def load (path : String) : ExceptT Failure m Config := do
  ExceptT.mk (pure (ofYaml (← Files.readText path)))

/-- Write a configuration to a file. -/
def save (c : Config) (path : String) : ExceptT Failure m WriteOutcome :=
  Files.writeArtifact path c.toYaml

end OntologyCompiler.Config
