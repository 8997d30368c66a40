import OntologyCompiler.Files.Access
import OntologyCompiler.Json.Text
import OntologyCompiler.Ontology.Read
import OntologyCompiler.Yaml.Shape

/-!
# Ontologies in files

* `Ontology.ofText`: an ontology from a text; the name of its file says in which notation.
* `Ontology.load`: an ontology from a file.
-/

namespace OntologyCompiler.Ontology

/-- Whether a file of this name holds YAML. -/
def isYaml (path : String) : Bool :=
  (Path.extension? path).any fun e => Text.sameLetters e "yaml" || Text.sameLetters e "yml"

/-- The ontology in the text of a file. -/
def ofText (path text : String) : Except Failure Ontology :=
  if isYaml path then (Yaml.readText read text).mapError fun _ => .yaml
  else (Json.readText read text).mapError .json

/-- The ontology in a file. -/
def load {m : Type → Type} [Monad m] [Files m] (path : String) : ExceptT Failure m Ontology := do
  ExceptT.mk (pure (ofText path (← Files.readText path)))

end OntologyCompiler.Ontology
