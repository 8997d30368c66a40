import OntologyCompiler.Config
import OntologyCompiler.Failure
import OntologyCompiler.Yaml.Shape
import OntologyCompiler.Yaml.Spelling

/-!
# Configurations as YAML

* `Config.ofYaml`: the configuration in a text.
* `Config.toYaml`: a configuration as a text; what is not set is not written.
-/

namespace OntologyCompiler.Config

/-- The configuration in a text. -/
def ofYaml (text : String) : Except Failure Config :=
  (Yaml.readText Config.read text).mapError fun _ => .yaml

/-- The lines of a setting. -/
def settingLines (name : String) (value : String) : List Char :=
  Yaml.Spelling.entry (name.toList ++ [':', ' ']) value.toList

/-- The lines of a setting that may be missing. -/
def optionLines (name : String) (value : Option String) : List Char :=
  (value.map (settingLines name)).getD []

/-- The lines of the servers. -/
def serverLines (servers : List String) : List Char :=
  if servers.isEmpty then []
  else
    "servers:\n".toList ++ servers.flatMap fun s => Yaml.Spelling.entry ['-', ' '] s.toList

/-- A configuration as a text. -/
def toYaml (c : Config) : String :=
  String.ofList (optionLines "title" c.title ++ optionLines "version" c.version
    ++ optionLines "description" c.description ++ serverLines c.servers
    ++ settingLines "collisions" c.collisions.name
    ++ "strict: ".toList ++ (if c.strict then "true\n" else "false\n").toList)

end OntologyCompiler.Config
