import OntologyCompiler.Finding
import OntologyCompiler.Policy

/-!
# The configuration of a compilation

* `titleFor`, `versionFor`: title and version of the document, from the configuration, else from the
  ontology, else a default.
* `Config.findings`: what is odd about a configuration.
-/

namespace OntologyCompiler

/-- The configuration of a compilation. -/
structure Config where
  title : Option String := none
  version : Option String := none
  description : Option String := none
  servers : List String := []
  collisions : CollisionPolicy := .overwrite
  /-- Whether an action without a name is a failure. -/
  strict : Bool := false
  deriving DecidableEq, Inhabited

namespace Config

/-- The title where there is none. -/
def defaultTitle : String := "Ontology API"

/-- The version where there is none. -/
def defaultVersion : String := "1.0.0"

/-- Where a project keeps its configuration, below its own directory. -/
def fileName : String := ".ontology/compiler.yaml"

section Read

variable {ν : Type} {m : Type → Type} [Reads m] [Medium ν m]

/-- The fields of a configuration. -/
def fields : List (Field ν m Config) :=
  [.plain "title" (Reading.optional Medium.text) fun r v => { r with title := v },
   .plain "version" (Reading.optional Medium.text) fun r v => { r with version := v },
   .plain "description" (Reading.optional Medium.text) fun r v => { r with description := v },
   .plain "servers" (Reading.list Medium.text) fun r v => { r with servers := v },
   .plain "collisions" CollisionPolicy.read fun r v => { r with collisions := v },
   .plain "strict" Medium.flag fun r v => { r with strict := v }]

/-- Read a configuration. -/
def read : ν → m Config :=
  Record.read "CompilerConfig" fields {}

end Read

/-- A configuration as an object. -/
def toJson (c : Config) : Json :=
  .record [Json.whenSome "title" c.title .str, Json.whenSome "version" c.version .str,
    Json.whenSome "description" c.description .str,
    Json.unlessEmpty "servers" c.servers Json.ofStrings,
    Json.always "collisions" c.collisions.toJson, Json.always "strict" (.bool c.strict)]

/-- The same configuration with another policy. -/
def withPolicy (c : Config) (policy : CollisionPolicy) : Config :=
  { c with collisions := policy }

/-- The value if it is not blank. -/
def unlessBlank (v : Option String) : Option String :=
  v.filter fun s => !Text.isBlankText s

/-- The title of a document. -/
def titleFor (c : Config) (ontology : Option Ontology) : String :=
  match unlessBlank c.title with
  | some title => title
  | none =>
    match unlessBlank (ontology.bind Ontology.name) with
    | some name => Text.strip name ++ " API"
    | none => defaultTitle

/-- The version of a document. -/
def versionFor (c : Config) (ontology : Option Ontology) : String :=
  (unlessBlank (c.version <|> ontology.bind Ontology.version)).getD defaultVersion

/-- Whether an address is absolute or starts at the root. -/
def isUsableServer (server : String) : Bool :=
  ["http://", "https://", "/"].any fun start => start.toList.isPrefixOf server.toList

/-- What is odd about a configuration. -/
def findings (c : Config) : List Finding :=
  (if c.title.any Text.isBlankText then [.blankTitle] else [])
    ++ (if c.version.any Text.isBlankText then [.blankVersion] else [])
    ++ (c.servers.filter fun s => !isUsableServer s).map .oddServer

end Config
end OntologyCompiler
