import OntologyCompiler.Ontology.Read
import OntologyCompiler.Ontology.Write

/-!
# Schemas

A schema describes the shape of a value: its type, its parts, which of them are required. The same
type serves the OpenAPI document and the tools.

* `Schema.read`: schemas nest, and they are read to any depth that their document has.
* `ParameterSchema`: the envelope of arguments, which is always written in full.
-/

namespace OntologyCompiler

/-- The type that a schema asks for. -/
inductive SchemaType where
  | string
  | number
  | integer
  | boolean
  | array
  | object
  deriving DecidableEq, Inhabited

namespace SchemaType

/-- Every type. -/
def all : List SchemaType :=
  [string, number, integer, boolean, array, object]

/-- The written name. -/
def name : SchemaType → String
  | string => "string"
  | number => "number"
  | integer => "integer"
  | boolean => "boolean"
  | array => "array"
  | object => "object"

/-- The types by name. -/
def table : List (String × SchemaType) :=
  all.map fun t => (t.name, t)

/-- Read a type from its name. -/
def read {ν : Type} {m : Type → Type} [Reads m] [Medium ν m] : ν → m SchemaType :=
  Reading.variant table

/-- A type as a value. -/
def toJson (t : SchemaType) : Json :=
  .str t.name

end SchemaType

/-- The shape of a value. -/
structure Schema where
  type : Option SchemaType := none
  format : Option String := none
  description : Option String := none
  /-- A reference to a schema that stands elsewhere. -/
  reference : Option String := none
  properties : List (String × Schema) := []
  required : List String := []
  items : Option Schema := none
  enumValues : List Json := []
  sample : Option Json := none
  deriving Inhabited

namespace Schema

/-- A schema that asks for a type and no more. -/
def ofType (t : SchemaType) : Schema :=
  { type := some t }

/-- The schema of lists of such items. -/
def arrayOf (items : Schema) : Schema :=
  { type := some .array, items := some items }

/-- Where the schemas of a document stand. -/
def componentPath (name : String) : String :=
  "#/components/schemas/" ++ name

/-- A reference to a schema of the document. -/
def ref (name : String) : Schema :=
  { reference := some (componentPath name) }

/-- The schema with a description, unless that is blank. -/
def described (s : Schema) (description : String) : Schema :=
  match Text.nonBlank? description with
  | some d => { s with description := some d }
  | none => s

/-- Whether a property is required. -/
def isRequired (s : Schema) (property : String) : Bool :=
  s.required.contains property

section Read

variable {ν : Type} {m : Type → Type} [Reads m] [Medium ν m]

/-- The fields of a schema, given how the schemas inside it are read. -/
def fields (inner : ν → m Schema) : List (Field ν m Schema) :=
  [.plain "type" (Reading.optional SchemaType.read) fun r v => { r with type := v },
   .plain "format" (Reading.optional Medium.text) fun r v => { r with format := v },
   .plain "description" (Reading.optional Medium.text) fun r v => { r with description := v },
   .plain "$ref" (Reading.optional Medium.text) fun r v => { r with reference := v },
   .plain "properties" (Reading.map inner) fun r v => { r with properties := v },
   .plain "required" (Reading.list Medium.text) fun r v => { r with required := v },
   .plain "items" (Reading.optional inner) fun r v => { r with items := v },
   .plain "enum" (Reading.list Medium.free) fun r v => { r with enumValues := v },
   .plain "example" (Reading.optional Medium.free) fun r v => { r with sample := v }]

/-- Read a schema, with schemas at most `depth` deep inside it. -/
def readWithin : Nat → ν → m Schema
  | 0, _ => throw Fault.malformed
  | depth + 1, node => Record.read "Schema" (fields (readWithin depth)) {} node

/-- Read a schema. -/
def read (node : ν) : m Schema :=
  readWithin (Medium.height node + 1) node

end Read

mutual

/-- A schema as an object. -/
def toJson : Schema → Json
  | ⟨type, format, description, reference, properties, required, items, enumValues, sample⟩ =>
    .record [Json.whenSome "type" type SchemaType.toJson, Json.whenSome "format" format .str,
      Json.whenSome "description" description .str, Json.whenSome "$ref" reference .str,
      if properties.isEmpty then none else some ("properties", .obj (propertiesToJson properties)),
      Json.unlessEmpty "required" required Json.ofStrings,
      itemsToJson items,
      Json.unlessEmpty "enum" enumValues Json.arr,
      Json.whenSome "example" sample id]

/-- The properties as members. -/
def propertiesToJson : List (String × Schema) → List (String × Json)
  | [] => []
  | (name, s) :: rest => (name, toJson s) :: propertiesToJson rest

/-- The schema of the items as a member. -/
def itemsToJson : Option Schema → Option (String × Json)
  | none => none
  | some s => some ("items", toJson s)

end

end Schema

/-- The envelope of the arguments of a tool. -/
structure ParameterSchema where
  properties : Ordered String Schema := []
  required : List String := []
  deriving Inhabited

namespace ParameterSchema

/-- The envelope of what a schema says about properties. -/
def ofSchema (s : Schema) : ParameterSchema :=
  ⟨s.properties, s.required⟩

/-- Whether an argument is required. -/
def isRequired (p : ParameterSchema) (property : String) : Bool :=
  p.required.contains property

/-- The envelope as an object, its empty parts included. -/
def toJson (p : ParameterSchema) : Json :=
  .record [Json.always "type" (SchemaType.object).toJson,
    Json.always "properties" (.obj (Schema.propertiesToJson p.properties)),
    Json.always "required" (.ofStrings p.required)]

end ParameterSchema
end OntologyCompiler
