import OntologyCompiler.Schema.Basic

/-!
# Schemas of requests and responses

The request schema of an action merges its declared parameters with the members of its example body.
Parameters come first, each under its stripped name; where a name is declared twice the later
declaration replaces the earlier one in its place, and the name is required as soon as one of them
says so. Members of the example that are not declared follow, with a type inferred from their value.

There are two vocabularies: OpenAPI refines types with formats and shows examples, plain JSON Schema
does neither.

* `requestSchema_eq_none_iff`: there is a schema as soon as there is a property.
-/

namespace OntologyCompiler

/-- What a schema may say about a value. -/
inductive Vocabulary where
  | openApi
  | jsonSchema
  deriving DecidableEq

namespace ParameterKind

/-- The type of a kind; what is not known is a string. -/
def schemaType : ParameterKind → SchemaType
  | string => .string
  | number => .number
  | boolean => .boolean
  | date => .string
  | object => .object
  | array => .array
  | other => .string

/-- The format that refines the type of a kind. -/
def format : ParameterKind → Option String
  | number => some "double"
  | date => some "date-time"
  | _ => none

end ParameterKind

namespace Schema

/-- The schema of a declared kind. -/
def ofKind (kind : ParameterKind) (vocabulary : Vocabulary) : Schema :=
  { type := some kind.schemaType
    format := if vocabulary = .openApi then kind.format else none }

/-- The type of a value. -/
def inferredType : Json → SchemaType
  | .num _ => .number
  | .bool _ => .boolean
  | .obj _ => .object
  | .arr _ => .array
  | .str _ => .string
  | .null => .string

/-- The schema that an example alone gives rise to. -/
def infer (value : Json) : Schema :=
  ofType (inferredType value)

/-- Add a declared parameter; one without a name is passed over. -/
def addParameter (vocabulary : Vocabulary) (s : Schema) (p : Parameter) : Schema :=
  match Text.nonBlank? p.name with
  | none => s
  | some name =>
    { s with
      properties :=
        Ordered.put s.properties name ((ofKind p.kind vocabulary).described p.description)
      required := if p.required && !s.isRequired name then s.required ++ [name] else s.required }

/-- Add a member of the example body. -/
def addExample (vocabulary : Vocabulary) (s : Schema) (member : String × Json) : Schema :=
  let shown (property : Schema) : Schema :=
    if vocabulary = .openApi then { property with sample := some member.2 } else property
  { s with properties := Ordered.change s.properties member.1 (infer member.2) shown }

end Schema

namespace Action

/-- The merge of parameters and example, also where it has no property. -/
def requestShape (a : Action) (vocabulary : Vocabulary) : Schema :=
  (a.examplePayload.getD []).foldl (Schema.addExample vocabulary)
    (a.parameters.foldl (Schema.addParameter vocabulary) (.ofType .object))

/-- The schema of requests; none if there is no property. -/
def requestSchema (a : Action) (vocabulary : Vocabulary) : Option Schema :=
  let s := a.requestShape vocabulary
  if s.properties.isEmpty then none else some s

theorem requestSchema_eq_none_iff (a : Action) (vocabulary : Vocabulary) :
    a.requestSchema vocabulary = none ↔ (a.requestShape vocabulary).properties = [] := by
  simp [requestSchema]

/-- The schema of responses: success, a message and, where something holds afterwards, what has
changed. -/
def responseSchema (a : Action) : Schema :=
  let changes : Schema :=
    { Schema.arrayOf (.ofType .string) with sample := some (.ofStrings a.postconditions) }
  { type := some .object
    properties := [("success", .ofType .boolean), ("message", .ofType .string)]
      ++ if a.postconditions.isEmpty then [] else [("changes", changes)] }

end Action
end OntologyCompiler
