import OntologyCompiler.Schema.Basic

/-!
# OpenAPI documents

The parts of a document as far as they are written here, how they are read, and how they are written
as JSON. Paths, the operations of a path, responses and schemas keep their order.

* `OpenApi.read`, `OpenApi.toJson`: a document from a medium, and a document as an object.
-/

namespace OntologyCompiler

open Json (always whenSome unlessEmpty)

/-- What a document says about itself. -/
structure Info where
  title : String := ""
  version : String := ""
  description : Option String := none
  deriving Inhabited

/-- The address of a server. -/
structure Server where
  url : String := ""
  deriving Inhabited

/-- Where a parameter of an operation stands. -/
inductive ParameterPlace where
  | path
  | query
  | header
  deriving DecidableEq, Inhabited

/-- A parameter of an operation. -/
structure OperationParameter where
  name : String := ""
  place : ParameterPlace := .path
  required : Bool := false
  schema : Schema := {}
  deriving Inhabited

/-- A body in one media type. -/
structure MediaType where
  schema : Schema := {}
  deriving Inhabited

/-- The body of a request. -/
structure RequestBody where
  required : Bool := false
  content : Ordered String MediaType := []
  deriving Inhabited

/-- A response. -/
structure Response where
  description : String := ""
  content : Ordered String MediaType := []
  deriving Inhabited

/-- A scheme of security with the scopes it needs. -/
abbrev SecurityRequirement := Ordered String (List String)

/-- An operation. -/
structure Operation where
  operationId : String := ""
  summary : String := ""
  description : Option String := none
  tags : List String := []
  parameters : List OperationParameter := []
  requestBody : Option RequestBody := none
  responses : Ordered String Response := []
  security : List SecurityRequirement := []
  actionKind : String := ""
  governance : Option Governance := none
  deriving Inhabited

/-- The operations at one path, by method in lower case. -/
abbrev PathItem := Ordered String Operation

/-- A way of authenticating callers. -/
structure SecurityScheme where
  type : String := ""
  scheme : String := ""
  bearerFormat : Option String := none
  deriving Inhabited

/-- What the operations refer to. -/
structure Components where
  schemas : Ordered String Schema := []
  securitySchemes : Ordered String SecurityScheme := []
  deriving Inhabited

/-- An OpenAPI document. -/
structure OpenApi where
  openapi : String := ""
  info : Info := {}
  servers : List Server := []
  paths : Ordered String PathItem := []
  components : Components := {}
  deriving Inhabited

/-! ## Reading -/

section Read

variable {ν : Type} {m : Type → Type} [Reads m] [Medium ν m]

/-- The fields of an info block. -/
def Info.fields : List (Field ν m Info) :=
  [.must "title" Medium.text fun r v => { r with title := v },
   .must "version" Medium.text fun r v => { r with version := v },
   .plain "description" (Reading.optional Medium.text) fun r v => { r with description := v }]

/-- Read an info block. -/
def Info.read : ν → m Info :=
  Record.read "Info" fields {}

/-- The fields of a server. -/
def Server.fields : List (Field ν m Server) :=
  [.must "url" Medium.text fun r v => { r with url := v }]

/-- Read a server. -/
def Server.read : ν → m Server :=
  Record.read "Server" fields {}

/-- The written name of a place. -/
def ParameterPlace.name : ParameterPlace → String
  | path => "path"
  | query => "query"
  | header => "header"

/-- The places by name. -/
def ParameterPlace.table : List (String × ParameterPlace) :=
  [path, query, header].map fun p => (p.name, p)

/-- Read a place from its name. -/
def ParameterPlace.read : ν → m ParameterPlace :=
  Reading.variant table

/-- The fields of a parameter of an operation. -/
def OperationParameter.fields : List (Field ν m OperationParameter) :=
  [.must "name" Medium.text fun r v => { r with name := v },
   .must "in" ParameterPlace.read fun r v => { r with place := v },
   .must "required" Medium.flag fun r v => { r with required := v },
   .must "schema" Schema.read fun r v => { r with schema := v }]

/-- Read a parameter of an operation. -/
def OperationParameter.read : ν → m OperationParameter :=
  Record.read "Parameter" fields {}

/-- The fields of a body in one media type. -/
def MediaType.fields : List (Field ν m MediaType) :=
  [.must "schema" Schema.read fun r v => { r with schema := v }]

/-- Read a body in one media type. -/
def MediaType.read : ν → m MediaType :=
  Record.read "MediaType" fields {}

/-- The fields of the body of a request. -/
def RequestBody.fields : List (Field ν m RequestBody) :=
  [.must "required" Medium.flag fun r v => { r with required := v },
   .must "content" (Reading.map MediaType.read) fun r v => { r with content := v }]

/-- Read the body of a request. -/
def RequestBody.read : ν → m RequestBody :=
  Record.read "RequestBody" fields {}

/-- The fields of a response. -/
def Response.fields : List (Field ν m Response) :=
  [.must "description" Medium.text fun r v => { r with description := v },
   .plain "content" (Reading.map MediaType.read) fun r v => { r with content := v }]

/-- Read a response. -/
def Response.read : ν → m Response :=
  Record.read "Response" fields {}

/-- The fields of an operation. -/
def Operation.fields : List (Field ν m Operation) :=
  [.must "operationId" Medium.text fun r v => { r with operationId := v },
   .must "summary" Medium.text fun r v => { r with summary := v },
   .plain "description" (Reading.optional Medium.text) fun r v => { r with description := v },
   .plain "tags" (Reading.list Medium.text) fun r v => { r with tags := v },
   .plain "parameters" (Reading.list OperationParameter.read)
    fun r v => { r with parameters := v },
   .plain "requestBody" (Reading.optional RequestBody.read) fun r v => { r with requestBody := v },
   .must "responses" (Reading.map Response.read) fun r v => { r with responses := v },
   .plain "security" (Reading.list (Reading.map (Reading.list Medium.text)))
    fun r v => { r with security := v },
   .must "x-action-kind" Medium.text fun r v => { r with actionKind := v },
   .plain "x-governance" (Reading.optional Governance.read) fun r v => { r with governance := v }]

/-- Read an operation. -/
def Operation.read : ν → m Operation :=
  Record.read "Operation" fields {}

/-- The fields of a security scheme. -/
def SecurityScheme.fields : List (Field ν m SecurityScheme) :=
  [.must "type" Medium.text fun r v => { r with type := v },
   .must "scheme" Medium.text fun r v => { r with scheme := v },
   .plain "bearerFormat" (Reading.optional Medium.text) fun r v => { r with bearerFormat := v }]

/-- Read a security scheme. -/
def SecurityScheme.read : ν → m SecurityScheme :=
  Record.read "SecurityScheme" fields {}

/-- The fields of the components. -/
def Components.fields : List (Field ν m Components) :=
  [.plain "schemas" (Reading.map Schema.read) fun r v => { r with schemas := v },
   .plain "securitySchemes" (Reading.map SecurityScheme.read)
    fun r v => { r with securitySchemes := v }]

/-- Read the components. -/
def Components.read : ν → m Components :=
  Record.read "Components" fields {}

/-- The fields of a document. -/
def OpenApi.fields : List (Field ν m OpenApi) :=
  [.must "openapi" Medium.text fun r v => { r with openapi := v },
   .must "info" Info.read fun r v => { r with info := v },
   .plain "servers" (Reading.list Server.read) fun r v => { r with servers := v },
   .must "paths" (Reading.map (Reading.map Operation.read)) fun r v => { r with paths := v },
   .plain "components" Components.read fun r v => { r with components := v }]

/-- Read a document. -/
def OpenApi.read : ν → m OpenApi :=
  Record.read "OpenApi" fields {}

end Read

/-! ## Writing -/

/-- A map as an object. -/
def Ordered.toJson {α : Type} (f : α → Json) (m : Ordered String α) : Json :=
  .obj (m.map fun e => (e.1, f e.2))

/-- An info block as an object. -/
def Info.toJson (i : Info) : Json :=
  .record [always "title" (.str i.title), always "version" (.str i.version),
    whenSome "description" i.description .str]

/-- A server as an object. -/
def Server.toJson (s : Server) : Json :=
  .record [always "url" (.str s.url)]

/-- A parameter of an operation as an object. -/
def OperationParameter.toJson (p : OperationParameter) : Json :=
  .record [always "name" (.str p.name), always "in" (.str p.place.name),
    always "required" (.bool p.required), always "schema" p.schema.toJson]

/-- A body in one media type as an object. -/
def MediaType.toJson (m : MediaType) : Json :=
  .record [always "schema" m.schema.toJson]

/-- The body of a request as an object. -/
def RequestBody.toJson (b : RequestBody) : Json :=
  .record [always "required" (.bool b.required),
    always "content" (Ordered.toJson MediaType.toJson b.content)]

/-- A response as an object. -/
def Response.toJson (r : Response) : Json :=
  .record [always "description" (.str r.description),
    unlessEmpty "content" r.content (Ordered.toJson MediaType.toJson)]

/-- A security requirement as an object. -/
def SecurityRequirement.toJson (r : SecurityRequirement) : Json :=
  Ordered.toJson Json.ofStrings r

/-- An operation as an object. -/
def Operation.toJson (o : Operation) : Json :=
  .record [always "operationId" (.str o.operationId), always "summary" (.str o.summary),
    whenSome "description" o.description .str, unlessEmpty "tags" o.tags .ofStrings,
    unlessEmpty "parameters" o.parameters fun ps => .arr (ps.map OperationParameter.toJson),
    whenSome "requestBody" o.requestBody RequestBody.toJson,
    always "responses" (Ordered.toJson Response.toJson o.responses),
    unlessEmpty "security" o.security fun rs => .arr (rs.map SecurityRequirement.toJson),
    always "x-action-kind" (.str o.actionKind),
    whenSome "x-governance" o.governance Governance.toJson]

/-- A security scheme as an object. -/
def SecurityScheme.toJson (s : SecurityScheme) : Json :=
  .record [always "type" (.str s.type), always "scheme" (.str s.scheme),
    whenSome "bearerFormat" s.bearerFormat .str]

/-- The components as an object. -/
def Components.toJson (c : Components) : Json :=
  .record [always "schemas" (Ordered.toJson Schema.toJson c.schemas),
    unlessEmpty "securitySchemes" c.securitySchemes (Ordered.toJson SecurityScheme.toJson)]

/-- A document as an object. -/
def OpenApi.toJson (d : OpenApi) : Json :=
  .record [always "openapi" (.str d.openapi), always "info" d.info.toJson,
    unlessEmpty "servers" d.servers fun ss => .arr (ss.map Server.toJson),
    always "paths" (Ordered.toJson (Ordered.toJson Operation.toJson) d.paths),
    always "components" d.components.toJson]

end OntologyCompiler
