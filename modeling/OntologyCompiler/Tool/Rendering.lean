import OntologyCompiler.Tool.Descriptor

/-!
# Tools in a dialect

A rendering is a tool in the shape of one dialect. Two shapes have a place for governance; in the
others a governance that matters is reported as lost.

* `RenderedTool.name_render`, `description_render`, `parameters_render`: every dialect shows the
  same name, description and arguments.
-/

namespace OntologyCompiler

/-- The governance of a tool as a runtime sees it. -/
structure GovernanceMetadata where
  tier : UInt8
  needsApproval : Bool
  risk : RiskLevel
  auditLog : Bool

namespace GovernanceMetadata

/-- The metadata of a governance record. -/
def ofGovernance (g : Governance) : GovernanceMetadata :=
  ⟨g.tier, g.needsApproval, g.risk, g.auditLog⟩

/-- The metadata as members. -/
def members (m : GovernanceMetadata) : List (String × Json) :=
  [("permission_tier", .ofByte m.tier), ("requires_human_approval", .bool m.needsApproval),
   ("risk_level", m.risk.toJson), ("audit_log", .bool m.auditLog)]

/-- The metadata as an object. -/
def toJson (m : GovernanceMetadata) : Json :=
  .obj m.members

end GovernanceMetadata

/-- A tool in the shape of one dialect. -/
inductive RenderedTool where
  | openAi (name description : String) (parameters : ParameterSchema)
  | langChain (name description : String) (parameters : ParameterSchema)
    (governance : Option GovernanceMetadata)
  | claude (name description : String) (parameters : ParameterSchema)
  | mcp (name description : String) (parameters : ParameterSchema) (returns : Schema)
  | universal (name description : String) (parameters : ParameterSchema) (returns : Schema)
    (object : String) (kind : ActionKind) (http : HttpBinding)
    (governance : Option GovernanceMetadata)

namespace RenderedTool

/-- The name that is shown. -/
def name : RenderedTool → String
  | openAi n .. => n
  | langChain n .. => n
  | claude n .. => n
  | mcp n .. => n
  | universal n .. => n

/-- The description that is shown. -/
def description : RenderedTool → String
  | openAi _ d .. => d
  | langChain _ d .. => d
  | claude _ d .. => d
  | mcp _ d .. => d
  | universal _ d .. => d

/-- The arguments that are shown. -/
def parameters : RenderedTool → ParameterSchema
  | openAi _ _ p => p
  | langChain _ _ p .. => p
  | claude _ _ p => p
  | mcp _ _ p .. => p
  | universal _ _ p .. => p

open Json (always whenSome record)

/-- The tool as an object in the shape of its dialect. -/
def toJson : RenderedTool → Json
  | openAi n d p =>
    record [always "type" (.str "function"),
      always "function" (record [always "name" (.str n), always "description" (.str d),
        always "parameters" p.toJson])]
  | langChain n d p g =>
    record [always "name" (.str n), always "description" (.str d), always "args_schema" p.toJson,
      whenSome "metadata" g GovernanceMetadata.toJson]
  | claude n d p =>
    record [always "name" (.str n), always "description" (.str d), always "input_schema" p.toJson]
  | mcp n d p r =>
    record [always "name" (.str n), always "description" (.str d), always "inputSchema" p.toJson,
      always "outputSchema" r.toJson]
  | universal n d p r object kind http g =>
    let metadata : Json :=
      .obj ([("object", .str object), ("action_kind", kind.toJson), ("http", http.toJson)]
        ++ (g.map GovernanceMetadata.members).getD [])
    record [always "name" (.str n), always "description" (.str d), always "parameters" p.toJson,
      always "returns" r.toJson, always "metadata" metadata]

end RenderedTool

namespace Tool

/-- The governance as metadata. -/
def metadata (t : Tool) : Option GovernanceMetadata :=
  t.governance.map .ofGovernance

/-- The tool in a dialect. -/
def render (t : Tool) : Dialect → RenderedTool
  | .openAi => .openAi t.name t.description t.parameters
  | .langChain => .langChain t.name t.description t.parameters t.metadata
  | .claude => .claude t.name t.description t.parameters
  | .mcp => .mcp t.name t.description t.parameters t.returns
  | .universal =>
    .universal t.name t.description t.parameters t.returns t.object t.kind t.http t.metadata

theorem name_render (t : Tool) (d : Dialect) : (t.render d).name = t.name := by
  cases d <;> rfl

theorem description_render (t : Tool) (d : Dialect) : (t.render d).description = t.description := by
  cases d <;> rfl

theorem parameters_render (t : Tool) (d : Dialect) : (t.render d).parameters = t.parameters := by
  cases d <;> rfl

/-- What a dialect loses of the governance of a tool. -/
def loss (t : Tool) (d : Dialect) : List Finding :=
  match t.governance with
  | none => []
  | some g =>
    if d.carriesGovernance || !g.isSignificant then []
    else [.governanceDropped d t.name g.tier g.risk]

end Tool

/-- The tools of a scope in a dialect. -/
def emit (config : Config) (scope : Scope) (dialect : Dialect) :
    Except Failure (Compiled (List RenderedTool)) := do
  let compiled ← descriptors config scope
  return ⟨compiled.output.map (·.render dialect),
    compiled.findings ++ compiled.output.flatMap (·.loss dialect)⟩

end OntologyCompiler
