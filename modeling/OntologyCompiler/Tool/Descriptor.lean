import OntologyCompiler.OpenApi.Operation

/-!
# Tool descriptors

Every action is described once as a tool, apart from any dialect. The arguments come from the
request schema of the action; where there is none, an authored schema with properties stands in.

* `descriptors`: the tools of a scope, each planned action claiming its tool name in turn.
* `ActionPlan.arguments_of_schema`: a derived schema comes before an authored one.
-/

namespace OntologyCompiler

/-- Where a tool is served. -/
structure HttpBinding where
  verb : Verb
  path : String
  deriving DecidableEq, Inhabited

/-- An action as a tool. -/
structure Tool where
  name : String
  description : String
  parameters : ParameterSchema
  returns : Schema
  object : String
  kind : ActionKind
  http : HttpBinding
  governance : Option Governance
  deriving Inhabited

namespace HttpBinding

/-- A binding as an object. -/
def toJson (b : HttpBinding) : Json :=
  .record [Json.always "method" b.verb.toJson, Json.always "path" (.str b.path)]

end HttpBinding

namespace Tool

/-- A tool as an object. -/
def toJson (t : Tool) : Json :=
  .record [Json.always "name" (.str t.name), Json.always "description" (.str t.description),
    Json.always "parameters" t.parameters.toJson, Json.always "returns" t.returns.toJson,
    Json.always "object" (.str t.object), Json.always "action_kind" t.kind.toJson,
    Json.always "http" t.http.toJson, Json.whenSome "governance" t.governance Governance.toJson]

end Tool

namespace Action

/-- The authored schema of the arguments, if it is a schema with properties. -/
def authoredArguments (a : Action) : Option ParameterSchema := do
  let spec ← a.tool
  let value ← spec.parameters
  let schema ← (Schema.read value).toOption
  if schema.properties.isEmpty then none else some (.ofSchema schema)

/-- The arguments of the action as a tool. -/
def arguments (a : Action) : ParameterSchema :=
  match a.requestSchema .jsonSchema with
  | some s => .ofSchema s
  | none => a.authoredArguments.getD {}

/-- What the tool says about itself. -/
def toolDescription (a : Action) : String :=
  (a.tool.bind fun t => Text.nonBlank? t.description).getD a.summary

theorem arguments_of_schema {a : Action} {s : Schema} (h : a.requestSchema .jsonSchema = some s) :
    a.arguments = .ofSchema s := by
  simp [arguments, h]

end Action

namespace ActionPlan

/-- The name that the tool asks for: the authored one, or else its operation identifier. -/
def toolName (p : ActionPlan) : String :=
  (p.action.tool.bind fun t => Text.nonBlank? t.name).getD p.identity.operationId

/-- The tool of a planned action under a name. -/
def describe (p : ActionPlan) (name : String) : Tool :=
  { name := name
    description := p.action.toolDescription
    parameters := p.action.arguments
    returns := p.action.responseSchema
    object := p.object
    kind := p.action.kind
    http := ⟨p.verb, p.path⟩
    governance := p.action.governance }

end ActionPlan

namespace Planner

/-- Plan an action and claim the name of its tool. -/
def planTool (p : Planner) (object : String) (a : Action) : Except Failure (Tool × Planner) :=
  match p.plan object a with
  | (.error e, _) => .error e
  | (.ok plan, p) => do
    let (claim, registry) ← p.registry.claimName plan.label plan.toolName
    return (plan.describe claim.value, { p with registry := registry }.report claim.finding.toList)

/-- Plan the tools of actions one after the other. -/
def planTools : Planner → List (String × Action) → Except Failure (List Tool × Planner)
  | p, [] => .ok ([], p)
  | p, (object, a) :: rest => do
    let (tool, p) ← p.planTool object a
    let (tools, p) ← planTools p rest
    return (tool :: tools, p)

end Planner

/-- The tools of a scope. -/
def descriptors (config : Config) (scope : Scope) : Except Failure (Compiled (List Tool)) := do
  let (tools, planner) ← (Planner.new config).planTools scope.actions
  return ⟨tools, planner.findings⟩

end OntologyCompiler
