import OntologyCompiler.Json.Text
import OntologyCompiler.Ontology.Vocabulary

/-!
# Actions

An action is described in layers: what it means to the business, its parameters and conditions, how
it is called, and how it is governed. This module holds the layers and what is looked up in them.
-/

namespace OntologyCompiler

/-- A declared parameter. -/
structure Parameter where
  name : String := ""
  kind : ParameterKind := .string
  required : Bool := false
  description : String := ""
  deriving Inhabited

/-- What an action means to the business. -/
structure BusinessLayer where
  description : String := ""
  targetObject : String := ""
  executorRole : String := ""
  triggerCondition : String := ""
  deriving Inhabited

/-- The parameters of an action and the conditions around it. -/
structure LogicLayer where
  preconditions : List String := []
  parameters : List Parameter := []
  postconditions : List String := []
  sideEffects : List String := []
  deriving Inhabited

/-- How an action presents itself as a tool of an agent. -/
structure ToolSpec where
  name : String := ""
  description : String := ""
  /-- An authored schema, used when no parameter can be derived. -/
  parameters : Option Json := none
  deriving Inhabited

/-- How an action is called. -/
structure ImplementationLayer where
  endpoint : Option String := none
  method : Option String := none
  /-- An example of the request body, as an object or as the JSON text of one. -/
  payload : Option Json := none
  tool : Option ToolSpec := none
  deriving Inhabited

/-- Who may run an action, and under which controls. -/
structure Governance where
  tier : UInt8 := 1
  needsApproval : Bool := false
  auditLog : Bool := false
  risk : RiskLevel := .low
  deriving DecidableEq, Inhabited

/-- An action of an object. -/
structure Action where
  id : Option String := none
  name : String := ""
  kind : ActionKind := .traditional
  description : String := ""
  business : Option BusinessLayer := none
  logic : Option LogicLayer := none
  implementation : Option ImplementationLayer := none
  governance : Option Governance := none
  deriving Inhabited

namespace ImplementationLayer

/-- The example body as an object, if it is one or the text of one. -/
def examplePayload (layer : ImplementationLayer) : Option (Ordered String Json) :=
  match layer.payload with
  | some (.obj members) => some members
  | some (.str text) =>
    match Json.ofText? text with
    | some (.obj members) => some members
    | _ => none
  | _ => none

end ImplementationLayer

namespace Governance

/-- From the second tier on, callers have to be authenticated. -/
def requiresAuth (g : Governance) : Bool :=
  2 ≤ g.tier

/-- Whether losing the governance would hide a control that matters. -/
def isSignificant (g : Governance) : Bool :=
  g.requiresAuth || g.needsApproval

end Governance

namespace Action

/-- An action with a name and nothing else. -/
def named (name : String) : Action :=
  { name := name }

/-- The description for the business, else the action's own, else its name. -/
def summary (a : Action) : String :=
  match a.business.bind fun b => Text.nonBlank? b.description with
  | some d => d
  | none => (Text.nonBlank? a.description).getD (Text.strip a.name)

/-- The declared parameters. -/
def parameters (a : Action) : List Parameter :=
  (a.logic.map LogicLayer.parameters).getD []

/-- What holds after the action. -/
def postconditions (a : Action) : List String :=
  (a.logic.map LogicLayer.postconditions).getD []

/-- The authored path, if it is not blank. -/
def explicitPath (a : Action) : Option String :=
  (a.implementation.bind ImplementationLayer.endpoint).bind Text.nonBlank?

/-- The authored method, if it is not blank. -/
def explicitMethod (a : Action) : Option String :=
  (a.implementation.bind ImplementationLayer.method).bind Text.nonBlank?

/-- The authored tool. -/
def tool (a : Action) : Option ToolSpec :=
  a.implementation.bind ImplementationLayer.tool

/-- The example body as an object. -/
def examplePayload (a : Action) : Option (Ordered String Json) :=
  a.implementation.bind ImplementationLayer.examplePayload

end Action
end OntologyCompiler
