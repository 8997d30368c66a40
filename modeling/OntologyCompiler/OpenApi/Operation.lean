import OntologyCompiler.OpenApi.Basic
import OntologyCompiler.Plan
import OntologyCompiler.Schema.Request

/-!
# The operation of an action

* `ActionPlan.operation`: what the document says about a planned action.
* `ActionPlan.schemas`: the schemas that it refers to, by name.
* `operation_security_eq_nil_iff`: an operation asks for authentication exactly when the governance
  of its action does.
-/

namespace OntologyCompiler

namespace OpenApi

/-- The media type of every body. -/
def mediaType : String := "application/json"

/-- The name of the security scheme. -/
def schemeName : String := "bearerAuth"

/-- What can go wrong with any operation. -/
def failureResponses : List (String × Response) :=
  [("400", { description := "Bad request: the parameters are missing or invalid" }),
   ("401", { description := "Unauthorized: authentication is required" }),
   ("403", { description := "Forbidden: the caller lacks the required permission tier" }),
   ("404", { description := "Not found: the target object does not exist" })]

/-- A body whose schema stands among the components. -/
def bodyOf (schema : String) : Ordered String MediaType :=
  [(mediaType, { schema := .ref schema })]

end OpenApi

namespace Governance

/-- The governance in one line. -/
def line (g : Governance) : String :=
  "Governance: permission tier " ++ toString g.tier.toNat ++ ", risk " ++ g.risk.text
    ++ ", human approval " ++ (if g.needsApproval then "required" else "not required")
    ++ ", audit log " ++ (if g.auditLog then "enabled" else "disabled")

end Governance

namespace Action

/-- A titled list of the items that are not blank; none if all are. -/
def bulleted (title : String) (items : List String) : Option String :=
  match items.filterMap Text.nonBlank? with
  | [] => none
  | kept => some (title ++ ":\n" ++ "\n".intercalate (kept.map ("- " ++ ·)))

/-- The parts of the long description: the action's own description, who runs it and when, what
holds before and after it, its side effects, and its governance. -/
def descriptionParts (a : Action) : List String :=
  let business := a.business.getD {}
  let logic := a.logic.getD {}
  [Text.nonBlank? a.description,
   (Text.nonBlank? business.executorRole).map ("Executor: " ++ ·),
   (Text.nonBlank? business.triggerCondition).map ("Trigger: " ++ ·),
   bulleted "Preconditions" logic.preconditions,
   bulleted "Postconditions" logic.postconditions,
   bulleted "Side effects" logic.sideEffects,
   a.governance.map Governance.line].filterMap fun part => part

/-- The long description; none if it has no part. -/
def longDescription (a : Action) : Option String :=
  match a.descriptionParts with
  | [] => none
  | parts => some ("\n\n".intercalate parts)

/-- What a caller has to show. -/
def security (a : Action) : List SecurityRequirement :=
  match a.governance with
  | some g => if g.requiresAuth then [[(OpenApi.schemeName, [])]] else []
  | none => []

end Action

namespace ActionPlan

/-- The request schema, where the method has a body. -/
def bodySchema (p : ActionPlan) : Option Schema :=
  if p.verb.isRead then none else p.action.requestSchema .openApi

/-- The schemas of the operation by name. -/
def schemas (p : ActionPlan) : List (String × Schema) :=
  (p.bodySchema.map fun s => (p.identity.requestSchema, s)).toList
    ++ [(p.identity.responseSchema, p.action.responseSchema)]

/-- The operation of a planned action. -/
def operation (p : ActionPlan) : Operation :=
  let success : Response :=
    { description := "Action completed successfully"
      content := OpenApi.bodyOf p.identity.responseSchema }
  { operationId := p.identity.operationId
    summary := p.action.summary
    description := p.action.longDescription
    tags := if p.object.isEmpty then [] else [p.object]
    parameters := (PathTemplate.params p.path).map fun name =>
      { name := name, place := .path, required := true, schema := .ofType .string }
    requestBody := p.bodySchema.map fun s =>
      { required := !s.required.isEmpty, content := OpenApi.bodyOf p.identity.requestSchema }
    responses := ("200", success) :: OpenApi.failureResponses
    security := p.action.security
    actionKind := p.action.kind.name
    governance := p.action.governance }

theorem operation_security_eq_nil_iff (p : ActionPlan) : p.operation.security = [] ↔
    ∀ g, p.action.governance = some g → g.requiresAuth = false := by
  simp only [operation, Action.security]
  cases h : p.action.governance with
  | none => simp
  | some g => cases hg : g.requiresAuth <;> simp [hg]

end ActionPlan
end OntologyCompiler
