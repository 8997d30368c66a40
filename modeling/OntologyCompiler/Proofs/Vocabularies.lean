import OntologyCompiler.Proofs.RequestMerge
import OntologyCompiler.Tool.Descriptor

/-!
# Two vocabularies for one request

OpenAPI and plain JSON Schema say the same about the arguments of an action, but for formats and
examples, which only OpenAPI has. Taking these out of every property goes through each step of the
merge: a declared property loses its format, a member of the example body shows nothing, and what a
value gives rise to has neither.

* `mapValues_putAll`, `mapValues_change`: a change of all values goes through writes and changes.
* `requestShape_plain`: the two merges.
* `vocabularies_agree`: the two schemas, and what a tool and an operation make of them.
-/

namespace OntologyCompiler

namespace Ordered

variable {κ α β : Type} [DecidableEq κ]

omit [DecidableEq κ] in
theorem mapValues_mapValues {γ : Type} (f : α → β) (g : β → γ) (m : Ordered κ α) :
    mapValues g (mapValues f m) = mapValues (fun v => g (f v)) m := by
  rw [mapValues, mapValues, List.map_map]
  rfl

theorem mapValues_putAll (f : α → β) (entries : List (κ × α)) (m : Ordered κ α) :
    mapValues f (putAll m entries) = putAll (mapValues f m) (mapValues f entries) := by
  induction entries generalizing m with
  | nil => rfl
  | cons e entries ih =>
    have hcons : mapValues f (e :: entries) = (e.1, f e.2) :: mapValues f entries := rfl
    rw [putAll_cons, ih, hcons, putAll_cons, put_mapValues]

theorem mapValues_change {f : α → β} {g : α → α} {g' : β → β} (h : ∀ v, f (g v) = g' (f v))
    (m : Ordered κ α) (k : κ) (blank : α) :
    mapValues f (change m k blank g) = change (mapValues f m) k (f blank) g' := by
  rw [change, change, ← put_mapValues, h, get?_mapValues]
  cases get? m k <;> rfl

end Ordered

namespace Schema

/-- A property without its format and example. -/
def unrefined (s : Schema) : Schema :=
  { s with format := none, sample := none }

/-- A schema whose properties have lost their formats and examples. -/
def plain (s : Schema) : Schema :=
  { s with properties := Ordered.mapValues unrefined s.properties }

theorem unrefined_ofDeclaration (q : Parameter) :
    (ofDeclaration .openApi q).unrefined = ofDeclaration .jsonSchema q := by
  simp [ofDeclaration_eq, unrefined]

theorem unrefined_infer (value : Json) : (infer value).unrefined = infer value := rfl

theorem unrefined_showing (value : Json) (s : Schema) :
    (showing .openApi value s).unrefined = showing .jsonSchema value s.unrefined := rfl

/-- **Members of the body** show in OpenAPI what is no part of the plain properties. -/
theorem mapValues_showAll (members : Ordered String Json) (properties : Ordered String Schema) :
    Ordered.mapValues unrefined (showAll .openApi properties members) =
      showAll .jsonSchema (Ordered.mapValues unrefined properties) members := by
  unfold showAll
  induction members generalizing properties with
  | nil => rfl
  | cons m members ih =>
    rw [List.foldl_cons, List.foldl_cons, ih,
      Ordered.mapValues_change (unrefined_showing m.2) properties, unrefined_infer]

end Schema

namespace Action

open Schema

/-- **The two merges** differ in the formats and examples of properties. -/
theorem requestShape_plain (a : Action) :
    a.requestShape .jsonSchema = (a.requestShape .openApi).plain := by
  have hdeclared : Ordered.mapValues unrefined
      (Ordered.mapValues (ofDeclaration .openApi) a.declarations) =
        Ordered.mapValues (ofDeclaration .jsonSchema) a.declarations := by
    rw [Ordered.mapValues_mapValues]
    exact congrArg (Ordered.mapValues · a.declarations) (funext unrefined_ofDeclaration)
  have hproperties := mapValues_showAll a.exampleBody
    (Ordered.putAll [] (Ordered.mapValues (ofDeclaration .openApi) a.declarations))
  rw [Ordered.mapValues_putAll, hdeclared] at hproperties
  rw [requestShape_eq, requestShape_eq]
  exact congrArg (object · _) hproperties.symm

theorem requestSchema_plain (a : Action) :
    a.requestSchema .jsonSchema = (a.requestSchema .openApi).map Schema.plain := by
  unfold requestSchema
  dsimp only
  rw [requestShape_plain]
  cases h : (a.requestShape .openApi).properties <;> simp [plain, Ordered.mapValues, h]

end Action

/-! ## Tools and operations -/

/-- The envelope of arguments as a schema of objects. -/
def ParameterSchema.toSchema (p : ParameterSchema) : Schema :=
  .object p.properties p.required

theorem Action.toSchema_arguments {a : Action} {s : Schema}
    (h : a.requestSchema .jsonSchema = some s) : a.arguments.toSchema = s := by
  obtain ⟨-, rfl⟩ := requestSchema_eq_some_iff.mp h
  rw [arguments_of_schema h, requestShape_eq]
  rfl

namespace ActionPlan

/-- **The body of an operation** has a schema where the tool has one, and the method has a body. -/
theorem bodySchema_eq {plan : ActionPlan} (hverb : plan.verb.isRead = false) {s : Schema}
    (hs : plan.action.requestSchema .jsonSchema = some s) :
    plan.bodySchema = some (plan.action.requestShape .openApi) := by
  unfold bodySchema
  rw [hverb]
  exact Action.exists_requestSchema hs

theorem requestBody_of_bodySchema {plan : ActionPlan} {s : Schema} (h : plan.bodySchema = some s) :
    plan.operation.requestBody = some
      { required := !s.required.isEmpty
        content := OpenApi.bodyOf plan.identity.requestSchema } := by
  simp [operation, h]

/-- The schema that the body of an operation refers to stands first among its schemas. -/
theorem get?_schemas_bodySchema {plan : ActionPlan} {s : Schema} (h : plan.bodySchema = some s) :
    Ordered.get? plan.schemas plan.identity.requestSchema = some s := by
  simp [schemas, h, Ordered.get?]

end ActionPlan

/-- **Both vocabularies describe the same arguments.** The plain schema of an action is its OpenAPI
schema without the formats and examples of properties, and there is the one where there is the
other. So a plan with a body has one schema for its tool and its operation: the operation refers to
a schema of its own that without formats and examples is the envelope of the tool. -/
theorem vocabularies_agree :
    (∀ a : Action, a.requestSchema .jsonSchema = (a.requestSchema .openApi).map Schema.plain) ∧
    ∀ plan : ActionPlan, plan.verb.isRead = false → plan.action.requestSchema .jsonSchema ≠ none →
      ∃ body r, plan.operation.requestBody = some body ∧
        body.content = [(OpenApi.mediaType, { schema := .ref plan.identity.requestSchema })] ∧
        Ordered.get? plan.schemas plan.identity.requestSchema = some r ∧
        ∀ toolName, (plan.describe toolName).parameters.toSchema = r.plain := by
  refine ⟨Action.requestSchema_plain, fun plan hverb hsome => ?_⟩
  obtain ⟨s, hs⟩ := Option.ne_none_iff_exists'.mp hsome
  have hbody := ActionPlan.bodySchema_eq hverb hs
  refine ⟨_, _, ActionPlan.requestBody_of_bodySchema hbody, rfl,
    ActionPlan.get?_schemas_bodySchema hbody, fun _ => ?_⟩
  obtain ⟨-, rfl⟩ := Action.requestSchema_eq_some_iff.mp hs
  exact (Action.toSchema_arguments hs).trans plan.action.requestShape_plain

/-- A refund of an order, planned by itself. -/
def ActionPlan.refund : ActionPlan :=
  ⟨.refund, "Order", "Order.Refund", ⟨"refund", "Refund"⟩, "/api/orders/\x7bid\x7d/refund", .post⟩

/-- The amount has a format and an example in the operation, and neither in the tool. -/
theorem vocabularies_agree_refund : ActionPlan.refund.verb.isRead = false ∧
    Action.refund.requestSchema .jsonSchema ≠ none ∧
    ∃ r, Ordered.get? ActionPlan.refund.schemas "RefundRequest" = some r ∧
      (ActionPlan.refund.describe "refund").parameters.toSchema = r.plain ∧
      ((Ordered.get? r.properties "amount").map fun s => (s.format, s.sample.isSome)) =
        some (some "double", true) ∧
      ((Ordered.get? r.plain.properties "amount").map fun s => (s.format, s.sample.isSome)) =
        some (none, false) := by
  have hsome : Action.refund.requestSchema .jsonSchema ≠ none :=
    Option.isSome_iff_ne_none.mp (by decide +kernel)
  obtain ⟨-, hplan⟩ := vocabularies_agree
  obtain ⟨body, r, -, -, hr, hsame⟩ := hplan .refund rfl hsome
  have hname : ActionPlan.refund.identity.requestSchema = "RefundRequest" := by decide
  have hamount : ((Ordered.get? ActionPlan.refund.schemas "RefundRequest").bind fun r =>
      Ordered.get? r.properties "amount").map (fun s => (s.format, s.sample.isSome)) =
        some (some "double", true) := by decide +kernel
  rw [hname] at hr
  rw [hr, Option.bind_some] at hamount
  refine ⟨rfl, hsome, r, hr, hsame _, hamount, ?_⟩
  obtain ⟨s, hs, -⟩ := Option.map_eq_some_iff.mp hamount
  show (Ordered.get? (Ordered.mapValues _ r.properties) "amount").map _ = _
  rw [Ordered.get?_mapValues, hs]
  rfl

end OntologyCompiler
