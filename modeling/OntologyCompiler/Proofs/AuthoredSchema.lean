import OntologyCompiler.Proofs.Requiredness
import OntologyCompiler.Proofs.SchemaShape

/-!
# Authored schemas of arguments

Where nothing can be derived for the arguments of an action, an authored schema stands in: the tool
has its properties in their order, and they are required as it says. A value that has not the shape
of a schema at every depth is passed over as if it were not there; what a compilation finds does not
depend on it.

* `Action.Authors`: an action that depends on its authored schema.
* `Action.keeps_arguments`, `Action.arguments_of_not_isSchema`: what becomes of the schema.
* `descriptors_findings_eq`: authored schemas have no part in what is found.
* `authored_schema_settled`: the tools of a scope.
-/

namespace OntologyCompiler

/-- The envelope shows an authored schema: its properties in their order, and the required ones. -/
structure ParameterSchema.Keeps (p : ParameterSchema) (members props : List (String × Json)) :
    Prop where
  keys : Ordered.keys p.properties = Ordered.keys props
  required : Json.ofStrings p.required = (Ordered.get? members "required").getD (.arr [])

namespace Action

/-- An action for which no property can be derived, with an authored object as the schema of its
arguments; the object has properties. -/
structure Authors (a : Action) (members props : List (String × Json)) : Prop where
  underived : a.requestSchema .jsonSchema = none
  parameters : a.tool.bind ToolSpec.parameters = some (.obj members)
  properties : Ordered.get? members "properties" = some (.obj props)
  distinct : (Ordered.keys props).Nodup
  nonempty : props ≠ []

theorem arguments_of_none {a : Action} (h : a.requestSchema .jsonSchema = none) :
    a.arguments = a.authoredArguments.getD {} := by
  simp [arguments, h]

variable {a : Action} {members props : List (String × Json)}

/-- The authored value counts if it can be read as a schema with properties. -/
theorem Authors.authoredArguments_eq (h : a.Authors members props) : a.authoredArguments =
    (Schema.read (Json.obj members) : Except Fault Schema).toOption.bind fun s =>
      if s.properties.isEmpty then none else some (.ofSchema s) := by
  obtain ⟨spec, hspec, hparameters⟩ := Option.bind_eq_some_iff.mp h.parameters
  unfold authoredArguments
  rw [hspec]
  change spec.parameters.bind _ = _
  rw [hparameters]
  rfl

/-- **A schema stands in** for what cannot be derived. -/
theorem keeps_arguments (h : a.Authors members props) (hs : (Json.obj members).IsSchema) :
    a.arguments.Keeps members props := by
  obtain ⟨s, hread⟩ := Schema.readable_iff.mpr hs
  have hkeys := Schema.keys_properties hread h.properties h.distinct
  have hne : s.properties ≠ [] := fun hnil => h.nonempty <| by
    rw [hnil] at hkeys
    exact List.map_eq_nil_iff.mp hkeys.symm
  have harguments : a.arguments = .ofSchema s := by
    rw [arguments_of_none h.underived, h.authoredArguments_eq, hread]
    simp [Except.toOption, hne]
  rw [harguments]
  exact ⟨hkeys, Schema.ofStrings_required hread⟩

/-- **A value of another shape is passed over.** -/
theorem arguments_of_not_isSchema (h : a.Authors members props)
    (hs : ¬ (Json.obj members).IsSchema) : a.arguments = {} := by
  rw [arguments_of_none h.underived, h.authoredArguments_eq]
  cases hread : (Schema.read (Json.obj members) : Except Fault Schema) with
  | error e => rfl
  | ok s => exact absurd (Schema.readable_iff.mp ⟨s, hread⟩) hs

/-! ## What is found -/

/-- The action without an authored schema. -/
def unauthored (a : Action) : Action :=
  { a with implementation := a.implementation.map fun l =>
      { l with tool := l.tool.map fun t => { t with parameters := none } } }

theorem pathIn_unauthored (a : Action) (object : String) :
    a.unauthored.pathIn object = a.pathIn object := by
  obtain ⟨_, _, _, _, _, _, l, _⟩ := a
  cases l <;> rfl

theorem explicitMethod_unauthored (a : Action) :
    a.unauthored.explicitMethod = a.explicitMethod := by
  obtain ⟨_, _, _, _, _, _, l, _⟩ := a
  cases l <;> rfl

theorem verb_unauthored (a : Action) : a.unauthored.verb = a.verb := by
  rw [verb, explicitMethod_unauthored, verb]

theorem verbFinding_unauthored (a : Action) (label : String) :
    a.unauthored.verbFinding label = a.verbFinding label := by
  rw [verbFinding, explicitMethod_unauthored, verbFinding]

theorem authoredToolName_unauthored (a : Action) :
    a.unauthored.authoredToolName = a.authoredToolName := by
  obtain ⟨_, _, _, _, _, _, l, _⟩ := a
  cases l with
  | none => rfl
  | some l =>
    obtain ⟨_, _, _, t⟩ := l
    cases t <;> rfl

end Action

/-- The plan without an authored schema. -/
def ActionPlan.unauthored (p : ActionPlan) : ActionPlan :=
  { p with action := p.action.unauthored }

theorem ActionPlan.toolName_unauthored (p : ActionPlan) : p.unauthored.toolName = p.toolName :=
  congrArg (Option.getD · p.identity.operationId) p.action.authoredToolName_unauthored

namespace Planner

theorem plan_unauthored (p : Planner) (object : String) (a : Action) :
    p.plan object a.unauthored =
      ((p.plan object a).1.map ActionPlan.unauthored, (p.plan object a).2) := by
  have hname : a.unauthored.name = a.name := rfl
  have hlabel : a.unauthored.label = a.label := rfl
  have hfinding : a.unauthored.nameFinding = a.nameFinding := rfl
  have hrefuses : p.refuses a.unauthored = p.refuses a := rfl
  unfold Planner.plan
  simp only [hname, hlabel, hfinding, hrefuses, Action.pathIn_unauthored, Action.verb_unauthored,
    Action.verbFinding_unauthored]
  cases p.refuses a with
  | true => rfl
  | false =>
    simp only [Bool.false_eq_true, if_false]
    cases (p.report (a.nameFinding (Text.strip object))).registry.claim
      (a.label (Text.strip object)) (.derive a.name) <;> rfl

/-- **A step leaves the same state** whether a schema was authored or not. -/
theorem planTool_unauthored (p : Planner) (object : String) (a : Action) :
    (p.planTool object a.unauthored).map Prod.snd = (p.planTool object a).map Prod.snd := by
  unfold planTool
  rw [plan_unauthored]
  obtain ⟨outcome, q⟩ := p.plan object a
  cases outcome with
  | error e => rfl
  | ok plan =>
    change Except.map Prod.snd (q.registry.claimName plan.label plan.unauthored.toolName >>= _) = _
    rw [plan.toolName_unauthored]
    change _ = Except.map Prod.snd (q.registry.claimName plan.label plan.toolName >>= _)
    cases q.registry.claimName plan.label plan.toolName <;> rfl

/-- The state behind a run is the state behind the rest of it, from the state behind the first
step. -/
theorem planTools_cons_map_snd (p : Planner) (object : String) (a : Action)
    (rest : List (String × Action)) : (p.planTools ((object, a) :: rest)).map Prod.snd =
      (p.planTool object a).map Prod.snd >>= fun q => (q.planTools rest).map Prod.snd := by
  rw [planTools]
  cases p.planTool object a with
  | error e => rfl
  | ok step =>
    change Except.map Prod.snd (step.2.planTools rest >>= _) = (step.2.planTools rest).map Prod.snd
    cases step.2.planTools rest <;> rfl

/-- **A run leaves the same state**, too. -/
theorem planTools_unauthored : ∀ (as : List (String × Action)) (p : Planner),
    (p.planTools (as.map fun e => (e.1, e.2.unauthored))).map Prod.snd =
      (p.planTools as).map Prod.snd
  | [], _ => rfl
  | (object, a) :: rest, p => by
    rw [List.map_cons, planTools_cons_map_snd, planTools_cons_map_snd, planTool_unauthored]
    simp only [planTools_unauthored rest]

end Planner

/-- The actions of a scope without authored schemas, with the names of their objects. -/
def Scope.unauthored (scope : Scope) : List (String × Action) :=
  scope.actions.map fun e => (e.1, e.2.unauthored)

/-- **Authored schemas have no part in what is found**: scopes that differ in them alone compile
with the same findings, or else with the same failure. -/
theorem descriptors_findings_eq (config : Config) {scope scope' : Scope}
    (h : scope.unauthored = scope'.unauthored) :
    (descriptors config scope).map Compiled.findings =
      (descriptors config scope').map Compiled.findings := by
  have hrun : ∀ scope : Scope, (descriptors config scope).map Compiled.findings =
      (((Planner.new config).planTools scope.unauthored).map Prod.snd).map Planner.findings := by
    intro scope
    rw [Scope.unauthored, Planner.planTools_unauthored, descriptors]
    cases (Planner.new config).planTools scope.actions <;> rfl
  rw [hrun scope, hrun scope', h]

/-! ## Tools -/

/-- **Authored schemas stand in or are passed over.** Where nothing can be derived for an action,
the `i`-th of a scope, its tool shows the authored properties if the authored object has the shape
of a schema at every depth, and otherwise no arguments at all; neither leads to a finding or a
failure. -/
theorem authored_schema_settled (config : Config) (scope : Scope) :
    (∀ c, descriptors config scope = .ok c → ∀ (i : Nat) (object : String) (a : Action)
      (members props : List (String × Json)), scope.actions[i]? = some (object, a) →
      a.Authors members props → ∃ t, c.output[i]? = some t ∧
        ((Json.obj members).IsSchema → t.parameters.Keeps members props) ∧
        (¬ (Json.obj members).IsSchema → t.parameters = {})) ∧
    ∀ scope' : Scope, scope'.unauthored = scope.unauthored →
      (descriptors config scope').map Compiled.findings =
        (descriptors config scope).map Compiled.findings := by
  refine ⟨fun c hc i object a members props ha h => ?_, fun _ => descriptors_findings_eq config⟩
  obtain ⟨t, ht, hparameters⟩ := exists_tool hc ha
  refine ⟨t, ht, ?_⟩
  rw [hparameters]
  exact ⟨a.keeps_arguments h, a.arguments_of_not_isSchema h⟩

/-! ## Two ways to demand an argument -/

/-- The members of an authored schema with one property, which is required. -/
def queryMembers (query : Json) : List (String × Json) :=
  [("type", .str "object"), ("properties", .obj [("query", query)]),
   ("required", .ofStrings ["query"])]

/-- An action with such a schema and nothing else to derive arguments from. -/
def Action.asking (name : String) (query : Json) : Action :=
  { name := name, implementation := some
      { tool := some { parameters := some (.obj (queryMembers query)) } } }

theorem Action.authors_asking (name : String) (query : Json) :
    (asking name query).Authors (queryMembers query) [("query", query)] where
  underived := rfl
  parameters := rfl
  properties := by simp [queryMembers, Ordered.get?]
  distinct := List.nodup_singleton _
  nonempty := List.cons_ne_nil _ _

/-- The shape of the whole is a matter of the one property. -/
theorem isSchema_queryMembers_iff {query : Json} :
    (Json.obj (queryMembers query)).IsSchema ↔ query.IsSchema := by
  constructor
  · rintro (⟨-, hparts⟩)
    have hproperties : Json.IsSchemaPart "properties" (.obj [("query", query)]) :=
      hparts ("properties", _) (by simp [queryMembers]) (by simp [Json.schemaNames])
    simpa [Json.isSchemaPart_iff] using hproperties
  · intro hquery
    refine .named (by simp [queryMembers, Ordered.keys, Json.schemaNames]) ?_
    simp only [queryMembers, List.forall_mem_cons]
    exact ⟨fun _ => .type .object, fun _ => .properties (by simpa using hquery),
      fun _ => .required ["query"], by simp⟩

/-- A property of type string. -/
def plainQuery : Json :=
  .obj [("type", .str "string")]

/-- The same property, marked as required in its own place. -/
def markedQuery : Json :=
  .obj [("type", .str "string"), ("required", .bool true)]

theorem isSchema_plainQuery : plainQuery.IsSchema := by
  refine .named (by simp [Ordered.keys, Json.schemaNames]) ?_
  exact List.forall_mem_singleton.mpr fun _ => .type .string

/-- What is required is a list of names; a mark is none. -/
theorem not_isSchema_markedQuery : ¬ markedQuery.IsSchema := by
  rintro (⟨-, hparts⟩)
  have hmark : Json.IsSchemaPart "required" (.bool true) :=
    hparts ("required", _) (by simp) (by simp [Json.schemaNames])
  simp [Json.isSchemaPart_iff, Json.ofStrings] at hmark

/-- An object with two actions that ask for a query each. -/
def Entity.desk (query : Json) : Entity :=
  { name := "Order", actions := [.asking "Search" plainQuery, .asking "Find" query] }

/-- One schema stands in, the marked one is passed over, and nothing else is found than without the
mark. -/
theorem authored_schema_settled_desk : ∃ c, descriptors {} (.object (.desk markedQuery)) = .ok c ∧
    (∃ t : Tool, c.output[0]? = some t ∧
      t.parameters.Keeps (queryMembers plainQuery) [("query", plainQuery)]) ∧
    (∃ t : Tool, c.output[1]? = some t ∧ t.parameters = {}) ∧
    (descriptors {} (.object (.desk plainQuery))).map Compiled.findings = .ok c.findings := by
  have hc : ∃ c, descriptors {} (.object (.desk markedQuery)) = .ok c := ⟨_, rfl⟩
  obtain ⟨c, hc⟩ := hc
  obtain ⟨htools, hfindings⟩ := authored_schema_settled {} (.object (.desk markedQuery))
  obtain ⟨t, ht, hkeeps, -⟩ :=
    htools c hc 0 "Order" _ _ _ rfl (Action.authors_asking "Search" plainQuery)
  obtain ⟨t', ht', -, hblank⟩ :=
    htools c hc 1 "Order" _ _ _ rfl (Action.authors_asking "Find" markedQuery)
  refine ⟨c, hc, ⟨t, ht, hkeeps (isSchema_queryMembers_iff.mpr isSchema_plainQuery)⟩,
    ⟨t', ht', hblank fun h => not_isSchema_markedQuery (isSchema_queryMembers_iff.mp h)⟩, ?_⟩
  rw [hfindings (.object (.desk plainQuery)) rfl, hc]
  rfl

/-- An ontology whose only action demands its argument by the mark. -/
def Ontology.marked : Ontology :=
  { objects := [{ id := "o", name := "Order", actions := [.asking "Search" markedQuery] }] }

/-- The schema with the mark is not shown, though nothing was derived, and nothing is found. -/
theorem authored_schema_dropped : ∃ c t, descriptors {} (.whole .marked) = .ok c ∧
    (Scope.whole .marked).actions = [("Order", .asking "Search" markedQuery)] ∧
    (Action.asking "Search" markedQuery).Authors (queryMembers markedQuery)
      [("query", markedQuery)] ∧
    c.output = [t] ∧ Ordered.keys t.parameters.properties = [] ∧ c.findings = [] := by
  refine ⟨_, _, rfl, rfl, Action.authors_asking _ _, rfl, ?_, ?_⟩
  · decide +kernel
  · decide +kernel

end OntologyCompiler
