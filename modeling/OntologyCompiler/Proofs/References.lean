import OntologyCompiler.Proofs.DocumentFold

/-!
# What the operations of a document refer to

Every reference of an operation leads to a schema of the document, from the first step on. In a
document in which nothing was taken over, it leads to the schema of the very action that the
operation was made of.

* `references_operation`: the names that an operation refers to are those of its schemas.
* `Resolves.add`: a step keeps all references intact.
* `assemble_eq_ok_iff`: a document is a run of the planner and a fold.
* `references_intact`: the two facts together, for every fold and every compilation.
-/

namespace OntologyCompiler

/-- The references in the bodies of an operation: that of its request and those of its responses. -/
def Operation.references (o : Operation) : List String :=
  ((o.requestBody.map RequestBody.content).getD [] ++ o.responses.flatMap fun r => r.2.content)
    |>.filterMap fun m => m.2.schema.reference

/-- The identifiers of the operations of a document. -/
def OpenApi.operationIds (d : OpenApi) : List String :=
  (PathItem.entries d.paths).map fun e => e.2.operationId

/-- The operation `o` was made of the plan `p`, and its references lead to the schemas of the action
of `p`. -/
structure ActionPlan.Served (p : ActionPlan) (schemas : Ordered String Schema) (o : Operation) :
    Prop where
  operation : o = p.operation
  response : ∃ r, Ordered.get? o.responses "200" = some r ∧
    r.content = OpenApi.bodyOf p.identity.responseSchema ∧
    Ordered.get? schemas p.identity.responseSchema = some p.action.responseSchema
  request : ∀ body, o.requestBody = some body → ∃ s,
    p.action.requestSchema .openApi = some s ∧
    body.content = OpenApi.bodyOf p.identity.requestSchema ∧
    Ordered.get? schemas p.identity.requestSchema = some s ∧
    (body.required = true ↔ s.required ≠ [])
  noRequest : o.requestBody = none ↔
    p.verb.isRead = true ∨ p.action.requestSchema .openApi = none

namespace ActionPlan

/-- **The names that an operation refers to** are those of the schemas of its plan. -/
theorem references_operation (p : ActionPlan) :
    p.operation.references = p.schemas.map fun s => Schema.componentPath s.1 := by
  unfold Operation.references schemas operation
  cases p.bodySchema <;>
    simp [OpenApi.bodyOf, OpenApi.failureResponses, Schema.ref]

theorem served_of_schemas {p : ActionPlan} {schemas : Ordered String Schema}
    (h : ∀ {name s}, (name, s) ∈ p.schemas → Ordered.get? schemas name = some s) :
    p.Served schemas p.operation := by
  refine ⟨rfl, ⟨_, rfl, rfl, h (mem_schemas.mpr (Or.inr ⟨rfl, rfl⟩))⟩, fun body hbody => ?_, ?_⟩
  · obtain ⟨s, hs, rfl⟩ := Option.map_eq_some_iff.mp hbody
    refine ⟨s, ?_, rfl, h (mem_schemas.mpr (Or.inl ⟨hs, rfl⟩)), by simp⟩
    unfold bodySchema at hs
    split at hs
    · exact absurd hs (by simp)
    · exact hs
  · simp only [operation, Option.map_eq_none_iff, bodySchema]
    cases p.verb.isRead <;> simp

end ActionPlan

namespace DocumentState

/-- Every reference of every operation leads to a schema that is there. -/
def Resolves (d : DocumentState) : Prop :=
  ∀ e ∈ PathItem.entries d.paths, ∀ ref ∈ e.2.references,
    ∃ name ∈ Ordered.keys d.schemas, ref = Schema.componentPath name

/-- The states that steps lead to from the empty one, each step under a policy of its own. -/
inductive Built : DocumentState → Prop
  | empty : Built {}
  | step {d e : DocumentState} {p : ActionPlan} {policy : CollisionPolicy} (hd : Built d)
      (h : d.add p policy = .ok e) : Built e

theorem Resolves.write {d : DocumentState} (h : d.Resolves) (p : ActionPlan) :
    (d.write p).Resolves := by
  intro e he ref href
  rcases mem_entries_write he with rfl | hold
  · rw [ActionPlan.references_operation, List.mem_map] at href
    obtain ⟨s, hs, rfl⟩ := href
    exact ⟨s.1, Ordered.mem_keys_putAll.mpr (Or.inr (List.mem_map_of_mem hs)), rfl⟩
  · obtain ⟨name, hname, rfl⟩ := h e hold ref href
    exact ⟨name, Ordered.mem_keys_putAll.mpr (Or.inl hname), rfl⟩

/-- **A step keeps all references intact**: schemas are replaced, never removed. -/
theorem Resolves.add {d e : DocumentState} {p : ActionPlan} {policy : CollisionPolicy}
    (h : d.Resolves) (hadd : d.add p policy = .ok e) : e.Resolves := by
  have hc := add_contents hadd
  unfold Resolves
  rw [hc.paths, hc.schemas]
  exact h.write p

theorem Built.resolves {d : DocumentState} (h : d.Built) : d.Resolves := by
  induction h with
  | empty => exact fun e he => absurd he List.not_mem_nil
  | step _ hadd ih => exact ih.add hadd

/-- A fold ends in a state that steps lead to. -/
theorem built_addAll : ∀ {ps : List ActionPlan} {d e : DocumentState} {policy : CollisionPolicy},
    d.addAll ps policy = .ok e → d.Built → e.Built
  | [], _, _, _, h, hd => Except.ok.inj h ▸ hd
  | p :: ps, d, e, policy, h, hd => by
    obtain ⟨d', hstep, hrest⟩ := addAll_cons_eq_ok_iff.mp h
    exact built_addAll hrest (hd.step hstep)

end DocumentState

/-- **A document is a run of the planner and a fold of what was planned.** -/
theorem assemble_eq_ok_iff {config : Config} {scope : Scope} {c : Compiled OpenApi} :
    assemble config scope = .ok c ↔ ∃ plans planner state,
      (Planner.new config).planAll scope.actions = .ok (plans, planner) ∧
      ({} : DocumentState).addAll plans config.collisions = .ok state ∧
      c = ⟨state.document (config.infoFor scope.ontology?) config.serverList,
        planner.findings ++ state.findings⟩ := by
  unfold assemble
  simp only [bind_eq_ok_iff, Prod.exists]
  constructor
  · rintro ⟨plans, planner, hplan, state, hstate, hc⟩
    exact ⟨plans, planner, state, hplan, hstate, (Except.ok.inj hc).symm⟩
  · rintro ⟨plans, planner, state, hplan, hstate, rfl⟩
    exact ⟨plans, planner, hplan, state, hstate, rfl⟩

/-- **References are intact.** In every state that steps under any policies lead to, each reference
of an operation leads to a schema that is there. And in a document that was compiled under the
policies `suffix` or `reject`, or under `overwrite` without an error, operations have distinct
identifiers, and each refers to the schemas of the action that it was made of. -/
theorem references_intact :
    (∀ d : DocumentState, d.Built → d.Resolves) ∧
    ∀ (config : Config) (scope : Scope) (c : Compiled OpenApi), assemble config scope = .ok c →
      (config.collisions = .overwrite → c.hasErrors = false) →
      c.output.operationIds.Nodup ∧
      ∃ plans planner, (Planner.new config).planAll scope.actions = .ok (plans, planner) ∧
        ∀ path verb o, ((path, verb), o) ∈ PathItem.entries c.output.paths →
          ∃ p ∈ plans, p.path = path ∧ p.verb.key = verb ∧
            p.Served c.output.components.schemas o := by
  refine ⟨fun d hd => hd.resolves, fun config scope c hc herr => ?_⟩
  obtain ⟨plans, planner, state, hplan, hstate, rfl⟩ := assemble_eq_ok_iff.mp hc
  have hcontents := DocumentState.addAll_contents hstate
  obtain ⟨hids, hstems, -⟩ := Planner.planAll_fresh hplan fun hp f hf => by
    have hall := herr hp
    simp only [Compiled.hasErrors, List.any_eq_false] at hall
    simpa using hall f (List.mem_append_left _ hf)
  have hplace : ∀ e ∈ PathItem.entries state.paths, ∃ p ∈ plans, e = (p.place, p.operation) := by
    intro e he
    rw [hcontents.paths] at he
    exact (DocumentState.mem_entries_writeAll he).resolve_right List.not_mem_nil
  refine ⟨?_, plans, planner, hplan, fun path verb o ho => ?_⟩
  · -- operations with one identifier come of one plan, so they stand at one place
    refine List.Nodup.map_on ?_ (List.Nodup.of_map Prod.fst ?_)
    · intro x hx y hy hxy
      obtain ⟨p, hp, rfl⟩ := hplace x hx
      obtain ⟨q, hq, rfl⟩ := hplace y hy
      rw [List.inj_on_of_nodup_map hids hp hq hxy]
    · have htidy := DocumentState.tidy_writeAll plans DocumentState.tidy_empty
      show ((PathItem.entries state.paths).map Prod.fst).Nodup
      rw [hcontents.paths]
      exact DocumentState.nodup_places htidy
  · obtain ⟨p, hp, heq⟩ := hplace _ ho
    obtain ⟨hpl, rfl⟩ := Prod.mk.inj heq
    obtain ⟨rfl, rfl⟩ := Prod.mk.inj hpl
    refine ⟨p, hp, rfl, rfl, ActionPlan.served_of_schemas fun {name s} hs => ?_⟩
    show Ordered.get? state.schemas name = some s
    rw [hcontents.schemas]
    exact DocumentState.get?_schemas_writeAll hstems hp hs

/-- An action with a parameter. -/
def Action.approve : Action :=
  { name := "Approve"
    logic := some { parameters := [Parameter.mk "reason" .string true ""] } }

/-- Two objects with the same action. -/
def Scope.twice : Scope :=
  .whole { objects := [{ name := "Order", actions := [.approve] },
    { name := "Invoice", actions := [.approve] }] }

/-- Under the policy `suffix` the second action is renamed, and both keep their schemas. -/
theorem references_intact_twice :
    ∃ c, assemble { collisions := .suffix } .twice = .ok c ∧
      c.output.operationIds = ["approve", "approve_2"] ∧ c.output.operationIds.Nodup ∧
      Ordered.keys c.output.components.schemas =
        ["ApproveRequest", "ApproveResponse", "Approve2Request", "Approve2Response"] ∧
      ∃ d : DocumentState, d.Built ∧ d.paths = c.output.paths ∧ d.Resolves := by
  have hc : ∃ c, assemble { collisions := .suffix } .twice = .ok c := ⟨_, rfl⟩
  have heval : ((assemble { collisions := .suffix } .twice).toOption.map fun c =>
      (c.output.operationIds, Ordered.keys c.output.components.schemas)) =
      some (["approve", "approve_2"],
        ["ApproveRequest", "ApproveResponse", "Approve2Request", "Approve2Response"]) := by
    decide +kernel
  obtain ⟨c, hc⟩ := hc
  rw [hc] at heval
  obtain ⟨hids, hkeys⟩ := Prod.mk.inj (Option.some.inj heval)
  obtain ⟨hnodup, -⟩ := references_intact.2 _ _ c hc fun h => absurd h (by decide)
  obtain ⟨plans, planner, state, -, hstate, rfl⟩ := assemble_eq_ok_iff.mp hc
  have hbuilt := DocumentState.built_addAll hstate .empty
  exact ⟨_, hc, hids, hnodup, hkeys, state, hbuilt, rfl, references_intact.1 state hbuilt⟩

end OntologyCompiler
