import OntologyCompiler.Proofs.ClaimRuns
import OntologyCompiler.Proofs.LastWrite
import OntologyCompiler.Proofs.Policies

/-!
# Documents and tools are planned alike

A document is planned in one go; tools claim a name after every plan. As claims of tool names do
not meet those of identifiers, a run that claims names is, names aside, a run that only plans.

* `planTools_eq_ok_iff`: the tools of a run, from the plans and claims of the run.
* `forDocument_plan`, `ToolRun.planAll`: what a document sees of a step, and of a run.
* `ToolRun.names`: tools without authored names are named by their operation identifiers.
* `pipelines_agree`: the facts together, for a document and the tools of one scope.
-/

namespace OntologyCompiler

namespace Finding

/-- Whether a finding is about the name of a tool. -/
def isToolName : Finding → Bool
  | toolNameReused .. => true
  | toolNameRenamed .. => true
  | _ => false

end Finding

namespace Registry

theorem claim_not_toolName {r s : Registry} {label : String} {i : Identity} {c : Claim Identity}
    (h : r.claim label i = .ok (c, s)) : ∀ f ∈ c.finding.toList, f.isToolName = false := by
  rcases claim_cases h with ⟨-, rfl, -⟩ | ⟨_, -, -, rfl, -⟩ | ⟨_, -, -, rfl, -⟩ <;>
    simp [Finding.isToolName]

theorem claimName_isToolName {r s : Registry} {label n : String} {c : Claim String}
    (h : r.claimName label n = .ok (c, s)) : ∀ f ∈ c.finding.toList, f.isToolName = true := by
  rcases claimName_cases h with ⟨-, rfl, -⟩ | ⟨_, -, -, rfl, -⟩ | ⟨_, -, -, rfl, -⟩ <;>
    simp [Finding.isToolName]

end Registry

namespace Action

/-- The authored name of the tool, if it is not blank. -/
def authoredToolName (a : Action) : Option String :=
  a.tool.bind fun t => Text.nonBlank? t.name

/-- The tool of a plan asks for the authored name, or else for the operation identifier. -/
theorem toolName_planned (a : Action) (object : String) (i : Identity) :
    (a.planned object i).toolName = a.authoredToolName.getD i.operationId := rfl

theorem nameFinding_not_toolName {a : Action} {object : String} {f : Finding}
    (h : f ∈ a.nameFinding object) : f.isToolName = false := by
  rw [eq_of_mem_nameFinding h]
  rfl

theorem verbFinding_not_toolName {a : Action} {label : String} {f : Finding}
    (h : f ∈ a.verbFinding label) : f.isToolName = false := by
  obtain ⟨method, rfl⟩ := exists_of_mem_verbFinding h
  rfl

end Action

namespace Planner

/-! ## Runs that claim tool names -/

/-- A run that claims a tool name after every plan, with its plans and what the claims came to. -/
inductive ToolRun : Planner → List (String × Action) → List (ActionPlan × Claim String) →
    Planner → Prop
  | nil (p : Planner) : ToolRun p [] [] p
  | cons {p p' q : Planner} {object : String} {a : Action} {rest : List (String × Action)}
    {plan : ActionPlan} {c : Claim String} {r : Registry}
    {log : List (ActionPlan × Claim String)} (hplan : p.plan object a = (.ok plan, p'))
    (hclaim : p'.registry.claimName plan.label plan.toolName = .ok (c, r))
    (hrest : ToolRun (p'.named c r) rest log q) :
    ToolRun p ((object, a) :: rest) ((plan, c) :: log) q

/-- The tool of a plan whose claim of a name came to something. -/
def describe (e : ActionPlan × Claim String) : Tool :=
  e.1.describe e.2.value

/-- **The tools of a run** are made of its plans and claims. -/
theorem planTools_eq_ok_iff : ∀ {as : List (String × Action)} {p q : Planner} {tools : List Tool},
    p.planTools as = .ok (tools, q) ↔ ∃ log, ToolRun p as log q ∧ tools = log.map describe
  | [], p, q, tools => by
    rw [planTools_nil, Except.ok.injEq, Prod.mk.injEq]
    constructor
    · rintro ⟨rfl, rfl⟩
      exact ⟨[], .nil _, rfl⟩
    · rintro ⟨log, hrun, rfl⟩
      cases hrun
      exact ⟨rfl, rfl⟩
  | (object, a) :: rest, p, q, tools => by
    rw [planTools_cons_eq_ok_iff]
    constructor
    · rintro ⟨tool, p', tools', hstep, hrest, rfl⟩
      obtain ⟨plan, p₁, c, r, hplan, hclaim, rfl, rfl⟩ := planTool_eq_ok_iff.mp hstep
      obtain ⟨log, hrun, rfl⟩ := planTools_eq_ok_iff.mp hrest
      exact ⟨(plan, c) :: log, .cons hplan hclaim hrun, rfl⟩
    · rintro ⟨log, hrun, rfl⟩
      cases hrun with
      | cons hplan hclaim hrest =>
        exact ⟨_, _, _, planTool_eq_ok_iff.mpr ⟨_, _, _, _, hplan, hclaim, rfl, rfl⟩,
          planTools_eq_ok_iff.mpr ⟨_, hrest, rfl⟩, rfl⟩

/-! ## What a document sees -/

/-- The state of planning with nothing said about tool names. -/
def forDocument (p : Planner) : Planner :=
  ⟨p.registry.withoutNames, p.strict, p.findings.filter fun f => !f.isToolName⟩

theorem forDocument_new (config : Config) : (new config).forDocument = new config := rfl

/-- A claim of a tool name is not seen by a document. -/
theorem forDocument_named {p : Planner} {label n : String} {c : Claim String} {r : Registry}
    (h : p.registry.claimName label n = .ok (c, r)) :
    (p.named c r).forDocument = p.forDocument := by
  have hfindings : c.finding.toList.filter (fun f => !f.isToolName) = [] :=
    List.filter_eq_nil_iff.mpr fun f hf => by simp [Registry.claimName_isToolName h f hf]
  simp only [forDocument, named, Registry.withoutNames_claimName h, List.filter_append, hfindings,
    List.append_nil]

/-- **A plan is the same plan for a document.** -/
theorem forDocument_plan {p q : Planner} {object : String} {a : Action} {plan : ActionPlan}
    (h : p.plan object a = (.ok plan, q)) :
    p.forDocument.plan object a = (.ok plan, q.forDocument) := by
  obtain ⟨hr, c, r, hclaim, rfl, rfl⟩ := plan_eq_ok_iff.mp h
  have hclaim' : p.forDocument.registry.claim (a.label (Text.strip object)) (.derive a.name) =
      .ok (c, r.withoutNames) := by
    rw [forDocument, Registry.claim_withoutNames, hclaim]
    rfl
  refine plan_eq_ok_iff.mpr ⟨hr, c, r.withoutNames, hclaim', rfl, ?_⟩
  -- no finding of a plan is about a tool name
  have hname : (a.nameFinding (Text.strip object)).filter (fun f => !f.isToolName) =
      a.nameFinding (Text.strip object) :=
    List.filter_eq_self.mpr fun f hf => by simp [Action.nameFinding_not_toolName hf]
  have hfound : c.finding.toList.filter (fun f => !f.isToolName) = c.finding.toList :=
    List.filter_eq_self.mpr fun f hf => by simp [Registry.claim_not_toolName hclaim f hf]
  have hverb : (a.verbFinding (a.label (Text.strip object))).filter (fun f => !f.isToolName) =
      a.verbFinding (a.label (Text.strip object)) :=
    List.filter_eq_self.mpr fun f hf => by simp [Action.verbFinding_not_toolName hf]
  simp only [forDocument, after, List.filter_append, hname, hfound, hverb]

/-- **A run that claims tool names is, for a document, the run that plans the same.** -/
theorem ToolRun.planAll {p q : Planner} {as : List (String × Action)}
    {log : List (ActionPlan × Claim String)} (h : ToolRun p as log q) :
    p.forDocument.planAll as = .ok (log.map Prod.fst, q.forDocument) := by
  induction h with
  | nil p => rfl
  | cons hplan hclaim hrest ih =>
    refine planAll_cons_eq_ok_iff.mpr ⟨_, _, _, forDocument_plan hplan, ?_, rfl⟩
    rw [forDocument_named hclaim] at ih
    exact ih

/-! ## Names -/

/-- Where no tool name was authored, tool names are operation identifiers of earlier plans. -/
def NamesOperations (p : Planner) : Prop :=
  Ordered.keys p.registry.toolNames ⊆ Ordered.keys p.registry.operations

/-- **A step names its tool by the operation identifier**, if the tool names before are operation
identifiers, and leaves it so. -/
theorem named_operation {p p' : Planner} {object : String} {a : Action} {plan : ActionPlan}
    {c : Claim String} {r : Registry} (hp : p.NamesOperations)
    (hplan : p.plan object a = (.ok plan, p')) (ha : a.authoredToolName = none)
    (hclaim : p'.registry.claimName plan.label plan.toolName = .ok (c, r)) :
    c.value = plan.identity.operationId ∧ (p'.named c r).NamesOperations := by
  have hname : plan.toolName = plan.identity.operationId := by
    obtain ⟨-, _, _, -, rfl, -⟩ := plan_eq_ok_iff.mp hplan
    rw [Action.toolName_planned, ha]
    rfl
  have hrecord := plan_records hplan
  have hvalue : c.value = plan.identity.operationId := by
    rcases Registry.claimName_cases hclaim with ⟨-, rfl, -⟩ | ⟨_, -, -, rfl, -⟩ |
      ⟨first, hheld, hpolicy, -, -⟩
    · exact hname
    · exact hname
    · -- the name is taken, so the operation identifier was, which the plan has not taken over
      have hfresh := plan_fresh hplan fun hover => by
        rw [hrecord] at hpolicy
        exact absurd (hover.symm.trans hpolicy) (by simp)
      have hfree := (Registry.holder?_eq_none_iff.mp hfresh).1
      rw [hname, hrecord] at hheld
      have hmem : plan.identity.operationId ∈ Ordered.keys p.registry.toolNames := by
        by_contra hnot
        exact absurd (hheld.symm.trans (Ordered.get?_eq_none_iff.mpr hnot)) (by simp)
      exact absurd (hp hmem) hfree
  refine ⟨hvalue, fun n hn => ?_⟩
  rw [named, Registry.claimName_records hclaim, Registry.recordName, Ordered.mem_keys_put] at hn
  show n ∈ Ordered.keys r.operations
  rw [Registry.claimName_records hclaim, Registry.recordName, hrecord,
    Registry.keys_operations_record]
  rw [hrecord, hvalue] at hn
  exact hn.imp_right fun h => hp h

/-- **Without authored names, tools are named by their operation identifiers**, whatever the policy
does about collisions. -/
theorem ToolRun.names {p q : Planner} {as : List (String × Action)}
    {log : List (ActionPlan × Claim String)} (h : ToolRun p as log q) (hp : p.NamesOperations)
    (ha : ∀ e ∈ as, e.2.authoredToolName = none) :
    log.map (fun e => e.2.value) = log.map fun e => e.1.identity.operationId := by
  induction h with
  | nil p => rfl
  | cons hplan hclaim hrest ih =>
    obtain ⟨hvalue, hkeeps⟩ := named_operation hp hplan (ha _ List.mem_cons_self) hclaim
    rw [List.map_cons, List.map_cons, hvalue,
      ih hkeeps fun e he => ha e (List.mem_cons_of_mem _ he)]

end Planner

/-! ## Whole compilations -/

/-- **The document and the tools of a scope agree.** Where both are made, action by action the
tools have the plans of the document (label, identifiers, path and method), although tools claim
names in between. The path and method of a plan are those of its action in its object, and the
document has an operation at those of every tool. The findings of planning a document are those of
the tools without the ones about tool names, in the same order. Where no action has an authored
tool name, tools are named by the operation identifiers. -/
theorem pipelines_agree {config : Config} {scope : Scope} {cd : Compiled OpenApi}
    {ct : Compiled (List Tool)} (hd : assemble config scope = .ok cd)
    (ht : descriptors config scope = .ok ct) :
    ∃ plans planner state log last,
      (Planner.new config).planAll scope.actions = .ok (plans, planner) ∧
      ({} : DocumentState).addAll plans config.collisions = .ok state ∧
      cd.output.paths = state.paths ∧ cd.findings = planner.findings ++ state.findings ∧
      Planner.ToolRun (Planner.new config) scope.actions log last ∧
      ct.output = log.map Planner.describe ∧ ct.findings = last.findings ∧
      log.map Prod.fst = plans ∧
      plans.map (fun p => (p.label, p.path, p.verb)) = (scope.actions.map fun e =>
        (e.2.label (Text.strip e.1), e.2.pathIn (Text.strip e.1), e.2.verb)) ∧
      (∀ tool ∈ ct.output, ∃ op,
        PathItem.operation? cd.output.paths (tool.http.path, tool.http.verb.key) = some op) ∧
      planner.findings = ct.findings.filter (fun f => !f.isToolName) ∧
      ((∀ e ∈ scope.actions, e.2.authoredToolName = none) →
        ct.output.map Tool.name = plans.map fun p => p.identity.operationId) := by
  obtain ⟨plans, planner, state, hplan, hstate, rfl⟩ := assemble_eq_ok_iff.mp hd
  obtain ⟨tools, last, htools, rfl⟩ := descriptors_eq_ok_iff.mp ht
  obtain ⟨log, hrun, rfl⟩ := Planner.planTools_eq_ok_iff.mp htools
  have hview := hrun.planAll
  rw [Planner.forDocument_new] at hview
  obtain ⟨rfl, rfl⟩ := Prod.mk.inj (Except.ok.inj (hplan.symm.trans hview))
  have hkeeps := DocumentState.keeps_addAll hstate DocumentState.keeps_empty
  refine ⟨_, _, state, log, last, hplan, hstate, rfl, rfl, hrun, rfl, rfl, rfl,
    Planner.planAll_places hplan, fun tool htool => ?_, rfl, fun ha => ?_⟩
  · obtain ⟨e, he, rfl⟩ := List.mem_map.mp htool
    -- the plan of the tool has a place, at which the last plan stands
    have hmem : e.1 ∈ log.map Prod.fst := List.mem_map_of_mem he
    obtain ⟨q, hq⟩ : ∃ q, ActionPlan.latest (fun q => q.place == e.1.place) _ = some q :=
      ActionPlan.exists_latest hmem (by simp)
    exact ⟨q.operation, (hkeeps.operations e.1.place).trans (by rw [List.nil_append, hq]; rfl)⟩
  · rw [List.map_map, List.map_map]
    exact hrun.names (List.nil_subset _) ha

/-- A scope in which the first action asks for the tool name that the second would get. -/
def Scope.borrowed : Scope :=
  .object { name := "Order", actions :=
    [{ Action.named "Ship" with
        implementation := some { tool := some { name := "approve" } } },
      .named "Approve"] }

/-- The tool of the second action is renamed; its operation is not. -/
theorem pipelines_agree_borrowed :
    ∃ cd ct, assemble { collisions := .suffix } .borrowed = .ok cd ∧
      descriptors { collisions := .suffix } .borrowed = .ok ct ∧
      cd.output.operationIds = ["ship", "approve"] ∧
      ct.output.map Tool.name = ["approve", "approve_2"] ∧
      ∀ tool ∈ ct.output, ∃ op,
        PathItem.operation? cd.output.paths (tool.http.path, tool.http.verb.key) = some op := by
  have hd : ∃ cd, assemble { collisions := .suffix } .borrowed = .ok cd := ⟨_, rfl⟩
  have ht : ∃ ct, descriptors { collisions := .suffix } .borrowed = .ok ct := ⟨_, rfl⟩
  have hids : ((assemble { collisions := .suffix } .borrowed).toOption.map fun c =>
      c.output.operationIds) = some ["ship", "approve"] := by
    decide +kernel
  have hnames : ((descriptors { collisions := .suffix } .borrowed).toOption.map fun c =>
      c.output.map Tool.name) = some ["approve", "approve_2"] := by
    decide +kernel
  obtain ⟨cd, hd⟩ := hd
  obtain ⟨ct, ht⟩ := ht
  rw [hd] at hids
  rw [ht] at hnames
  obtain ⟨_, _, _, _, _, -, -, -, -, -, -, -, -, -, hoperations, -, -⟩ := pipelines_agree hd ht
  exact ⟨cd, ct, hd, ht, Option.some.inj hids, Option.some.inj hnames, hoperations⟩

end OntologyCompiler
