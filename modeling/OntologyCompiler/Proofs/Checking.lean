import OntologyCompiler.CommandLine.Run
import OntologyCompiler.Proofs.Pipelines

/-!
# What a check promises

A compilation goes through without an error just if the actions of its scope keep out of each
other's way. That is a matter of pairs of actions, so it carries over to every part of the scope;
hence a check of the whole ontology speaks for every selection.

* `planAll_reject_iff`, `planTools_reject_iff`, `addAll_reject_iff`: when rejection lets a run
  through.
* `assemble_succeeds_iff`, `descriptors_succeeds_iff`: when a compilation goes through without an
  error, whatever the policy.
* `emit_succeeds_iff`, `generate_succeeds_iff`: dialects and target languages add warnings only.
* `passes_iff`, `compiles_iff`: a check and a compilation ask for the same.
* `reportOn_run`, `passes_iff_checked`: what the command that checks ends in.
* `check_sound`: a check speaks for every selection, and hides no error.
-/

namespace OntologyCompiler

open Registry (Apart)

/-- A compilation goes through and finds no error. -/
def Succeeds {α : Type} (run : Except Failure (Compiled α)) : Prop :=
  ∃ c, run = .ok c ∧ c.hasErrors = false

/-- Where a compilation is not to be renamed, it succeeds just if rejection lets it through. -/
theorem PoliciesAgree.succeeds_iff {α : Type} {run : CollisionPolicy → Except Failure (Compiled α)}
    {unnamed : Prop} (h : PoliciesAgree run unnamed) {policy : CollisionPolicy}
    (hp : policy ≠ .suffix) : Succeeds (run policy) ↔ ∃ c, run .reject = .ok c := by
  cases policy with
  | suffix => exact absurd rfl hp
  | overwrite => exact h.reject_iff.symm
  | reject =>
    refine ⟨fun ⟨c, hc, _⟩ => ⟨c, hc⟩, fun ⟨c, hc⟩ => ?_⟩
    obtain ⟨c', hc', herr⟩ := h.reject_iff.mp ⟨c, hc⟩
    obtain rfl : c = c' := Except.ok.inj ((h.same c hc .overwrite).symm.trans hc')
    exact ⟨c, hc, herr⟩

/-! ## Actions that keep out of each other's way -/

/-- The tool name that an action asks for, if it has the identifiers of its name. -/
def Action.askedName (a : Action) : String :=
  a.authoredToolName.getD (Identity.derive a.name).operationId

/-- Where names are demanded, every action has one. -/
def Named (strict : Bool) (as : List (String × Action)) : Prop :=
  strict = true → ∀ e ∈ as, Text.isBlankText e.2.name = false

/-- The identifiers of actions before any collision. -/
def derivedIdentities (as : List (String × Action)) : List Identity :=
  as.map fun e => .derive e.2.name

/-- The tool names of actions before any collision. -/
def askedNames (as : List (String × Action)) : List String :=
  as.map fun e => e.2.askedName

/-- The places of actions. -/
def places (as : List (String × Action)) : List (String × String) :=
  as.map fun e => (e.2.pathIn (Text.strip e.1), e.2.verb.key)

/-- Some actions keep out of each other's way: they have names where these are demanded and places
of their own; and identifiers and tool names of their own, unless they can be renamed. -/
structure Clear (config : Config) (as : List (String × Action)) : Prop where
  named : Named config.strict as
  places : (places as).Nodup
  identities : config.collisions ≠ .suffix → (derivedIdentities as).Pairwise Apart
  names : config.collisions ≠ .suffix → (askedNames as).Nodup

/-- **What keeps out of each other's way does so in every part.** -/
theorem Clear.sublist {config : Config} {as bs : List (String × Action)} (h : Clear config as)
    (hs : bs.Sublist as) : Clear config bs where
  named hstrict e he := h.named hstrict e (hs.subset he)
  places := h.places.sublist (hs.map _)
  identities hp := (h.identities hp).sublist (hs.map _)
  names hp := (h.names hp).sublist (hs.map _)

namespace Registry

/-- Unless it is overwritten, a collision of identifiers is no error. -/
theorem claim_not_error {r s : Registry} {label : String} {i : Identity} {c : Claim Identity}
    (h : r.claim label i = .ok (c, s)) (hp : r.policy ≠ .overwrite) :
    ∀ f ∈ c.finding.toList, f.isError = false := by
  rcases claim_cases h with ⟨-, rfl, -⟩ | ⟨_, -, ho, -⟩ | ⟨_, -, -, rfl, -⟩
  · exact fun f hf => absurd hf List.not_mem_nil
  · exact absurd ho hp
  · exact List.forall_mem_singleton.mpr rfl

/-- Unless it is overwritten, a collision of tool names is no error. -/
theorem claimName_not_error {r s : Registry} {label n : String} {c : Claim String}
    (h : r.claimName label n = .ok (c, s)) (hp : r.policy ≠ .overwrite) :
    ∀ f ∈ c.finding.toList, f.isError = false := by
  rcases claimName_cases h with ⟨-, rfl, -⟩ | ⟨_, -, ho, -⟩ | ⟨_, -, -, rfl, -⟩
  · exact fun f hf => absurd hf List.not_mem_nil
  · exact absurd ho hp
  · exact List.forall_mem_singleton.mpr rfl

end Registry

/-! ## Planning -/

namespace Planner

theorem named_cons {p : Planner} {object : String} {a : Action} {rest : List (String × Action)} :
    Named p.strict ((object, a) :: rest) ↔ p.refuses a = false ∧ Named p.strict rest := by
  unfold Named refuses
  cases p.strict <;> simp

/-- Names are demanded and missing just if an action has none. -/
theorem not_named_iff {strict : Bool} {as : List (String × Action)} :
    ¬ Named strict as ↔ strict = true ∧ ∃ e ∈ as, Text.isBlankText e.2.name = true := by
  simp [Named]

/-- The state behind an action that has the identifiers of its name. -/
def afterFree (p : Planner) (object : String) (a : Action) : Planner :=
  p.after object a ⟨.derive a.name, none⟩
    (p.registry.record (a.label (Text.strip object)) (.derive a.name))

/-- The state behind a tool that has the identifiers of its name and the name that it asks for. -/
def afterFreeTool (p : Planner) (object : String) (a : Action) : Planner :=
  (p.afterFree object a).named ⟨a.askedName, none⟩
    ((p.afterFree object a).registry.recordName (a.label (Text.strip object)) a.askedName)

theorem afterFree_strict (p : Planner) (object : String) (a : Action) :
    (p.afterFree object a).strict = p.strict := rfl

theorem holder?_afterFree {p : Planner} {object : String} {a : Action} {i : Identity} :
    (p.afterFree object a).registry.holder? i = none ↔
      p.registry.holder? i = none ∧ Apart (.derive a.name) i := by
  rw [Apart, ← Identity.freeAmong_singleton]
  exact Registry.holder?_record_eq_none

/-- **A step that rejects collisions** goes through with free identifiers. -/
theorem plan_reject_iff {p q : Planner} {object : String} {a : Action} {plan : ActionPlan}
    (hp : p.registry.policy = .reject) : p.plan object a = (.ok plan, q) ↔
      p.refuses a = false ∧ p.registry.holder? (.derive a.name) = none ∧
      plan = a.planned object (.derive a.name) ∧ q = p.afterFree object a := by
  rw [plan_eq_ok_iff, afterFree]
  -- what the identifiers are does not matter, and they are not to be computed
  generalize Identity.derive a.name = i
  constructor
  · rintro ⟨hr, c, r, hclaim, rfl, rfl⟩
    rcases Registry.claim_cases hclaim with ⟨hfree, rfl, rfl⟩ | ⟨_, -, ho, -⟩ | ⟨_, -, hs, -⟩
    · exact ⟨hr, hfree, rfl, rfl⟩
    · exact absurd (hp.symm.trans ho) (by simp)
    · exact absurd (hp.symm.trans hs) (by simp)
  · rintro ⟨hr, hfree, rfl, rfl⟩
    exact ⟨hr, _, _, Registry.claim_free hfree _, rfl, rfl⟩

theorem planAll_reject_cons_iff {p : Planner} {object : String} {a : Action}
    {rest : List (String × Action)} (hp : p.registry.policy = .reject) :
    (∃ x, p.planAll ((object, a) :: rest) = .ok x) ↔
      p.refuses a = false ∧ p.registry.holder? (.derive a.name) = none ∧
      ∃ x, (p.afterFree object a).planAll rest = .ok x := by
  simp only [Prod.exists, planAll_cons_eq_ok_iff, plan_reject_iff hp]
  constructor
  · rintro ⟨_, q, plan, p', plans, ⟨hr, hfree, rfl, rfl⟩, hrest, rfl⟩
    exact ⟨hr, hfree, plans, q, hrest⟩
  · rintro ⟨hr, hfree, plans, q, hrest⟩
    exact ⟨_, q, _, _, plans, ⟨hr, hfree, rfl, rfl⟩, hrest, rfl⟩

/-- **When rejection lets a run through**: names are there, and identifiers are apart from each
other and free. -/
theorem planAll_reject_iff : ∀ {as : List (String × Action)} {p : Planner},
    p.registry.policy = .reject → ((∃ x, p.planAll as = .ok x) ↔ Named p.strict as ∧
      (derivedIdentities as).Pairwise Apart ∧
      ∀ i ∈ derivedIdentities as, p.registry.holder? i = none)
  | [], p, _ => by simp [planAll_nil, Named, derivedIdentities]
  | (object, a) :: rest, p, hp => by
    have ih : (∃ x, (p.afterFree object a).planAll rest = .ok x) ↔ _ := planAll_reject_iff hp
    rw [planAll_reject_cons_iff hp, ih, named_cons, afterFree_strict]
    simp only [derivedIdentities, List.map_cons, List.pairwise_cons, List.forall_mem_cons,
      holder?_afterFree, imp_and, forall_and]
    tauto

/-- **A tool that rejects collisions** goes through with free identifiers and a free name. -/
theorem planTool_reject_iff {p q : Planner} {object : String} {a : Action} {tool : Tool}
    (hp : p.registry.policy = .reject) : p.planTool object a = .ok (tool, q) ↔
      p.refuses a = false ∧ p.registry.holder? (.derive a.name) = none ∧
      Ordered.get? p.registry.toolNames a.askedName = none ∧
      tool = (a.planned object (.derive a.name)).describe a.askedName ∧
      q = p.afterFreeTool object a := by
  simp only [planTool_eq_ok_iff, plan_reject_iff hp]
  constructor
  · rintro ⟨_, _, c, r, ⟨hr, hfree, rfl, rfl⟩, hclaim, rfl, rfl⟩
    rw [Action.toolName_planned, Action.planned_label] at hclaim
    rcases Registry.claimName_cases hclaim with ⟨hname, rfl, rfl⟩ | ⟨_, -, ho, -⟩ | ⟨_, -, hs, -⟩
    · exact ⟨hr, hfree, hname, rfl, rfl⟩
    · exact absurd (hp.symm.trans ho) (by simp)
    · exact absurd (hp.symm.trans hs) (by simp)
  · rintro ⟨hr, hfree, hname, rfl, rfl⟩
    have hname' : Ordered.get? (p.afterFree object a).registry.toolNames a.askedName = none := hname
    exact ⟨_, _, _, _, ⟨hr, hfree, rfl, rfl⟩, Registry.claimName_free hname' _, rfl, rfl⟩

theorem planTools_reject_cons_iff {p : Planner} {object : String} {a : Action}
    {rest : List (String × Action)} (hp : p.registry.policy = .reject) :
    (∃ x, p.planTools ((object, a) :: rest) = .ok x) ↔
      p.refuses a = false ∧ p.registry.holder? (.derive a.name) = none ∧
      Ordered.get? p.registry.toolNames a.askedName = none ∧
      ∃ x, (p.afterFreeTool object a).planTools rest = .ok x := by
  simp only [Prod.exists, planTools_cons_eq_ok_iff, planTool_reject_iff hp]
  constructor
  · rintro ⟨_, q, tool, p', tools, ⟨hr, hfree, hname, rfl, rfl⟩, hrest, rfl⟩
    exact ⟨hr, hfree, hname, tools, q, hrest⟩
  · rintro ⟨hr, hfree, hname, tools, q, hrest⟩
    exact ⟨_, q, _, _, tools, ⟨hr, hfree, hname, rfl, rfl⟩, hrest, rfl⟩

theorem afterFreeTool_strict (p : Planner) (object : String) (a : Action) :
    (p.afterFreeTool object a).strict = p.strict := rfl

theorem holder?_afterFreeTool {p : Planner} {object : String} {a : Action} {i : Identity} :
    (p.afterFreeTool object a).registry.holder? i = none ↔
      p.registry.holder? i = none ∧ Apart (.derive a.name) i :=
  holder?_afterFree

theorem toolNames_afterFreeTool {p : Planner} {object : String} {a : Action} {n : String} :
    Ordered.get? (p.afterFreeTool object a).registry.toolNames n = none ↔
      Ordered.get? p.registry.toolNames n = none ∧ n ≠ a.askedName := by
  have hname := @Registry.get?_recordName_eq_none (p.afterFree object a).registry
    (a.label (Text.strip object)) a.askedName n
  rwa [List.mem_singleton] at hname

/-- **When rejection lets a run of tools through**: it lets the plans through, and the names are
distinct and free. -/
theorem planTools_reject_iff : ∀ {as : List (String × Action)} {p : Planner},
    p.registry.policy = .reject → ((∃ x, p.planTools as = .ok x) ↔ Named p.strict as ∧
      (derivedIdentities as).Pairwise Apart ∧
      (∀ i ∈ derivedIdentities as, p.registry.holder? i = none) ∧
      (askedNames as).Nodup ∧ ∀ n ∈ askedNames as, Ordered.get? p.registry.toolNames n = none)
  | [], p, _ => by simp [planTools_nil, Named, derivedIdentities, askedNames]
  | (object, a) :: rest, p, hp => by
    have ih : (∃ x, (p.afterFreeTool object a).planTools rest = .ok x) ↔ _ :=
      planTools_reject_iff hp
    rw [planTools_reject_cons_iff hp, ih, named_cons, afterFreeTool_strict]
    have hnotin : (∀ n ∈ askedNames rest, n ≠ a.askedName) ↔ a.askedName ∉ askedNames rest :=
      ⟨fun h hmem => h _ hmem rfl, fun h n hn heq => h (heq ▸ hn)⟩
    simp only [derivedIdentities, askedNames, List.map_cons, List.pairwise_cons, List.nodup_cons,
      List.forall_mem_cons, holder?_afterFreeTool, toolNames_afterFreeTool, imp_and,
      forall_and] at hnotin ⊢
    tauto

/-! ## Warnings -/

/-- Unless identifiers are overwritten, a step finds no error. -/
theorem plan_clean {p q : Planner} {object : String} {a : Action} {plan : ActionPlan}
    (h : p.plan object a = (.ok plan, q)) (hp : p.registry.policy ≠ .overwrite)
    (hclean : p.Clean) : q.Clean := by
  obtain ⟨-, c, r, hclaim, -, rfl⟩ := plan_eq_ok_iff.mp h
  exact clean_after hclean (Registry.claim_not_error hclaim hp)

/-- Unless they are overwritten, collisions in a run are no errors. -/
theorem planAll_clean : ∀ {as : List (String × Action)} {p q : Planner} {plans : List ActionPlan},
    p.planAll as = .ok (plans, q) → p.registry.policy ≠ .overwrite → p.Clean → q.Clean
  | [], _, _, _, h, _, hclean => by
    obtain ⟨-, rfl⟩ := Prod.mk.inj (Except.ok.inj h)
    exact hclean
  | (object, a) :: rest, p, _, _, h, hp, hclean => by
    obtain ⟨plan, p', plans', hstep, hrest, rfl⟩ := planAll_cons_eq_ok_iff.mp h
    exact planAll_clean hrest ((plan_keeps hstep).1 ▸ hp) (plan_clean hstep hp hclean)

/-- Unless they are overwritten, collisions in a run of tools are no errors. -/
theorem ToolRun.clean {p q : Planner} {as : List (String × Action)}
    {log : List (ActionPlan × Claim String)} (h : ToolRun p as log q) :
    p.registry.policy ≠ .overwrite → p.Clean → q.Clean := by
  induction h with
  | nil p => exact fun _ hclean => hclean
  | @cons p p' q object a rest plan c r log hplan hclaim hrest ih =>
    intro hp hclean
    have hp' : p'.registry.policy ≠ .overwrite := (plan_keeps hplan).1 ▸ hp
    have hrest' : (p'.named c r).registry.policy ≠ .overwrite := by
      show r.policy ≠ .overwrite
      rwa [Registry.claimName_policy hclaim]
    exact ih hrest' fun f hf => (List.mem_append.mp hf).elim (plan_clean hplan hp hclean f)
      (Registry.claimName_not_error hclaim hp' f)

end Planner

/-! ## The fold -/

namespace DocumentState

/-- **When rejection lets a fold through**: the places are distinct and free. -/
theorem addAll_reject_iff : ∀ {ps : List ActionPlan} {d : DocumentState},
    (∃ e, d.addAll ps .reject = .ok e) ↔
      (ps.map ActionPlan.place).Nodup ∧ ∀ p ∈ ps, d.owner? p = none
  | [], d => by simp [addAll_nil]
  | p :: ps, d => by
    have howner : ∀ q, (d.write p).owner? q = none ↔ d.owner? q = none ∧ p.place ≠ q.place := by
      intro q
      rw [owner?, owner?, write, Ordered.get?_put]
      show (if p.place = q.place then some p.label else _) = none ↔ _
      split <;> simp_all
    have hstep : (∃ e, d.addAll (p :: ps) .reject = .ok e) ↔
        d.owner? p = none ∧ ∃ e, (d.write p).addAll ps .reject = .ok e := by
      simp only [addAll_cons_eq_ok_iff]
      constructor
      · rintro ⟨e, d', hadd, hrest⟩
        rcases add_cases hadd with ⟨hfree, rfl⟩ | ⟨_, -, hp, -⟩
        · exact ⟨hfree, e, hrest⟩
        · exact absurd rfl hp
      · rintro ⟨hfree, e, hrest⟩
        exact ⟨e, _, add_free hfree .reject, hrest⟩
    rw [hstep, addAll_reject_iff]
    have hnotin : (∀ q ∈ ps, p.place ≠ q.place) ↔ p.place ∉ ps.map ActionPlan.place := by
      simp [eq_comm]
    simp only [howner, List.map_cons, List.nodup_cons, List.forall_mem_cons, imp_and, forall_and,
      hnotin]
    tauto

/-- A fold does the same whether it is to overwrite or to rename. -/
theorem addAll_suffix (ps : List ActionPlan) (d : DocumentState) :
    d.addAll ps .suffix = d.addAll ps .overwrite := by
  have hadd : ∀ (d : DocumentState) (p : ActionPlan), d.add p .suffix = d.add p .overwrite := by
    intro d p
    unfold add
    cases d.owner? p <;> rfl
  simp only [addAll, hadd]

end DocumentState

/-! ## Documents and tools -/

/-- The places of plans are those of their actions. -/
theorem Planner.planAll_place {as : List (String × Action)} {p q : Planner}
    {plans : List ActionPlan} (h : p.planAll as = .ok (plans, q)) :
    plans.map ActionPlan.place = places as := by
  have hplaces := congrArg (List.map fun x : String × String × Verb => (x.2.1, x.2.2.key))
    (Planner.planAll_places h)
  rwa [List.map_map, List.map_map] at hplaces

theorem assemble_reject_iff {config : Config} {scope : Scope} (hp : config.collisions = .reject) :
    (∃ c, assemble config scope = .ok c) ↔ Named config.strict scope.actions ∧
      (places scope.actions).Nodup ∧ (derivedIdentities scope.actions).Pairwise Apart := by
  have hplan : (∃ x, (Planner.new config).planAll scope.actions = .ok x) ↔ _ :=
    Planner.planAll_reject_iff hp
  simp only [assemble_eq_ok_iff, hp]
  constructor
  · rintro ⟨c, plans, planner, state, hrun, hstate, -⟩
    obtain ⟨hnamed, hapart, -⟩ := hplan.mp ⟨_, hrun⟩
    rw [← Planner.planAll_place hrun]
    exact ⟨hnamed, (DocumentState.addAll_reject_iff.mp ⟨_, hstate⟩).1, hapart⟩
  · rintro ⟨hnamed, hplaces, hapart⟩
    obtain ⟨⟨plans, planner⟩, hrun⟩ := hplan.mpr ⟨hnamed, hapart, fun _ _ => rfl⟩
    rw [← Planner.planAll_place hrun] at hplaces
    obtain ⟨state, hstate⟩ :=
      (DocumentState.addAll_reject_iff (d := {})).mpr ⟨hplaces, fun _ _ => rfl⟩
    exact ⟨_, plans, planner, state, hrun, hstate, rfl⟩

theorem assemble_suffix_iff {config : Config} {scope : Scope} (hp : config.collisions = .suffix) :
    Succeeds (assemble config scope) ↔
      Named config.strict scope.actions ∧ (places scope.actions).Nodup := by
  have hpolicy : (Planner.new config).registry.policy ≠ .reject := by
    show config.collisions ≠ .reject
    simp [hp]
  have hfails : (∃ e, (Planner.new config).planAll scope.actions = .error e) ↔ _ :=
    Planner.planAll_eq_error_iff hpolicy
  rw [← Planner.not_named_iff] at hfails
  constructor
  · rintro ⟨c, hc, herr⟩
    obtain ⟨plans, planner, state, hrun, hstate, rfl⟩ := assemble_eq_ok_iff.mp hc
    refine ⟨by_contra fun hnot => ?_, ?_⟩
    · obtain ⟨e, he⟩ := hfails.mpr hnot
      exact absurd (hrun.symm.trans he) (by simp)
    · rw [hasErrors_eq_false_iff] at herr
      rw [hp, DocumentState.addAll_suffix] at hstate
      have hreject := DocumentState.addAll_of_overwrite hstate
        fun f hf => herr f (List.mem_append_right _ hf)
      rw [← Planner.planAll_place hrun]
      exact (DocumentState.addAll_reject_iff.mp ⟨_, hreject⟩).1
  · rintro ⟨hnamed, hplaces⟩
    cases hrun : (Planner.new config).planAll scope.actions with
    | error e => exact absurd hnamed (hfails.mp ⟨e, hrun⟩)
    | ok x =>
      obtain ⟨plans, planner⟩ := x
      rw [← Planner.planAll_place hrun] at hplaces
      obtain ⟨state, hstate⟩ :=
        (DocumentState.addAll_reject_iff (d := {})).mpr ⟨hplaces, fun _ _ => rfl⟩
      obtain ⟨hfindings, hall⟩ := DocumentState.addAll_of_reject hstate
      refine ⟨_, assemble_eq_ok_iff.mpr ⟨plans, planner, state, hrun, hall _, rfl⟩,
        hasErrors_eq_false_iff.mpr fun f hf => ?_⟩
      rw [hfindings, List.append_nil] at hf
      exact Planner.planAll_clean hrun (by show config.collisions ≠ .overwrite; simp [hp])
        (Planner.clean_new config) f hf

/-- **When a document is made without an error**, whatever the policy. -/
theorem assemble_succeeds_iff {config : Config} {scope : Scope} :
    Succeeds (assemble config scope) ↔ Named config.strict scope.actions ∧
      (places scope.actions).Nodup ∧
      (config.collisions ≠ .suffix → (derivedIdentities scope.actions).Pairwise Apart) := by
  by_cases hp : config.collisions = .suffix
  · rw [assemble_suffix_iff hp]
    simp [hp]
  · have hreject : Succeeds (assemble config scope) ↔ _ :=
      (assemble_agree config scope).succeeds_iff hp
    rw [hreject, assemble_reject_iff rfl]
    simp only [ne_eq, hp, not_false_eq_true, forall_const]
    rfl

theorem descriptors_reject_iff {config : Config} {scope : Scope}
    (hp : config.collisions = .reject) : (∃ c, descriptors config scope = .ok c) ↔
      Named config.strict scope.actions ∧ (derivedIdentities scope.actions).Pairwise Apart ∧
      (askedNames scope.actions).Nodup := by
  have hrun : (∃ x, (Planner.new config).planTools scope.actions = .ok x) ↔ _ :=
    Planner.planTools_reject_iff hp
  simp only [descriptors_eq_ok_iff]
  constructor
  · rintro ⟨c, tools, planner, htools, -⟩
    obtain ⟨hnamed, hapart, -, hnodup, -⟩ := hrun.mp ⟨_, htools⟩
    exact ⟨hnamed, hapart, hnodup⟩
  · rintro ⟨hnamed, hapart, hnodup⟩
    obtain ⟨⟨tools, planner⟩, htools⟩ :=
      hrun.mpr ⟨hnamed, hapart, fun _ _ => rfl, hnodup, fun _ _ => rfl⟩
    exact ⟨_, tools, planner, htools, rfl⟩

theorem descriptors_suffix_iff {config : Config} {scope : Scope}
    (hp : config.collisions = .suffix) :
    Succeeds (descriptors config scope) ↔ Named config.strict scope.actions := by
  have hpolicy : ∀ policy, policy ≠ .suffix →
      (Planner.new config).registry.policy ≠ policy := by
    rintro policy hne heq
    exact hne (heq.symm.trans hp)
  have hfails : (∃ e, (Planner.new config).planTools scope.actions = .error e) ↔ _ :=
    Planner.planTools_eq_error_iff (hpolicy .reject (by simp))
  rw [← Planner.not_named_iff] at hfails
  constructor
  · rintro ⟨c, hc, -⟩
    obtain ⟨tools, planner, htools, -⟩ := descriptors_eq_ok_iff.mp hc
    refine by_contra fun hnot => ?_
    obtain ⟨e, he⟩ := hfails.mpr hnot
    exact absurd (htools.symm.trans he) (by simp)
  · intro hnamed
    cases htools : (Planner.new config).planTools scope.actions with
    | error e => exact absurd hnamed (hfails.mp ⟨e, htools⟩)
    | ok x =>
      obtain ⟨tools, planner⟩ := x
      obtain ⟨log, hrun, -⟩ := Planner.planTools_eq_ok_iff.mp htools
      exact ⟨_, descriptors_eq_ok_iff.mpr ⟨tools, planner, htools, rfl⟩,
        hasErrors_eq_false_iff.mpr
          (hrun.clean (hpolicy .overwrite (by simp)) (Planner.clean_new config))⟩

/-- **When tools are made without an error**, whatever the policy. -/
theorem descriptors_succeeds_iff {config : Config} {scope : Scope} :
    Succeeds (descriptors config scope) ↔ Named config.strict scope.actions ∧
      (config.collisions ≠ .suffix → (derivedIdentities scope.actions).Pairwise Apart ∧
        (askedNames scope.actions).Nodup) := by
  by_cases hp : config.collisions = .suffix
  · rw [descriptors_suffix_iff hp]
    simp [hp]
  · have hreject : Succeeds (descriptors config scope) ↔ _ :=
      (descriptors_agree config scope).succeeds_iff hp
    rw [hreject, descriptors_reject_iff rfl]
    simp only [ne_eq, hp, not_false_eq_true, forall_const]
    rfl

/-! ## Dialects and target languages -/

/-- A compilation that goes on from another and adds warnings only succeeds just if that does. -/
theorem succeeds_bind_iff {α β : Type} {run : Except Failure (Compiled α)} {f : α → β}
    {more : α → List Finding} (hmore : ∀ x, ∀ w ∈ more x, w.isError = false) :
    Succeeds (run >>= fun c => .ok ⟨f c.output, c.findings ++ more c.output⟩) ↔ Succeeds run := by
  cases run with
  | error e => simp [Succeeds, bind, Except.bind]
  | ok c =>
    have hnone : (more c.output).any Finding.isError = false := by simpa using hmore c.output
    show Succeeds (.ok ⟨f c.output, c.findings ++ more c.output⟩) ↔ _
    simp only [Succeeds, Except.ok.injEq, exists_eq_left', Compiled.hasErrors, List.any_append,
      hnone, Bool.or_false]

/-- What a dialect loses is no error. -/
theorem Tool.loss_not_error {t : Tool} {d : Dialect} {f : Finding} (h : f ∈ t.loss d) :
    f.isError = false := by
  unfold Tool.loss at h
  split at h
  · exact absurd h List.not_mem_nil
  · split at h
    · exact absurd h List.not_mem_nil
    · rw [List.mem_singleton.mp h]
      rfl

theorem emit_succeeds_iff {config : Config} {scope : Scope} (d : Dialect) :
    Succeeds (emit config scope d) ↔ Succeeds (descriptors config scope) := by
  refine succeeds_bind_iff fun tools f hf => ?_
  obtain ⟨t, -, ht⟩ := List.mem_flatMap.mp hf
  exact Tool.loss_not_error ht

/-- A name that is bound otherwise is no error. -/
theorem NameScope.bind_not_error {s : NameScope} {candidate sep owner : String} {f : Finding}
    (h : f ∈ (s.bind candidate sep owner).2.1) : f.isError = false := by
  simp only [NameScope.bind] at h
  split at h
  · exact absurd h List.not_mem_nil
  · rw [List.mem_singleton.mp h]
    rfl

theorem PythonTool.bindFields_cons (tool : Tool) (s : NameScope) (key : String) (schema : Schema)
    (rest : List (String × Schema)) : (bindFields tool s ((key, schema) :: rest)).2 =
      (s.bind (pythonIdentifier key) "_" (tool.name ++ "." ++ key)).2.1 ++ (bindFields tool
        (s.bind (pythonIdentifier key) "_" (tool.name ++ "." ++ key)).2.2 rest).2 := by
  rw [bindFields]

theorem PythonTool.bindFields_not_error {tool : Tool} {fields : List (String × Schema)}
    {s : NameScope} {f : Finding} (h : f ∈ (bindFields tool s fields).2) : f.isError = false := by
  induction fields generalizing s with
  | nil => exact absurd h List.not_mem_nil
  | cons field rest ih =>
    rw [bindFields_cons, List.mem_append] at h
    exact h.elim NameScope.bind_not_error ih

theorem PythonTool.bind_not_error {s : NameScope} {tool : Tool} {f : Finding}
    (h : f ∈ (PythonTool.bind s tool).2.1) : f.isError = false := by
  simp only [PythonTool.bind, List.mem_append] at h
  rcases h with ((h | h) | h) | h
  · exact NameScope.bind_not_error h
  · exact NameScope.bind_not_error h
  · exact NameScope.bind_not_error h
  · exact bindFields_not_error h

theorem PythonModule.bindTools_cons (s : NameScope) (tool : Tool) (rest : List Tool) :
    (bindTools s (tool :: rest)).2 = (PythonTool.bind s tool).2.1 ++
      (bindTools (PythonTool.bind s tool).2.2 rest).2 := by
  rw [bindTools]

theorem PythonModule.bindTools_not_error {tools : List Tool} {s : NameScope} {f : Finding}
    (h : f ∈ (bindTools s tools).2) : f.isError = false := by
  induction tools generalizing s with
  | nil => exact absurd h List.not_mem_nil
  | cons tool rest ih =>
    rw [bindTools_cons, List.mem_append] at h
    exact h.elim PythonTool.bind_not_error ih

theorem TypeScriptModule.bindTools_cons (s : NameScope) (tool : Tool) (rest : List Tool) :
    (bindTools s (tool :: rest)).2 =
      (s.bind (argumentsName tool.name) "" tool.name).2.1 ++
      (bindTools (s.bind (argumentsName tool.name) "" tool.name).2.2 rest).2 := by
  rw [bindTools]

theorem TypeScriptModule.bindTools_not_error {tools : List Tool} {s : NameScope} {f : Finding}
    (h : f ∈ (bindTools s tools).2) : f.isError = false := by
  induction tools generalizing s with
  | nil => exact absurd h List.not_mem_nil
  | cons tool rest ih =>
    rw [bindTools_cons, List.mem_append] at h
    exact h.elim NameScope.bind_not_error ih

/-- What is found about the names of generated code is no error. -/
theorem CodeTarget.render_not_error {target : CodeTarget} {tools : List Tool} {f : Finding}
    (h : f ∈ (target.render tools).findings) : f.isError = false := by
  cases target with
  | python => exact PythonModule.bindTools_not_error h
  | typescript => exact TypeScriptModule.bindTools_not_error h

theorem generate_succeeds_iff {config : Config} {scope : Scope} (target : CodeTarget) :
    Succeeds (generate config scope target) ↔ Succeeds (descriptors config scope) :=
  @succeeds_bind_iff _ _ _ (fun tools => (target.render tools).output)
    (fun tools => (target.render tools).findings) fun _ _ hf => CodeTarget.render_not_error hf

/-- Everything that can be made of a scope is made without an error. -/
structure Compiles (config : Config) (scope : Scope) : Prop where
  document : Succeeds (assemble config scope)
  tools : ∀ dialect, Succeeds (emit config scope dialect)
  code : ∀ target, Succeeds (generate config scope target)

/-- **A scope compiles just if its actions keep out of each other's way.** -/
theorem compiles_iff {config : Config} {scope : Scope} :
    Compiles config scope ↔ Clear config scope.actions := by
  constructor
  · intro h
    obtain ⟨hnamed, hplaces, hids⟩ := assemble_succeeds_iff.mp h.document
    obtain ⟨-, hnames⟩ := descriptors_succeeds_iff.mp ((emit_succeeds_iff default).mp (h.tools _))
    exact ⟨hnamed, hplaces, hids, fun hp => (hnames hp).2⟩
  · intro h
    have htools : Succeeds (descriptors config scope) :=
      descriptors_succeeds_iff.mpr ⟨h.named, fun hp => ⟨h.identities hp, h.names hp⟩⟩
    exact ⟨assemble_succeeds_iff.mpr ⟨h.named, h.places, h.identities⟩,
      fun d => (emit_succeeds_iff d).mpr htools, fun t => (generate_succeeds_iff t).mpr htools⟩

/-! ## The check -/

/-- A check ends without a failure: it goes through, and no diagnostic that is left is an error. -/
def Passes (config : Config) (o : Ontology) : Prop :=
  ∃ r, check config o = .ok r ∧ r.errors = 0

namespace CommandLine

/-- What a check of an ontology shows, and the trouble that it ends in. -/
def checked (config : Config) (json : Bool) (o : Ontology) : Except Trouble Outcome :=
  match check config o with
  | .error e => .error ⟨[], e⟩
  | .ok r => .ok
    { output := if json then r.toJson.pretty ++ "\n" else r.text
      trouble := if r.errors = 0 then none else some ⟨[], .errorsFound r.errors⟩ }

/-- The command checks the ontology that it loads. -/
theorem reportOn_run {m : Type → Type} [Monad m] [LawfulMonad m] [Files m] (config : Config)
    (json : Bool) (file : String) : (reportOn config json file : Task m Outcome).run =
      (loadOntology file : Task m Ontology).run >>= fun loaded =>
        pure (loaded.bind (checked config json)) := by
  unfold reportOn
  rw [ExceptT.run_bind]
  refine bind_congr fun loaded => ?_
  cases loaded with
  | error t => rfl
  | ok o =>
    show ExceptT.run (settle [] (check config o) >>= _) = _
    rw [ExceptT.run_bind]
    unfold settle checked
    cases hc : check config o <;> simp [Except.bind, Except.mapError, hc]

/-- A check passes just if the command ends without trouble. -/
theorem passes_iff_checked {config : Config} {o : Ontology} (json : Bool) :
    Passes config o ↔ ∃ out, checked config json o = .ok out ∧ out.trouble = none := by
  unfold Passes checked
  cases check config o with
  | error e => simp
  | ok r => by_cases h : r.errors = 0 <;> simp [h]

end CommandLine

/-- What is odd about a configuration is no error. -/
theorem Config.findings_not_error {c : Config} {f : Finding} (h : f ∈ c.findings) :
    f.isError = false := by
  simp only [Config.findings, List.mem_append, List.mem_map] at h
  rcases h with (h | h) | ⟨server, -, rfl⟩
  · split at h
    · rw [List.mem_singleton.mp h]
      rfl
    · exact absurd h List.not_mem_nil
  · split at h
    · rw [List.mem_singleton.mp h]
      rfl
    · exact absurd h List.not_mem_nil
  · rfl

/-- **A report that keeps each diagnostic once hides no error.** -/
theorem errors_eraseDups_eq_zero_iff {fs : List Finding} :
    (Report.mk (fs.map Finding.diagnostic).eraseDups).errors = 0 ↔
      ∀ f ∈ fs, f.isError = false := by
  rw [Report.errors, List.length_eq_zero_iff, List.filter_eq_nil_iff]
  simp only [List.mem_eraseDups, List.forall_mem_map, Bool.not_eq_true]
  rfl

/-- Compilations one after the other go through without an error just if each of them does. -/
theorem mapM_succeeds_iff {α δ : Type} {run : δ → Except Failure (Compiled α)} :
    ∀ {ds : List δ}, (∃ cs, ds.mapM run = .ok cs ∧
      ∀ f ∈ cs.flatMap Compiled.findings, f.isError = false) ↔ ∀ d ∈ ds, Succeeds (run d)
  | [] => by simp [pure, Except.pure]
  | d :: ds => by
    rw [List.forall_mem_cons, ← mapM_succeeds_iff]
    simp only [List.mapM_cons, bind_eq_ok_iff, Succeeds, hasErrors_eq_false_iff]
    constructor
    · rintro ⟨_, ⟨c, hc, cs, hcs, heq⟩, herr⟩
      obtain rfl := Except.ok.inj heq
      rw [List.flatMap_cons] at herr
      exact ⟨⟨c, hc, fun f hf => herr f (List.mem_append_left _ hf)⟩,
        ⟨cs, hcs, fun f hf => herr f (List.mem_append_right _ hf)⟩⟩
    · rintro ⟨⟨c, hc, herr⟩, ⟨cs, hcs, hrest⟩⟩
      refine ⟨c :: cs, ⟨c, hc, cs, hcs, rfl⟩, fun f hf => ?_⟩
      rw [List.flatMap_cons, List.mem_append] at hf
      exact hf.elim (herr f) (hrest f)

theorem Dialect.mem_all (d : Dialect) : d ∈ all := by
  cases d <;> simp [all]

/-- A check passes just if the document and the tools of every dialect are made without an error. -/
theorem passes_iff_succeeds {config : Config} {o : Ontology} : Passes config o ↔
    Succeeds (assemble config (.whole o)) ∧ ∀ d, Succeeds (emit config (.whole o) d) := by
  have hemit : (∀ d, Succeeds (emit config (.whole o) d)) ↔
      ∀ d ∈ Dialect.all, Succeeds (emit config (.whole o) d) :=
    ⟨fun h d _ => h d, fun h d => h d (Dialect.mem_all d)⟩
  rw [hemit, ← mapM_succeeds_iff]
  unfold Passes check checkFindings
  simp only [bind_eq_ok_iff, Succeeds, hasErrors_eq_false_iff]
  constructor
  · rintro ⟨r, ⟨fs, ⟨c, hc, cs, hcs, hfs⟩, hr⟩, hzero⟩
    obtain rfl := Except.ok.inj hfs
    obtain rfl := Except.ok.inj hr
    rw [errors_eraseDups_eq_zero_iff] at hzero
    exact ⟨⟨c, hc, fun f hf => hzero f (List.mem_append_left _ (List.mem_append_right _ hf))⟩,
      cs, hcs, fun f hf => hzero f (List.mem_append_right _ hf)⟩
  · rintro ⟨⟨c, hc, herr⟩, cs, hcs, hrest⟩
    refine ⟨_, ⟨_, ⟨c, hc, cs, hcs, rfl⟩, rfl⟩, errors_eraseDups_eq_zero_iff.mpr fun f hf => ?_⟩
    rcases List.mem_append.mp hf with hf | hf
    · exact (List.mem_append.mp hf).elim Config.findings_not_error (herr f)
    · exact hrest f hf

/-- **A check passes just if the actions of the ontology keep out of each other's way.** -/
theorem passes_iff {config : Config} {o : Ontology} :
    Passes config o ↔ Clear config (Scope.whole o).actions := by
  rw [passes_iff_succeeds, ← compiles_iff]
  constructor
  · rintro ⟨hdocument, htools⟩
    have hdescriptors := (emit_succeeds_iff default).mp (htools default)
    exact ⟨hdocument, htools, fun t => (generate_succeeds_iff t).mpr hdescriptors⟩
  · exact fun h => ⟨h.document, h.tools⟩

/-- **A selection picks out a part of the actions**, in their order. -/
theorem Selection.actions_sublist {s : Selection} {o : Ontology} {scope : Scope}
    (h : s.scope o = .ok scope) : scope.actions.Sublist (Scope.whole o).actions := by
  have hobject : ∀ {e : Entity}, e ∈ o.objects →
      (Scope.objectActions e).Sublist (Scope.whole o).actions := by
    intro e he
    rw [Scope.actions, List.flatMap]
    exact List.sublist_flatten_of_mem (List.mem_map_of_mem he)
  unfold Selection.scope at h
  split at h
  · obtain rfl := Except.ok.inj h
    exact List.Sublist.refl _
  · split at h
    · exact absurd h (by simp)
    · rename_i e he
      have hmem := Ontology.mem_of_object? he
      split at h
      · obtain rfl := Except.ok.inj h
        exact hobject hmem
      · split at h
        · exact absurd h (by simp)
        · rename_i a ha
          obtain rfl := Except.ok.inj h
          have haction : a ∈ e.actions := by
            unfold Entity.action? at ha
            split at ha
            · rename_i b hb
              exact Option.some.inj ha ▸ List.mem_of_find?_eq_some hb
            · exact List.mem_of_find?_eq_some ha
          exact (List.singleton_sublist.mpr (List.mem_map_of_mem haction)).trans (hobject hmem)

/-- **A check speaks for every selection, and hides no error.** A check passes just if the document
and the tools of every dialect are made of the whole ontology without an error: where one of these
fails or finds an error, the check fails. And where a check passes, whatever can be selected
compiles without an error, into a document, into the tools of every dialect and into the code of
every target language. -/
theorem check_sound (config : Config) (o : Ontology) :
    (Passes config o ↔ Succeeds (assemble config (.whole o)) ∧
      ∀ dialect, Succeeds (emit config (.whole o) dialect)) ∧
    (Passes config o → ∀ (s : Selection) (scope : Scope), s.scope o = .ok scope →
      Compiles config scope) := by
  refine ⟨passes_iff_succeeds, fun h s scope hs => ?_⟩
  exact compiles_iff.mpr ((passes_iff.mp h).sublist (Selection.actions_sublist hs))

/-- Two objects with an action of one name. -/
def Ontology.namesakes : Ontology :=
  { objects := [{ name := "Order", actions := [.named "Approve"] },
    { name := "Invoice", actions := [.named "Approve"] }] }

/-- In the whole ontology the second of the two actions is renamed, and alone it is not; the check
speaks for both. -/
theorem check_sound_namesakes :
    Passes { collisions := .suffix } .namesakes ∧
      ∃ scope, ({ object := some "invoice" } : Selection).scope .namesakes = .ok scope ∧
        Compiles { collisions := .suffix } scope ∧
        (askedNames scope.actions).Sublist (askedNames (Scope.whole .namesakes).actions) := by
  have hpasses : Passes { collisions := .suffix } .namesakes :=
    passes_iff.mpr
      { named := fun h => absurd h (by decide)
        places := by decide +kernel
        identities := fun h => absurd rfl h
        names := fun h => absurd rfl h }
  have hscope : ∃ scope, ({ object := some "invoice" } : Selection).scope .namesakes = .ok scope :=
    ⟨_, rfl⟩
  obtain ⟨scope, hscope⟩ := hscope
  exact ⟨hpasses, scope, hscope, (check_sound _ _).2 hpasses _ scope hscope,
    (Selection.actions_sublist hscope).map _⟩

end OntologyCompiler
