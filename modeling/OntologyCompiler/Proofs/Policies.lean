import OntologyCompiler.Proofs.References
import OntologyCompiler.Proofs.ToolPlanning

/-!
# The collision policies agree where nothing collides

A run that rejects collisions goes through exactly when the run that overwrites finds no error, and
then it makes no difference which policy is chosen: every step meets free identifiers, free tool
names and free places only. Each stage is compared on its own, one step first, then a run.

* `claim_of_reject`, `claimName_of_reject`, `addAll_of_reject`: what rejection lets through, every
  policy lets through with the same result.
* `claim_of_overwrite`, `claimName_of_overwrite`, `addAll_of_overwrite`: what overwriting does
  without an error, rejection lets through.
* `assemble_eq_error_iff`, `descriptors_eq_error_iff`: without rejection only a missing name ends a
  compilation.
* `policies_agree`: these facts for documents and for tools.
-/

namespace OntologyCompiler

/-- The results of a compilation under the three policies fit together. -/
structure PoliciesAgree {α : Type} (run : CollisionPolicy → Except Failure (Compiled α))
    (unnamed : Prop) : Prop where
  /-- Rejection succeeds exactly when overwriting succeeds without an error. -/
  reject_iff : (∃ c, run .reject = .ok c) ↔ ∃ c, run .overwrite = .ok c ∧ c.hasErrors = false
  /-- What rejection comes to, every policy comes to, findings included. -/
  same : ∀ c, run .reject = .ok c → ∀ policy, run policy = .ok c
  /-- Without rejection only a missing name ends the compilation. -/
  fails_iff : ∀ policy, policy ≠ .reject → ((∃ e, run policy = .error e) ↔ unnamed)

namespace Finding

theorem identifierReplaced_isError (label identifier first : String) :
    (identifierReplaced label identifier first).isError = true := rfl

theorem toolNameReused_isError (label toolName first : String) :
    (toolNameReused label toolName first).isError = true := rfl

theorem operationReplaced_isError (label first : String) (verb : Verb) (path : String) :
    (operationReplaced label first verb path).isError = true := rfl

end Finding

/-! ## Claims -/

namespace Registry

/-- The same registry under another policy. -/
def withPolicy (r : Registry) (policy : CollisionPolicy) : Registry :=
  { r with policy := policy }

theorem claim_of_reject {r s : Registry} {label : String} {i : Identity} {c : Claim Identity}
    (h : (r.withPolicy .reject).claim label i = .ok (c, s)) :
    c.finding = none ∧
      ∀ policy, (r.withPolicy policy).claim label i = .ok (c, s.withPolicy policy) := by
  rcases claim_cases h with ⟨hfree, rfl, rfl⟩ | ⟨_, -, hp, -⟩ | ⟨_, -, hp, -⟩
  · exact ⟨rfl, fun policy => claim_free (r := r.withPolicy policy) hfree label⟩
  · exact absurd hp (by simp [withPolicy])
  · exact absurd hp (by simp [withPolicy])

theorem claim_of_overwrite {r s : Registry} {label : String} {i : Identity} {c : Claim Identity}
    (h : (r.withPolicy .overwrite).claim label i = .ok (c, s))
    (hc : ∀ f, c.finding = some f → f.isError = false) :
    (r.withPolicy .reject).claim label i = .ok (c, s.withPolicy .reject) := by
  rcases claim_cases h with ⟨hfree, rfl, rfl⟩ | ⟨first, -, -, rfl, -⟩ | ⟨_, -, hp, -⟩
  · exact claim_free (r := r.withPolicy .reject) hfree label
  · have := hc _ rfl
    rw [Finding.identifierReplaced_isError] at this
    exact absurd this (by simp)
  · exact absurd hp (by simp [withPolicy])

theorem claimName_of_reject {r s : Registry} {label toolName : String} {c : Claim String}
    (h : (r.withPolicy .reject).claimName label toolName = .ok (c, s)) :
    c.finding = none ∧
      ∀ policy, (r.withPolicy policy).claimName label toolName = .ok (c, s.withPolicy policy) := by
  rcases claimName_cases h with ⟨hfree, rfl, rfl⟩ | ⟨_, -, hp, -⟩ | ⟨_, -, hp, -⟩
  · exact ⟨rfl, fun policy => claimName_free (r := r.withPolicy policy) hfree label⟩
  · exact absurd hp (by simp [withPolicy])
  · exact absurd hp (by simp [withPolicy])

theorem claimName_of_overwrite {r s : Registry} {label toolName : String} {c : Claim String}
    (h : (r.withPolicy .overwrite).claimName label toolName = .ok (c, s))
    (hc : ∀ f, c.finding = some f → f.isError = false) :
    (r.withPolicy .reject).claimName label toolName = .ok (c, s.withPolicy .reject) := by
  rcases claimName_cases h with ⟨hfree, rfl, rfl⟩ | ⟨first, -, -, rfl, -⟩ | ⟨_, -, hp, -⟩
  · exact claimName_free (r := r.withPolicy .reject) hfree label
  · have := hc _ rfl
    rw [Finding.toolNameReused_isError] at this
    exact absurd this (by simp)
  · exact absurd hp (by simp [withPolicy])

end Registry

/-! ## Planning -/

namespace Planner

/-- The same state of planning under another policy. -/
def withPolicy (p : Planner) (policy : CollisionPolicy) : Planner :=
  { p with registry := p.registry.withPolicy policy }

/-- A state is its own state under its own policy. -/
theorem withPolicy_self {p : Planner} {policy : CollisionPolicy} (h : p.registry.policy = policy) :
    p = p.withPolicy policy := by
  subst h
  rfl

/-- No error has been found yet. -/
def Clean (p : Planner) : Prop :=
  ∀ f ∈ p.findings, f.isError = false

theorem clean_after {p : Planner} {object : String} {a : Action} {c : Claim Identity}
    {r : Registry} (hp : p.Clean) (hc : ∀ f ∈ c.finding.toList, f.isError = false) :
    (p.after object a c r).Clean := by
  intro f hf
  simp only [after, List.mem_append] at hf
  rcases hf with (hf | hf) | (hf | hf)
  · exact hp f hf
  · exact Action.nameFinding_not_error hf
  · exact hc f hf
  · exact Action.verbFinding_not_error hf

theorem plan_of_reject {p q : Planner} {object : String} {a : Action} {plan : ActionPlan}
    (h : (p.withPolicy .reject).plan object a = (.ok plan, q)) :
    (p.Clean → q.Clean) ∧
      ∀ policy, (p.withPolicy policy).plan object a = (.ok plan, q.withPolicy policy) := by
  obtain ⟨hr, c, r, hclaim, rfl, rfl⟩ := plan_eq_ok_iff.mp h
  obtain ⟨hnone, hall⟩ := Registry.claim_of_reject hclaim
  exact ⟨fun hp => clean_after hp (by simp [hnone]), fun policy =>
    plan_eq_ok_iff.mpr ⟨hr, c, r.withPolicy policy, hall policy, rfl, rfl⟩⟩

theorem plan_of_overwrite {p q : Planner} {object : String} {a : Action} {plan : ActionPlan}
    (h : (p.withPolicy .overwrite).plan object a = (.ok plan, q)) (hq : q.Clean) :
    (p.withPolicy .reject).plan object a = (.ok plan, q.withPolicy .reject) := by
  obtain ⟨hr, c, r, hclaim, rfl, rfl⟩ := plan_eq_ok_iff.mp h
  have hc : ∀ f, c.finding = some f → f.isError = false :=
    fun f hf => hq f (mem_findings_after hf)
  exact plan_eq_ok_iff.mpr
    ⟨hr, c, r.withPolicy .reject, Registry.claim_of_overwrite hclaim hc, rfl, rfl⟩

theorem planAll_of_reject : ∀ {as : List (String × Action)} {p q : Planner}
    {plans : List ActionPlan}, (p.withPolicy .reject).planAll as = .ok (plans, q) →
    (p.Clean → q.Clean) ∧
      ∀ policy, (p.withPolicy policy).planAll as = .ok (plans, q.withPolicy policy)
  | [], p, _, _, h => by
    obtain ⟨rfl, rfl⟩ := Prod.mk.inj (Except.ok.inj h)
    exact ⟨id, fun policy => rfl⟩
  | (object, a) :: rest, p, q, _, h => by
    obtain ⟨plan, p', plans', hstep, hrest, rfl⟩ := planAll_cons_eq_ok_iff.mp h
    obtain ⟨hclean, hall⟩ := plan_of_reject hstep
    rw [withPolicy_self (plan_keeps hstep).1] at hrest
    obtain ⟨hcleanRest, hallRest⟩ := planAll_of_reject hrest
    exact ⟨fun hp => hcleanRest (hclean hp), fun policy =>
      planAll_cons_eq_ok_iff.mpr ⟨plan, _, plans', hall policy, hallRest policy, rfl⟩⟩

theorem planAll_of_overwrite : ∀ {as : List (String × Action)} {p q : Planner}
    {plans : List ActionPlan}, (p.withPolicy .overwrite).planAll as = .ok (plans, q) → q.Clean →
    (p.withPolicy .reject).planAll as = .ok (plans, q.withPolicy .reject)
  | [], p, _, _, h, _ => by
    obtain ⟨rfl, rfl⟩ := Prod.mk.inj (Except.ok.inj h)
    rfl
  | (object, a) :: rest, p, q, _, h, hq => by
    obtain ⟨plan, p', plans', hstep, hrest, rfl⟩ := planAll_cons_eq_ok_iff.mp h
    have hclean : p'.Clean := fun f hf => hq f (planAll_findings_subset hrest hf)
    have hstep' := plan_of_overwrite hstep hclean
    rw [withPolicy_self (plan_keeps hstep).1] at hrest
    exact planAll_cons_eq_ok_iff.mpr
      ⟨plan, _, plans', hstep', planAll_of_overwrite hrest hq, rfl⟩

/-! ## Tools -/

theorem planTool_of_reject {p q : Planner} {object : String} {a : Action} {tool : Tool}
    (h : (p.withPolicy .reject).planTool object a = .ok (tool, q)) :
    (p.Clean → q.Clean) ∧
      ∀ policy, (p.withPolicy policy).planTool object a = .ok (tool, q.withPolicy policy) := by
  obtain ⟨plan, p', c, r, hplan, hclaim, rfl, rfl⟩ := planTool_eq_ok_iff.mp h
  obtain ⟨hclean, hall⟩ := plan_of_reject hplan
  rw [withPolicy_self (plan_keeps hplan).1] at hclaim
  obtain ⟨hnone, hallName⟩ := Registry.claimName_of_reject hclaim
  refine ⟨fun hp f hf => ?_, fun policy => planTool_eq_ok_iff.mpr
    ⟨plan, p'.withPolicy policy, c, r.withPolicy policy, hall policy, hallName policy, rfl, rfl⟩⟩
  simp only [named, hnone, Option.toList_none, List.append_nil] at hf
  exact hclean hp f hf

theorem planTool_of_overwrite {p q : Planner} {object : String} {a : Action} {tool : Tool}
    (h : (p.withPolicy .overwrite).planTool object a = .ok (tool, q)) (hq : q.Clean) :
    (p.withPolicy .reject).planTool object a = .ok (tool, q.withPolicy .reject) := by
  obtain ⟨plan, p', c, r, hplan, hclaim, rfl, rfl⟩ := planTool_eq_ok_iff.mp h
  have hclean : p'.Clean := fun f hf => hq f (List.mem_append_left _ hf)
  have hc : ∀ f, c.finding = some f → f.isError = false :=
    fun f hf => hq f (mem_findings_named hf)
  rw [withPolicy_self (plan_keeps hplan).1] at hclaim
  exact planTool_eq_ok_iff.mpr ⟨plan, p'.withPolicy .reject, c, r.withPolicy .reject,
    plan_of_overwrite hplan hclean, Registry.claimName_of_overwrite hclaim hc, rfl, rfl⟩

theorem planTools_of_reject : ∀ {as : List (String × Action)} {p q : Planner}
    {tools : List Tool}, (p.withPolicy .reject).planTools as = .ok (tools, q) →
    (p.Clean → q.Clean) ∧
      ∀ policy, (p.withPolicy policy).planTools as = .ok (tools, q.withPolicy policy)
  | [], p, _, _, h => by
    obtain ⟨rfl, rfl⟩ := Prod.mk.inj (Except.ok.inj h)
    exact ⟨id, fun policy => rfl⟩
  | (object, a) :: rest, p, q, _, h => by
    obtain ⟨tool, p', tools', hstep, hrest, rfl⟩ := planTools_cons_eq_ok_iff.mp h
    obtain ⟨hclean, hall⟩ := planTool_of_reject hstep
    rw [withPolicy_self (planTool_keeps hstep).1] at hrest
    obtain ⟨hcleanRest, hallRest⟩ := planTools_of_reject hrest
    exact ⟨fun hp => hcleanRest (hclean hp), fun policy =>
      planTools_cons_eq_ok_iff.mpr ⟨tool, _, tools', hall policy, hallRest policy, rfl⟩⟩

theorem planTools_of_overwrite : ∀ {as : List (String × Action)} {p q : Planner}
    {tools : List Tool}, (p.withPolicy .overwrite).planTools as = .ok (tools, q) → q.Clean →
    (p.withPolicy .reject).planTools as = .ok (tools, q.withPolicy .reject)
  | [], p, _, _, h, _ => by
    obtain ⟨rfl, rfl⟩ := Prod.mk.inj (Except.ok.inj h)
    rfl
  | (object, a) :: rest, p, q, _, h, hq => by
    obtain ⟨tool, p', tools', hstep, hrest, rfl⟩ := planTools_cons_eq_ok_iff.mp h
    have hclean : p'.Clean := fun f hf => hq f (planTools_findings_subset hrest hf)
    have hstep' := planTool_of_overwrite hstep hclean
    rw [withPolicy_self (planTool_keeps hstep).1] at hrest
    exact planTools_cons_eq_ok_iff.mpr
      ⟨tool, _, tools', hstep', planTools_of_overwrite hrest hq, rfl⟩

end Planner

/-! ## The fold -/

namespace DocumentState

theorem addAll_of_reject : ∀ {ps : List ActionPlan} {d e : DocumentState},
    d.addAll ps .reject = .ok e →
    e.findings = d.findings ∧ ∀ policy, d.addAll ps policy = .ok e
  | [], d, _, h => by
    obtain rfl := Except.ok.inj h
    exact ⟨rfl, fun policy => rfl⟩
  | p :: ps, d, e, h => by
    obtain ⟨d', hstep, hrest⟩ := addAll_cons_eq_ok_iff.mp h
    rcases add_cases hstep with ⟨hfree, rfl⟩ | ⟨_, -, hp, -⟩
    · obtain ⟨hfindings, hall⟩ := addAll_of_reject hrest
      exact ⟨hfindings, fun policy =>
        addAll_cons_eq_ok_iff.mpr ⟨_, add_free hfree policy, hall policy⟩⟩
    · exact absurd rfl hp

/-- What was found before a step stays found. -/
theorem addAll_findings_subset : ∀ {ps : List ActionPlan} {d e : DocumentState}
    {policy : CollisionPolicy}, d.addAll ps policy = .ok e → d.findings ⊆ e.findings
  | [], _, _, _, h => by
    obtain rfl := Except.ok.inj h
    exact List.Subset.refl _
  | p :: ps, d, e, policy, h => by
    obtain ⟨d', hstep, hrest⟩ := addAll_cons_eq_ok_iff.mp h
    refine List.Subset.trans ?_ (addAll_findings_subset hrest)
    rcases add_cases hstep with ⟨-, rfl⟩ | ⟨_, -, -, rfl⟩
    · exact List.Subset.refl _
    · exact List.subset_append_left _ _

theorem addAll_of_overwrite : ∀ {ps : List ActionPlan} {d e : DocumentState},
    d.addAll ps .overwrite = .ok e → (∀ f ∈ e.findings, f.isError = false) →
    d.addAll ps .reject = .ok e
  | [], _, _, h, _ => h
  | p :: ps, d, e, h, he => by
    obtain ⟨d', hstep, hrest⟩ := addAll_cons_eq_ok_iff.mp h
    rcases add_cases hstep with ⟨hfree, rfl⟩ | ⟨first, -, -, rfl⟩
    · exact addAll_cons_eq_ok_iff.mpr
        ⟨_, add_free hfree .reject, addAll_of_overwrite hrest he⟩
    · have herr := he _ (addAll_findings_subset hrest
        (List.mem_append_right _ (List.mem_singleton.mpr rfl)))
      rw [Finding.operationReplaced_isError] at herr
      exact absurd herr (by simp)

/-- Without rejection every run goes through. -/
theorem exists_addAll {policy : CollisionPolicy} (hp : policy ≠ .reject) :
    ∀ (ps : List ActionPlan) (d : DocumentState), ∃ e, d.addAll ps policy = .ok e
  | [], d => ⟨d, rfl⟩
  | p :: ps, d => by
    cases hstep : d.add p policy with
    | error e => exact absurd (add_eq_error_iff.mp hstep).1 hp
    | ok d' =>
      obtain ⟨e, he⟩ := exists_addAll hp ps d'
      exact ⟨e, addAll_cons_eq_ok_iff.mpr ⟨d', hstep, he⟩⟩

end DocumentState

/-! ## Whole compilations -/

theorem Planner.new_withPolicy (config : Config) (policy : CollisionPolicy) :
    Planner.new (config.withPolicy policy) = (Planner.new config).withPolicy policy := rfl

theorem Planner.clean_new (config : Config) : (Planner.new config).Clean :=
  fun _ h => absurd h List.not_mem_nil

/-- The tools of a scope are those of a run of the planner. -/
theorem descriptors_eq_ok_iff {config : Config} {scope : Scope} {c : Compiled (List Tool)} :
    descriptors config scope = .ok c ↔ ∃ tools planner,
      (Planner.new config).planTools scope.actions = .ok (tools, planner) ∧
      c = ⟨tools, planner.findings⟩ := by
  unfold descriptors
  simp only [bind_eq_ok_iff, Prod.exists]
  constructor
  · rintro ⟨tools, planner, hrun, hc⟩
    exact ⟨tools, planner, hrun, (Except.ok.inj hc).symm⟩
  · rintro ⟨tools, planner, hrun, rfl⟩
    exact ⟨tools, planner, hrun, rfl⟩

theorem hasErrors_eq_false_iff {α : Type} {c : Compiled α} :
    c.hasErrors = false ↔ ∀ f ∈ c.findings, f.isError = false := by
  simp [Compiled.hasErrors]

section Whole

variable {config : Config} {scope : Scope}

/-- What rejection comes to, every policy comes to, and there is no error in it. -/
theorem assemble_of_reject {c : Compiled OpenApi}
    (hc : assemble (config.withPolicy .reject) scope = .ok c) : c.hasErrors = false ∧
      ∀ policy, assemble (config.withPolicy policy) scope = .ok c := by
  obtain ⟨plans, planner, state, hplan, hstate, rfl⟩ := assemble_eq_ok_iff.mp hc
  rw [Planner.new_withPolicy] at hplan
  obtain ⟨hclean, hall⟩ := Planner.planAll_of_reject hplan
  obtain ⟨hfindings, hallState⟩ := DocumentState.addAll_of_reject hstate
  refine ⟨hasErrors_eq_false_iff.mpr fun f hf => ?_, fun policy =>
    assemble_eq_ok_iff.mpr ⟨plans, _, state, hall policy, hallState policy, rfl⟩⟩
  rw [hfindings] at hf
  exact hclean (Planner.clean_new config) f (by simpa using hf)

/-- What overwriting comes to without an error, rejection comes to. -/
theorem assemble_of_overwrite {c : Compiled OpenApi}
    (hc : assemble (config.withPolicy .overwrite) scope = .ok c) (herr : c.hasErrors = false) :
    assemble (config.withPolicy .reject) scope = .ok c := by
  obtain ⟨plans, planner, state, hplan, hstate, rfl⟩ := assemble_eq_ok_iff.mp hc
  rw [Planner.new_withPolicy] at hplan
  rw [hasErrors_eq_false_iff] at herr
  exact assemble_eq_ok_iff.mpr ⟨plans, _, state,
    Planner.planAll_of_overwrite hplan fun f hf => herr f (List.mem_append_left _ hf),
    DocumentState.addAll_of_overwrite hstate fun f hf => herr f (List.mem_append_right _ hf), rfl⟩

/-- Unless collisions are rejected, a document fails only for want of a name. -/
theorem assemble_eq_error_iff (hp : config.collisions ≠ .reject) :
    (∃ e, assemble config scope = .error e) ↔
      config.strict = true ∧ ∃ e ∈ scope.actions, Text.isBlankText e.2.name = true := by
  have hp' : (Planner.new config).registry.policy ≠ .reject := hp
  refine Iff.trans ?_ (Planner.planAll_eq_error_iff hp')
  unfold assemble
  simp only [bind_eq_error_iff, Prod.exists]
  constructor
  · rintro ⟨e, he | ⟨plans, planner, hplan, he | ⟨_, _, he⟩⟩⟩
    · exact ⟨e, he⟩
    · obtain ⟨d, hd⟩ := DocumentState.exists_addAll hp plans {}
      exact absurd (hd.symm.trans he) (by simp)
    · exact absurd he (by simp [pure, Except.pure])
  · rintro ⟨e, he⟩
    exact ⟨e, Or.inl he⟩

/-- What rejection comes to, every policy comes to, and there is no error in it. -/
theorem descriptors_of_reject {c : Compiled (List Tool)}
    (hc : descriptors (config.withPolicy .reject) scope = .ok c) : c.hasErrors = false ∧
      ∀ policy, descriptors (config.withPolicy policy) scope = .ok c := by
  obtain ⟨tools, planner, hrun, rfl⟩ := descriptors_eq_ok_iff.mp hc
  rw [Planner.new_withPolicy] at hrun
  obtain ⟨hclean, hall⟩ := Planner.planTools_of_reject hrun
  exact ⟨hasErrors_eq_false_iff.mpr (hclean (Planner.clean_new config)), fun policy =>
    descriptors_eq_ok_iff.mpr ⟨tools, _, hall policy, rfl⟩⟩

/-- What overwriting comes to without an error, rejection comes to. -/
theorem descriptors_of_overwrite {c : Compiled (List Tool)}
    (hc : descriptors (config.withPolicy .overwrite) scope = .ok c) (herr : c.hasErrors = false) :
    descriptors (config.withPolicy .reject) scope = .ok c := by
  obtain ⟨tools, planner, hrun, rfl⟩ := descriptors_eq_ok_iff.mp hc
  rw [Planner.new_withPolicy] at hrun
  rw [hasErrors_eq_false_iff] at herr
  exact descriptors_eq_ok_iff.mpr ⟨tools, _, Planner.planTools_of_overwrite hrun herr, rfl⟩

/-- Unless collisions are rejected, tools fail only for want of a name. -/
theorem descriptors_eq_error_iff (hp : config.collisions ≠ .reject) :
    (∃ e, descriptors config scope = .error e) ↔
      config.strict = true ∧ ∃ e ∈ scope.actions, Text.isBlankText e.2.name = true := by
  have hp' : (Planner.new config).registry.policy ≠ .reject := hp
  refine Iff.trans ?_ (Planner.planTools_eq_error_iff hp')
  unfold descriptors
  simp only [bind_eq_error_iff, Prod.exists]
  constructor
  · rintro ⟨e, he | ⟨_, _, _, he⟩⟩
    · exact ⟨e, he⟩
    · exact absurd he (by simp [pure, Except.pure])
  · rintro ⟨e, he⟩
    exact ⟨e, Or.inl he⟩

end Whole

theorem assemble_agree (config : Config) (scope : Scope) :
    PoliciesAgree (fun policy => assemble (config.withPolicy policy) scope)
      (config.strict = true ∧ ∃ e ∈ scope.actions, Text.isBlankText e.2.name = true) where
  reject_iff :=
    ⟨fun ⟨c, hc⟩ => ⟨c, (assemble_of_reject hc).2 .overwrite, (assemble_of_reject hc).1⟩,
      fun ⟨c, hc, herr⟩ => ⟨c, assemble_of_overwrite hc herr⟩⟩
  same _ hc := (assemble_of_reject hc).2
  fails_iff policy hp := assemble_eq_error_iff (hp : (config.withPolicy policy).collisions ≠ _)

theorem descriptors_agree (config : Config) (scope : Scope) :
    PoliciesAgree (fun policy => descriptors (config.withPolicy policy) scope)
      (config.strict = true ∧ ∃ e ∈ scope.actions, Text.isBlankText e.2.name = true) where
  reject_iff := ⟨fun ⟨c, hc⟩ =>
      ⟨c, (descriptors_of_reject hc).2 .overwrite, (descriptors_of_reject hc).1⟩,
    fun ⟨c, hc, herr⟩ => ⟨c, descriptors_of_overwrite hc herr⟩⟩
  same _ hc := (descriptors_of_reject hc).2
  fails_iff policy hp := descriptors_eq_error_iff (hp : (config.withPolicy policy).collisions ≠ _)

/-- **The collision policies agree**, for documents and for tools alike. -/
theorem policies_agree (config : Config) (scope : Scope) :
    PoliciesAgree (fun policy => assemble (config.withPolicy policy) scope)
      (config.strict = true ∧ ∃ e ∈ scope.actions, Text.isBlankText e.2.name = true) ∧
    PoliciesAgree (fun policy => descriptors (config.withPolicy policy) scope)
      (config.strict = true ∧ ∃ e ∈ scope.actions, Text.isBlankText e.2.name = true) :=
  ⟨assemble_agree config scope, descriptors_agree config scope⟩

end OntologyCompiler
