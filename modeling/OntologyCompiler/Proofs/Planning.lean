import OntologyCompiler.Plan
import OntologyCompiler.Proofs.Registry

/-!
# Runs of the planner

Planning goes through a list of actions with a registry and a list of findings. A step is described
once; what holds of whole runs follows by induction on the list.

* `plan_eq_ok_iff`, `plan_eq_error_iff`: all that one step can do.
* `planAll_cons_eq_ok_iff`, `planAll_cons_eq_error_iff`: a run is a step and a run.
* `planAll_planned`, `planAll_map`: identifiers aside, plans are what the actions say, in order.
* `planAll_fresh`: unless something was taken over, the identifiers of a run are distinct.
* `planAll_eq_error_iff`: without rejection only a missing name ends a run.
-/

namespace OntologyCompiler

/-- One computation after another succeeds when both do. -/
theorem bind_eq_ok_iff {ε α β : Type} {x : Except ε α} {f : α → Except ε β} {b : β} :
    x >>= f = .ok b ↔ ∃ a, x = .ok a ∧ f a = .ok b := by
  cases x with
  | error e => simp [bind, Except.bind]
  | ok a => simp [bind, Except.bind]

/-- One computation after another fails with the first failure of the two. -/
theorem bind_eq_error_iff {ε α β : Type} {x : Except ε α} {f : α → Except ε β} {e : ε} :
    x >>= f = .error e ↔ x = .error e ∨ ∃ a, x = .ok a ∧ f a = .error e := by
  cases x with
  | error e' => simp [bind, Except.bind]
  | ok a => simp [bind, Except.bind]

namespace Action

/-- The action of an object under given identifiers. -/
def planned (a : Action) (object : String) (i : Identity) : ActionPlan :=
  ⟨a, Text.strip object, a.label (Text.strip object), i, a.pathIn (Text.strip object), a.verb⟩

@[simp] theorem planned_identity (a : Action) (object : String) (i : Identity) :
    (a.planned object i).identity = i := rfl

@[simp] theorem planned_label (a : Action) (object : String) (i : Identity) :
    (a.planned object i).label = a.label (Text.strip object) := rfl

theorem eq_of_mem_nameFinding {a : Action} {object : String} {f : Finding}
    (h : f ∈ a.nameFinding object) : f = .unnamedAction object := by
  unfold nameFinding at h
  split at h
  · exact List.mem_singleton.mp h
  · exact absurd h List.not_mem_nil

theorem exists_of_mem_verbFinding {a : Action} {label : String} {f : Finding}
    (h : f ∈ a.verbFinding label) : ∃ method, f = .unknownMethod label method := by
  unfold verbFinding at h
  split at h
  · exact absurd h List.not_mem_nil
  · split at h
    · exact ⟨_, List.mem_singleton.mp h⟩
    · exact absurd h List.not_mem_nil

theorem nameFinding_not_error {a : Action} {object : String} {f : Finding}
    (h : f ∈ a.nameFinding object) : f.isError = false := by
  rw [eq_of_mem_nameFinding h]
  rfl

theorem verbFinding_not_error {a : Action} {label : String} {f : Finding}
    (h : f ∈ a.verbFinding label) : f.isError = false := by
  obtain ⟨method, rfl⟩ := exists_of_mem_verbFinding h
  rfl

end Action

namespace Planner

/-! ## One step -/

/-- The state behind an action whose claim came to `c` and left the registry `r`. -/
def after (p : Planner) (object : String) (a : Action) (c : Claim Identity) (r : Registry) :
    Planner :=
  ⟨r, p.strict, p.findings ++ a.nameFinding (Text.strip object)
    ++ (c.finding.toList ++ a.verbFinding (a.label (Text.strip object)))⟩

theorem mem_findings_after {p : Planner} {object : String} {a : Action} {c : Claim Identity}
    {r : Registry} {f : Finding} (h : c.finding = some f) :
    f ∈ (p.after object a c r).findings := by
  simp [after, h]

/-- **All that a successful step does**: one claim, whose value makes the plan. -/
theorem plan_eq_ok_iff {p q : Planner} {object : String} {a : Action} {plan : ActionPlan} :
    p.plan object a = (.ok plan, q) ↔ p.refuses a = false ∧ ∃ c r,
      p.registry.claim (a.label (Text.strip object)) (.derive a.name) = .ok (c, r) ∧
      plan = a.planned object c.value ∧ q = p.after object a c r := by
  unfold Planner.plan
  cases hr : p.refuses a with
  | true => simp
  | false =>
    simp only [Bool.false_eq_true, if_false, true_and, report]
    cases hc : p.registry.claim (a.label (Text.strip object)) (.derive a.name) with
    | error e => simp
    | ok cr =>
      obtain ⟨c, r⟩ := cr
      simp only [Prod.mk.injEq, Except.ok.injEq]
      constructor
      · rintro ⟨rfl, rfl⟩
        exact ⟨c, r, ⟨rfl, rfl⟩, rfl, rfl⟩
      · rintro ⟨c', r', ⟨rfl, rfl⟩, rfl, rfl⟩
        exact ⟨rfl, rfl⟩

/-- **All that a failing step can fail with**: a missing name, or a claim that failed. -/
theorem plan_eq_error_iff {p : Planner} {object : String} {a : Action} {e : Failure} :
    (p.plan object a).1 = .error e ↔
      (p.refuses a = true ∧ e = .unnamedAction (Text.strip object)) ∨
      (p.refuses a = false ∧
        p.registry.claim (a.label (Text.strip object)) (.derive a.name) = .error e) := by
  unfold Planner.plan
  cases hr : p.refuses a with
  | true => simp [eq_comm]
  | false =>
    simp only [Bool.false_eq_true, if_false, false_and, false_or, true_and, report]
    cases hc : p.registry.claim (a.label (Text.strip object)) (.derive a.name) with
    | error e' => simp
    | ok cr => simp

/-! ## Runs -/

theorem planAll_nil (p : Planner) : p.planAll [] = .ok ([], p) := rfl

theorem planAll_cons_eq_ok_iff {p q : Planner} {object : String} {a : Action}
    {rest : List (String × Action)} {plans : List ActionPlan} :
    p.planAll ((object, a) :: rest) = .ok (plans, q) ↔
      ∃ plan p' plans', p.plan object a = (.ok plan, p') ∧
        p'.planAll rest = .ok (plans', q) ∧ plans = plan :: plans' := by
  rw [planAll]
  match hp : p.plan object a with
  | (.error e, p') => simp
  | (.ok plan, p') =>
    simp only [bind_eq_ok_iff, Prod.exists]
    constructor
    · rintro ⟨plans', q', hrest, hq⟩
      obtain ⟨rfl, rfl⟩ := Prod.mk.inj (Except.ok.inj hq)
      exact ⟨plan, p', plans', rfl, hrest, rfl⟩
    · rintro ⟨plan', p'', plans', h, hrest, rfl⟩
      obtain ⟨h1, rfl⟩ := Prod.mk.inj h
      obtain rfl := Except.ok.inj h1
      exact ⟨plans', q, hrest, rfl⟩

theorem planAll_cons_eq_error_iff {p : Planner} {object : String} {a : Action}
    {rest : List (String × Action)} {e : Failure} :
    p.planAll ((object, a) :: rest) = .error e ↔ (p.plan object a).1 = .error e ∨
      ∃ plan p', p.plan object a = (.ok plan, p') ∧ p'.planAll rest = .error e := by
  rw [planAll]
  match hp : p.plan object a with
  | (.error e', p') => simp
  | (.ok plan, p') =>
    simp only [bind_eq_error_iff, reduceCtorEq, false_or]
    constructor
    · rintro (h | ⟨_, _, h⟩)
      · exact ⟨plan, p', rfl, h⟩
      · exact absurd h (by simp [pure, Except.pure])
    · rintro ⟨plan', p'', h, hrest⟩
      obtain ⟨-, rfl⟩ := Prod.mk.inj h
      exact Or.inl hrest

/-- What was found before a step stays found. -/
theorem plan_findings_subset {p q : Planner} {object : String} {a : Action} {plan : ActionPlan}
    (h : p.plan object a = (.ok plan, q)) : p.findings ⊆ q.findings := by
  obtain ⟨-, c, r, -, -, rfl⟩ := plan_eq_ok_iff.mp h
  intro f hf
  exact List.mem_append_left _ (List.mem_append_left _ hf)

theorem planAll_findings_subset : ∀ {as : List (String × Action)} {p q : Planner}
    {plans : List ActionPlan}, p.planAll as = .ok (plans, q) → p.findings ⊆ q.findings
  | [], _, _, _, h => by
    obtain ⟨-, rfl⟩ := Prod.mk.inj (Except.ok.inj h)
    exact List.Subset.refl _
  | (object, a) :: rest, _, _, _, h => by
    obtain ⟨plan, p', plans', hstep, hrest, rfl⟩ := planAll_cons_eq_ok_iff.mp h
    exact List.Subset.trans (plan_findings_subset hstep) (planAll_findings_subset hrest)

/-- **A run plans its actions**, one by one and in order: identifiers aside, a plan is what its
action says. -/
theorem planAll_planned : ∀ {as : List (String × Action)} {p q : Planner}
    {plans : List ActionPlan}, p.planAll as = .ok (plans, q) →
    List.Forall₂ (fun e plan => plan = e.2.planned e.1 plan.identity) as plans
  | [], _, _, _, h => by
    obtain ⟨rfl, -⟩ := Prod.mk.inj (Except.ok.inj h)
    exact .nil
  | (object, a) :: rest, _, _, _, h => by
    obtain ⟨plan, p', plans', hstep, hrest, rfl⟩ := planAll_cons_eq_ok_iff.mp h
    obtain ⟨-, c, r, -, rfl, -⟩ := plan_eq_ok_iff.mp hstep
    exact .cons rfl (planAll_planned hrest)

/-- What plans say apart from identifiers is what the actions say, in order. -/
theorem planAll_map {α : Type} {as : List (String × Action)} {p q : Planner}
    {plans : List ActionPlan} (h : p.planAll as = .ok (plans, q)) (f : ActionPlan → α)
    (g : String × Action → α) (hfg : ∀ e i, f (e.2.planned e.1 i) = g e) :
    plans.map f = as.map g := by
  rw [← List.forall₂_eq_eq_eq, List.forall₂_map_left_iff, List.forall₂_map_right_iff]
  exact (planAll_planned h).flip.imp fun plan e hplan => (congrArg f hplan).trans (hfg e _)

/-- The actions of the plans of a run are those that were to be planned. -/
theorem planAll_actions {as : List (String × Action)} {p q : Planner} {plans : List ActionPlan}
    (h : p.planAll as = .ok (plans, q)) : plans.map ActionPlan.action = as.map Prod.snd :=
  planAll_map h _ _ fun _ _ => rfl

/-- **Paths and methods of plans are those of the actions**, one by one: neither the policy nor any
other action has a part in them. -/
theorem planAll_places {as : List (String × Action)} {p q : Planner} {plans : List ActionPlan}
    (h : p.planAll as = .ok (plans, q)) :
    plans.map (fun plan => (plan.label, plan.path, plan.verb)) = as.map fun e =>
      (e.2.label (Text.strip e.1), e.2.pathIn (Text.strip e.1), e.2.verb) :=
  planAll_map h _ _ fun _ _ => rfl

/-- The identifiers of a plan are recorded under its label. -/
theorem plan_records {p q : Planner} {object : String} {a : Action} {plan : ActionPlan}
    (h : p.plan object a = (.ok plan, q)) :
    q.registry = p.registry.record plan.label plan.identity := by
  obtain ⟨-, c, r, hclaim, rfl, rfl⟩ := plan_eq_ok_iff.mp h
  simp only [Action.planned_identity, Action.planned_label, after]
  exact Registry.claim_records hclaim

/-! ## Distinct identifiers -/

/-- **A step that takes nothing over records free identifiers.** -/
theorem plan_fresh {p q : Planner} {object : String} {a : Action} {plan : ActionPlan}
    (h : p.plan object a = (.ok plan, q))
    (hq : p.registry.policy = .overwrite → ∀ f ∈ q.findings, f.isError = false) :
    p.registry.holder? plan.identity = none := by
  obtain ⟨-, c, r, hclaim, rfl, rfl⟩ := plan_eq_ok_iff.mp h
  rcases Registry.claim_cases hclaim with ⟨hfree, rfl, -⟩ | ⟨first, -, hp, rfl, -⟩ |
    ⟨first, -, -, rfl, -⟩
  · simp only [Action.planned_identity]
    exact hfree
  · -- taking over is reported as an error
    have herr := hq hp _ (mem_findings_after rfl)
    exact absurd herr Bool.noConfusion
  · simp only [Action.planned_identity]
    exact Registry.holder?_renamed _ _

/-- **The identifiers of a run are distinct** and were free before it, unless the policy lets later
actions take over identifiers and one of them did. -/
theorem planAll_fresh : ∀ {as : List (String × Action)} {p q : Planner} {plans : List ActionPlan},
    p.planAll as = .ok (plans, q) →
    (p.registry.policy = .overwrite → ∀ f ∈ q.findings, f.isError = false) →
    (plans.map fun plan => plan.identity.operationId).Nodup ∧
    (plans.map fun plan => plan.identity.stem).Nodup ∧
    ∀ plan ∈ plans, p.registry.holder? plan.identity = none
  | [], _, _, _, h, _ => by
    obtain ⟨rfl, -⟩ := Prod.mk.inj (Except.ok.inj h)
    simp
  | (object, a) :: rest, p, q, _, h, hq => by
    obtain ⟨plan, p', plans', hstep, hrest, rfl⟩ := planAll_cons_eq_ok_iff.mp h
    have hsub := planAll_findings_subset hrest
    have hfree := plan_fresh hstep fun hp f hf => hq hp f (hsub hf)
    have hrecord := plan_records hstep
    have hpolicy : p'.registry.policy = p.registry.policy := by rw [hrecord]; rfl
    obtain ⟨hids, hstems, hlater⟩ := planAll_fresh hrest fun hp => hq (hpolicy ▸ hp)
    -- what is free after the step differs from what the step has recorded
    have hne : ∀ other ∈ plans', other.identity.operationId ≠ plan.identity.operationId ∧
        other.identity.stem ≠ plan.identity.stem ∧
        p.registry.holder? other.identity = none := by
      intro other hother
      have hf := hlater other hother
      rw [hrecord, Registry.holder?_eq_none_iff, Registry.keys_operations_record,
        Registry.keys_stems_record, not_or, not_or] at hf
      exact ⟨hf.1.1, hf.2.1, Registry.holder?_eq_none_iff.mpr ⟨hf.1.2, hf.2.2⟩⟩
    refine ⟨?_, ?_, ?_⟩
    · rw [List.map_cons, List.nodup_cons]
      refine ⟨fun hmem => ?_, hids⟩
      obtain ⟨other, hother, heq⟩ := List.mem_map.mp hmem
      exact (hne other hother).1 heq
    · rw [List.map_cons, List.nodup_cons]
      refine ⟨fun hmem => ?_, hstems⟩
      obtain ⟨other, hother, heq⟩ := List.mem_map.mp hmem
      exact (hne other hother).2.1 heq
    · intro other hother
      rcases List.mem_cons.mp hother with rfl | hother
      · exact hfree
      · exact (hne other hother).2.2

/-! ## Failures -/

/-- A step keeps the policy and whether names are demanded. -/
theorem plan_keeps {p q : Planner} {object : String} {a : Action} {plan : ActionPlan}
    (h : p.plan object a = (.ok plan, q)) :
    q.registry.policy = p.registry.policy ∧ q.strict = p.strict := by
  refine ⟨by rw [plan_records h]; rfl, ?_⟩
  obtain ⟨-, c, r, -, -, rfl⟩ := plan_eq_ok_iff.mp h
  rfl

/-- **Without rejection a run fails exactly when a name is demanded and missing.** -/
theorem planAll_eq_error_iff : ∀ {as : List (String × Action)} {p : Planner},
    p.registry.policy ≠ .reject →
    ((∃ e, p.planAll as = .error e) ↔
      p.strict = true ∧ ∃ e ∈ as, Text.isBlankText e.2.name = true)
  | [], p, _ => by simp [planAll_nil]
  | (object, a) :: rest, p, hp => by
    simp only [planAll_cons_eq_error_iff, plan_eq_error_iff, Registry.claim_eq_error_iff]
    simp only [hp, false_and, and_false, or_false, List.mem_cons, exists_eq_or_imp]
    cases hr : p.refuses a with
    | true =>
      simp only [refuses, Bool.and_eq_true] at hr
      simp [hr.1, hr.2]
    | false =>
      simp only [Bool.false_eq_true, false_and, false_or]
      have hblank : ¬ (p.strict = true ∧ Text.isBlankText a.name = true) := by
        simpa [refuses] using hr
      constructor
      · rintro ⟨e, plan, p', hstep, hrest⟩
        obtain ⟨hpolicy, hstrict⟩ := plan_keeps hstep
        obtain ⟨hs, hex⟩ := (planAll_eq_error_iff (hpolicy ▸ hp)).mp ⟨e, hrest⟩
        exact ⟨hstrict ▸ hs, Or.inr hex⟩
      · rintro ⟨hs, hex⟩
        -- the step itself goes through, as its claim cannot be rejected
        cases hclaim : p.registry.claim (a.label (Text.strip object)) (.derive a.name) with
        | error e => exact absurd (Registry.claim_eq_error_iff.mp hclaim).1 hp
        | ok cr =>
          have hstep := plan_eq_ok_iff.mpr ⟨hr, cr.1, cr.2, hclaim, rfl, rfl⟩
          obtain ⟨hpolicy, hstrict⟩ := plan_keeps hstep
          have hlater := hex.resolve_left fun h => hblank ⟨hs, h⟩
          obtain ⟨e, he⟩ := (planAll_eq_error_iff (hpolicy ▸ hp)).mpr ⟨hstrict ▸ hs, hlater⟩
          exact ⟨e, _, _, hstep, he⟩

end Planner
end OntologyCompiler
