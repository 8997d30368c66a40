import OntologyCompiler.Proofs.Planning
import OntologyCompiler.Tool.Descriptor

/-!
# Runs of the planner that claim tool names

A tool is planned like any action and claims its name right behind. A step is described once, and
runs follow by induction on the list.

* `planTool_eq_ok_iff`, `planTool_eq_error_iff`: all that one step can do.
* `planTools_cons_eq_ok_iff`, `planTools_cons_eq_error_iff`: a run is a step and a run.
* `planTools_eq_error_iff`: without rejection only a missing name ends a run.
-/

namespace OntologyCompiler

namespace Registry

/-- A successful claim of a tool name keeps the policy. -/
theorem claimName_policy {r s : Registry} {label toolName : String} {c : Claim String}
    (h : r.claimName label toolName = .ok (c, s)) : s.policy = r.policy := by
  rcases claimName_cases h with ⟨-, -, rfl⟩ | ⟨_, -, -, -, rfl⟩ | ⟨_, -, -, -, rfl⟩ <;> rfl

end Registry

namespace Planner

/-- The state behind a claim of a tool name that came to `c` and left the registry `r`. -/
def named (p : Planner) (c : Claim String) (r : Registry) : Planner :=
  ⟨r, p.strict, p.findings ++ c.finding.toList⟩

theorem mem_findings_named {p : Planner} {c : Claim String} {r : Registry} {f : Finding}
    (h : c.finding = some f) : f ∈ (p.named c r).findings := by
  simp [named, h]

/-! ## One step -/

/-- **All that a successful step does**: a plan, and a claim of the name that it asks for. -/
theorem planTool_eq_ok_iff {p q : Planner} {object : String} {a : Action} {tool : Tool} :
    p.planTool object a = .ok (tool, q) ↔ ∃ plan p' c r, p.plan object a = (.ok plan, p') ∧
      p'.registry.claimName plan.label plan.toolName = .ok (c, r) ∧
      tool = plan.describe c.value ∧ q = p'.named c r := by
  unfold planTool
  match hp : p.plan object a with
  | (.error e, p') => simp
  | (.ok plan, p') =>
    simp only [bind_eq_ok_iff, Prod.exists]
    constructor
    · rintro ⟨c, r, hclaim, hq⟩
      obtain ⟨rfl, rfl⟩ := Prod.mk.inj (Except.ok.inj hq)
      exact ⟨plan, p', c, r, rfl, hclaim, rfl, rfl⟩
    · rintro ⟨plan', p'', c, r, h, hclaim, rfl, rfl⟩
      obtain ⟨h1, rfl⟩ := Prod.mk.inj h
      obtain rfl := Except.ok.inj h1
      exact ⟨c, r, hclaim, rfl⟩

/-- A step fails when its action cannot be planned, or else when its name cannot be claimed. -/
theorem planTool_eq_error_iff {p : Planner} {object : String} {a : Action} {e : Failure} :
    p.planTool object a = .error e ↔ (p.plan object a).1 = .error e ∨
      ∃ plan p', p.plan object a = (.ok plan, p') ∧
        p'.registry.claimName plan.label plan.toolName = .error e := by
  unfold planTool
  match hp : p.plan object a with
  | (.error e', p') => simp
  | (.ok plan, p') =>
    simp only [bind_eq_error_iff, reduceCtorEq, false_or]
    constructor
    · rintro (h | ⟨_, _, h⟩)
      · exact ⟨plan, p', rfl, h⟩
      · exact absurd h (by simp [pure, Except.pure])
    · rintro ⟨plan', p'', h, hclaim⟩
      obtain ⟨h1, rfl⟩ := Prod.mk.inj h
      obtain rfl := Except.ok.inj h1
      exact Or.inl hclaim

/-- A step keeps the policy and whether names are demanded. -/
theorem planTool_keeps {p q : Planner} {object : String} {a : Action} {tool : Tool}
    (h : p.planTool object a = .ok (tool, q)) :
    q.registry.policy = p.registry.policy ∧ q.strict = p.strict := by
  obtain ⟨plan, p', c, r, hplan, hclaim, -, rfl⟩ := planTool_eq_ok_iff.mp h
  obtain ⟨hpolicy, hstrict⟩ := plan_keeps hplan
  exact ⟨(Registry.claimName_policy hclaim).trans hpolicy, hstrict⟩

/-! ## Runs -/

theorem planTools_nil (p : Planner) : p.planTools [] = .ok ([], p) := rfl

theorem planTools_cons_eq_ok_iff {p q : Planner} {object : String} {a : Action}
    {rest : List (String × Action)} {tools : List Tool} :
    p.planTools ((object, a) :: rest) = .ok (tools, q) ↔
      ∃ tool p' tools', p.planTool object a = .ok (tool, p') ∧
        p'.planTools rest = .ok (tools', q) ∧ tools = tool :: tools' := by
  rw [planTools]
  simp only [bind_eq_ok_iff, Prod.exists]
  constructor
  · rintro ⟨tool, p', hstep, tools', q', hrest, hq⟩
    obtain ⟨rfl, rfl⟩ := Prod.mk.inj (Except.ok.inj hq)
    exact ⟨tool, p', tools', hstep, hrest, rfl⟩
  · rintro ⟨tool, p', tools', hstep, hrest, rfl⟩
    exact ⟨tool, p', hstep, tools', q, hrest, rfl⟩

theorem planTools_cons_eq_error_iff {p : Planner} {object : String} {a : Action}
    {rest : List (String × Action)} {e : Failure} :
    p.planTools ((object, a) :: rest) = .error e ↔ p.planTool object a = .error e ∨
      ∃ tool p', p.planTool object a = .ok (tool, p') ∧ p'.planTools rest = .error e := by
  rw [planTools]
  simp only [bind_eq_error_iff, Prod.exists]
  constructor
  · rintro (h | ⟨tool, p', hstep, h | ⟨_, _, _, h⟩⟩)
    · exact Or.inl h
    · exact Or.inr ⟨tool, p', hstep, h⟩
    · exact absurd h (by simp [pure, Except.pure])
  · rintro (h | ⟨tool, p', hstep, h⟩)
    · exact Or.inl h
    · exact Or.inr ⟨tool, p', hstep, Or.inl h⟩

/-- What was found before a step stays found. -/
theorem planTool_findings_subset {p q : Planner} {object : String} {a : Action} {tool : Tool}
    (h : p.planTool object a = .ok (tool, q)) : p.findings ⊆ q.findings := by
  obtain ⟨plan, p', c, r, hplan, -, -, rfl⟩ := planTool_eq_ok_iff.mp h
  exact fun f hf => List.mem_append_left _ (plan_findings_subset hplan hf)

theorem planTools_findings_subset : ∀ {as : List (String × Action)} {p q : Planner}
    {tools : List Tool}, p.planTools as = .ok (tools, q) → p.findings ⊆ q.findings
  | [], _, _, _, h => by
    obtain ⟨-, rfl⟩ := Prod.mk.inj (Except.ok.inj h)
    exact List.Subset.refl _
  | (object, a) :: rest, _, _, _, h => by
    obtain ⟨tool, p', tools', hstep, hrest, rfl⟩ := planTools_cons_eq_ok_iff.mp h
    exact List.Subset.trans (planTool_findings_subset hstep) (planTools_findings_subset hrest)

/-- Without rejection an action that is not refused is planned as a tool. -/
theorem exists_planTool {p : Planner} {a : Action} (hp : p.registry.policy ≠ .reject)
    (hr : p.refuses a = false) (object : String) :
    ∃ tool q, p.planTool object a = .ok (tool, q) := by
  cases h : p.planTool object a with
  | ok tq => exact ⟨tq.1, tq.2, rfl⟩
  | error e =>
    rcases planTool_eq_error_iff.mp h with hplan | ⟨plan, p', hplan, hclaim⟩
    · rcases plan_eq_error_iff.mp hplan with ⟨hr', -⟩ | ⟨-, hclaim⟩
      · exact absurd (hr.symm.trans hr') Bool.false_ne_true
      · exact absurd (Registry.claim_eq_error_iff.mp hclaim).1 hp
    · have hpolicy := (Registry.claimName_eq_error_iff.mp hclaim).1
      exact absurd ((plan_keeps hplan).1 ▸ hpolicy) hp

/-- **Without rejection a run fails exactly when a name is demanded and missing.** -/
theorem planTools_eq_error_iff : ∀ {as : List (String × Action)} {p : Planner},
    p.registry.policy ≠ .reject →
    ((∃ e, p.planTools as = .error e) ↔
      p.strict = true ∧ ∃ e ∈ as, Text.isBlankText e.2.name = true)
  | [], p, _ => by simp [planTools_nil]
  | (object, a) :: rest, p, hp => by
    simp only [List.mem_cons, exists_eq_or_imp]
    cases hr : p.refuses a with
    | true =>
      have hfails :
          p.planTools ((object, a) :: rest) = .error (.unnamedAction (Text.strip object)) :=
        planTools_cons_eq_error_iff.mpr <| Or.inl <| planTool_eq_error_iff.mpr <| Or.inl <|
          plan_eq_error_iff.mpr <| Or.inl ⟨hr, rfl⟩
      simp only [refuses, Bool.and_eq_true] at hr
      exact ⟨fun _ => ⟨hr.1, Or.inl hr.2⟩, fun _ => ⟨_, hfails⟩⟩
    | false =>
      have hblank : ¬ (p.strict = true ∧ Text.isBlankText a.name = true) := by
        simpa [refuses] using hr
      obtain ⟨tool, q, hstep⟩ := exists_planTool hp hr object
      obtain ⟨hpolicy, hstrict⟩ := planTool_keeps hstep
      have ih : (∃ e, q.planTools rest = .error e) ↔ _ := planTools_eq_error_iff (hpolicy ▸ hp)
      rw [hstrict] at ih
      constructor
      · rintro ⟨e, he⟩
        rcases planTools_cons_eq_error_iff.mp he with h | ⟨tool', q', h, hrest⟩
        · exact absurd (hstep.symm.trans h) (by simp)
        · obtain ⟨-, rfl⟩ := Prod.mk.inj (Except.ok.inj (hstep.symm.trans h))
          obtain ⟨hs, hex⟩ := ih.mp ⟨e, hrest⟩
          exact ⟨hs, Or.inr hex⟩
      · rintro ⟨hs, hex⟩
        obtain ⟨e, he⟩ := ih.mpr ⟨hs, hex.resolve_left fun h => hblank ⟨hs, h⟩⟩
        exact ⟨e, planTools_cons_eq_error_iff.mpr (Or.inr ⟨tool, q, hstep, he⟩)⟩

end Planner
end OntologyCompiler
