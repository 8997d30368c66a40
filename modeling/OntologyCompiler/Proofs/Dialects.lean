import OntologyCompiler.Proofs.Requiredness

/-!
# Dialects agree

The dialects render one list of tools, so a scope is rendered in all of them or in none, and what
they have in common is found in every rendering, though not in the same place. Governance is
written where a dialect has metadata; where it has none, there is a warning for every tool that had
something to lose.

* `Planner.planTools_describes`: the tools of a run, action by action.
* `shows_render`: what a rendering shows of a tool, in the place that its dialect has for it.
* `Tool.warns_loss`: the warnings about lost governance, tool by tool.
* `dialects_agree`: all dialects, for one scope.
-/

namespace OntologyCompiler

/-! ## Tools and actions -/

/-- A tool describes an action: apart from its name, the tool is what the action says. -/
structure Describes (e : String × Action) (t : Tool) : Prop where
  description : t.description = e.2.toolDescription
  parameters : t.parameters = e.2.arguments
  governance : t.governance = e.2.governance

/-- **A run describes its actions**, one by one and in order. -/
theorem Planner.planTools_describes : ∀ {as : List (String × Action)} {p q : Planner}
    {tools : List Tool}, p.planTools as = .ok (tools, q) → List.Forall₂ Describes as tools
  | [], _, _, _, h => by
    obtain ⟨rfl, -⟩ := Prod.mk.inj (Except.ok.inj h)
    exact .nil
  | (object, a) :: rest, _, _, _, h => by
    obtain ⟨tool, p', tools', hstep, hrest, rfl⟩ := planTools_cons_eq_ok_iff.mp h
    obtain ⟨plan, _, c, r, hplan, -, rfl, -⟩ := planTool_eq_ok_iff.mp hstep
    obtain ⟨-, _, _, -, rfl, -⟩ := plan_eq_ok_iff.mp hplan
    exact .cons ⟨rfl, rfl, rfl⟩ (planTools_describes hrest)

/-! ## What a rendering shows -/

/-- Where a dialect shows a part that it calls like every other dialect. -/
def Dialect.part (name : String) : Dialect → List String
  | openAi => ["function", name]
  | _ => [name]

/-- The metadata of a rendered tool tell the governance, and nothing of the kind without one. -/
structure Tells (v : Json) (g : Option Governance) : Prop where
  tier : v.at? ["metadata", "permission_tier"] = g.map fun g => .ofByte g.tier
  approval : v.at? ["metadata", "requires_human_approval"] = g.map fun g => .bool g.needsApproval
  risk : v.at? ["metadata", "risk_level"] = g.map fun g => .str g.risk.text
  audit : v.at? ["metadata", "audit_log"] = g.map fun g => .bool g.auditLog

/-- A rendering shows a tool: the parts that all dialects have in common, and the governance if the
dialect has metadata. -/
structure Shows (d : Dialect) (t : Tool) (r : RenderedTool) : Prop where
  parts : r.name = t.name ∧ r.description = t.description ∧ r.parameters = t.parameters
  name : r.toJson.at? (d.part "name") = some (.str t.name)
  description : r.toJson.at? (d.part "description") = some (.str t.description)
  parameters : r.toJson.at? d.envelope = some t.parameters.toJson
  metadata : d = .langChain ∨ d = .universal → Tells r.toJson t.governance
  noMetadata : ¬ (d = .langChain ∨ d = .universal) → r.toJson.at? ["metadata"] = none

/-- **A rendering shows its tool**, whatever the dialect. -/
theorem shows_render (d : Dialect) (t : Tool) : Shows d t (t.render d) where
  parts := ⟨t.name_render d, t.description_render d, t.parameters_render d⟩
  name := by cases d <;> rfl
  description := by cases d <;> rfl
  parameters := by cases d <;> rfl
  metadata := by
    obtain ⟨_, _, _, _, _, _, _, governance⟩ := t
    rintro (rfl | rfl) <;> cases governance <;> constructor <;> rfl
  noMetadata := by
    intro hd
    cases d with
    | langChain => exact absurd (.inl rfl) hd
    | universal => exact absurd (.inr rfl) hd
    | openAi => rfl
    | claude => rfl
    | mcp => rfl

/-! ## What is lost -/

/-- Whether a tool has a control to lose: it is of the second tier or above, or a human has to
approve its use. -/
def Tool.isControlled (t : Tool) : Bool :=
  t.governance.any fun g => 2 ≤ g.tier || g.needsApproval

/-- The finding warns that the dialect does not carry the governance of the tool. -/
structure Warns (d : Dialect) (t : Tool) (f : Finding) : Prop where
  level : f.diagnostic.level = .warning
  message : ∃ g, t.governance = some g ∧ f.diagnostic.message =
    d.name ++ " has no metadata slot; governance of tool " ++ ("'" ++ t.name ++ "'") ++ " (tier " ++
      toString g.tier.toNat ++ ", risk " ++ g.risk.text ++ ") is not carried"

theorem Dialect.carriesGovernance_iff (d : Dialect) :
    d.carriesGovernance = true ↔ d = .langChain ∨ d = .universal := by
  cases d <;> simp [carriesGovernance]

namespace Tool

theorem loss_of_metadata {d : Dialect} (hd : d = .langChain ∨ d = .universal) (t : Tool) :
    t.loss d = [] := by
  have hcarries := d.carriesGovernance_iff.mpr hd
  cases hg : t.governance <;> simp [loss, hg, hcarries]

/-- Without metadata a tool with a control loses it, and no other tool loses anything. -/
theorem loss_eq {d : Dialect} (hd : ¬ (d = .langChain ∨ d = .universal)) (t : Tool) :
    (t.isControlled = true ∧ ∃ f, t.loss d = [f] ∧ Warns d t f) ∨
      t.isControlled = false ∧ t.loss d = [] := by
  have hcarries : d.carriesGovernance = false :=
    Bool.eq_false_iff.mpr fun h => hd (d.carriesGovernance_iff.mp h)
  cases hg : t.governance with
  | none => exact .inr (by simp [isControlled, loss, hg])
  | some g =>
    have hcontrolled : t.isControlled = g.isSignificant := by
      simp [isControlled, hg, Governance.isSignificant, Governance.requiresAuth]
    rw [hcontrolled]
    cases hs : g.isSignificant with
    | false => exact .inr ⟨rfl, by simp [loss, hg, hs]⟩
    | true =>
      refine .inl ⟨rfl, .governanceDropped d t.name g.tier g.risk, ?_, rfl, g, hg, rfl⟩
      simp [loss, hg, hs, hcarries]

/-- **One warning for every tool with a control**, in the order of the tools. -/
theorem warns_loss {d : Dialect} (hd : ¬ (d = .langChain ∨ d = .universal)) :
    ∀ tools : List Tool,
      List.Forall₂ (Warns d) (tools.filter isControlled) (tools.flatMap (·.loss d))
  | [] => .nil
  | t :: tools => by
    have ih := warns_loss hd tools
    rw [List.flatMap_cons]
    rcases loss_eq hd t with ⟨hcontrolled, f, hloss, hwarns⟩ | ⟨hcontrolled, hloss⟩
    · rw [List.filter_cons_of_pos hcontrolled, hloss]
      exact .cons hwarns ih
    · rw [List.filter_cons_of_neg (by simp [hcontrolled]), hloss]
      exact ih

end Tool

/-! ## All dialects -/

/-- A scope is rendered just if its tools are described. -/
theorem emit_eq (config : Config) (scope : Scope) (d : Dialect) :
    emit config scope d = (descriptors config scope).map fun c =>
      ⟨c.output.map (·.render d), c.findings ++ c.output.flatMap (·.loss d)⟩ := by
  unfold emit
  cases descriptors config scope <;> rfl

/-- **Dialects agree, and governance is never lost silently.** A scope fails in every dialect, for
one reason, or it is rendered in all of them. Then every dialect shows the same tools, one for every
action and in order, and what it finds is what describing the tools finds, and, where it has no
metadata, a warning for every tool with a control. -/
theorem dialects_agree (config : Config) (scope : Scope) :
    (∃ e, descriptors config scope = .error e ∧ ∀ d, emit config scope d = .error e) ∨
    ∃ tools, descriptors config scope = .ok tools ∧
      List.Forall₂ Describes scope.actions tools.output ∧
      ∀ d, ∃ c lost, emit config scope d = .ok c ∧
        List.Forall₂ (Shows d) tools.output c.output ∧ c.findings = tools.findings ++ lost ∧
        (d = .langChain ∨ d = .universal → lost = []) ∧
        (¬ (d = .langChain ∨ d = .universal) →
          List.Forall₂ (Warns d) (tools.output.filter Tool.isControlled) lost) := by
  simp only [emit_eq]
  cases h : descriptors config scope with
  | error e => exact .inl ⟨e, rfl, fun _ => rfl⟩
  | ok tools =>
    obtain ⟨_, _, hrun, rfl⟩ := descriptors_eq_ok_iff.mp h
    refine .inr ⟨_, rfl, Planner.planTools_describes hrun, fun d =>
      ⟨_, _, rfl, ?_, rfl, fun hd => ?_, fun hd => ?_⟩⟩
    · exact List.forall₂_map_right_iff.mpr (List.forall₂_same.mpr fun t _ => shows_render d t)
    · exact List.flatMap_eq_nil_iff.mpr fun t _ => Tool.loss_of_metadata hd t
    · exact Tool.warns_loss hd _

end OntologyCompiler
