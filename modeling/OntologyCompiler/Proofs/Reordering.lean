import OntologyCompiler.Proofs.Checking
import OntologyCompiler.Proofs.SecurityScheme

/-!
# Compilations of the same actions in another order

Where collisions are rejected, an action is planned as if it stood alone, or the compilation ends
there. So neither whether it ends nor what becomes of an action depends on the order of the actions,
although the states on the way do.

* `planAll_unrenamed`, `planTools_unrenamed`: where nothing is renamed, the plans and tools of a run
  are those of its actions alone.
* `assemble_reject_perm`, `descriptors_reject_perm`: which orders go through.
* `perm_entries`, `get?_schemas_perm`: what a document without replacements holds.
* `Ontology.Reordered.perm`: what it is to put objects and their actions in another order.
* `order_irrelevant`: the facts together, for two ontologies with the same actions.
-/

namespace OntologyCompiler

open Registry (Apart)

/-! ## Actions alone -/

namespace Registry

/-- Unless it is renamed, an identity that is claimed is given out as it is. -/
theorem value_of_claim {r s : Registry} {label : String} {i : Identity} {c : Claim Identity}
    (hp : r.policy ≠ .suffix) (h : r.claim label i = .ok (c, s)) : c.value = i := by
  rcases claim_cases h with ⟨-, rfl, -⟩ | ⟨_, -, -, rfl, -⟩ | ⟨_, -, hsuffix, -⟩
  · rfl
  · rfl
  · exact absurd hsuffix hp

/-- So is a tool name. -/
theorem value_of_claimName {r s : Registry} {label toolName : String} {c : Claim String}
    (hp : r.policy ≠ .suffix) (h : r.claimName label toolName = .ok (c, s)) :
    c.value = toolName := by
  rcases claimName_cases h with ⟨-, rfl, -⟩ | ⟨_, -, -, rfl, -⟩ | ⟨_, -, hsuffix, -⟩
  · rfl
  · rfl
  · exact absurd hsuffix hp

end Registry

/-- The plan of an action of an object, as if it stood alone. -/
def Action.alone (e : String × Action) : ActionPlan :=
  e.2.planned e.1 (.derive e.2.name)

/-- The tool of an action of an object, as if it stood alone. -/
def Action.toolAlone (e : String × Action) : Tool :=
  (Action.alone e).describe e.2.askedName

namespace Planner

/-- **A run that renames nothing** plans every action as if it stood alone. -/
theorem planAll_unrenamed : ∀ {as : List (String × Action)} {p q : Planner}
    {plans : List ActionPlan}, p.registry.policy ≠ .suffix → p.planAll as = .ok (plans, q) →
    plans = as.map Action.alone
  | [], _, _, _, _, h => by
    obtain ⟨rfl, -⟩ := Prod.mk.inj (Except.ok.inj h)
    rfl
  | (object, a) :: rest, p, q, _, hp, h => by
    obtain ⟨plan, p', plans, hstep, hrest, rfl⟩ := planAll_cons_eq_ok_iff.mp h
    have hp' : p'.registry.policy ≠ .suffix := (plan_keeps hstep).1 ▸ hp
    obtain ⟨-, c, r, hclaim, rfl, rfl⟩ := plan_eq_ok_iff.mp hstep
    rw [List.map_cons, ← planAll_unrenamed hp' hrest, Registry.value_of_claim hp hclaim]
    rfl

/-- **A run of tools that renames nothing** describes every action as if it stood alone. -/
theorem planTools_unrenamed : ∀ {as : List (String × Action)} {p q : Planner} {tools : List Tool},
    p.registry.policy ≠ .suffix → p.planTools as = .ok (tools, q) →
    tools = as.map Action.toolAlone
  | [], _, _, _, _, h => by
    obtain ⟨rfl, -⟩ := Prod.mk.inj (Except.ok.inj h)
    rfl
  | (object, a) :: rest, p, q, _, hp, h => by
    obtain ⟨tool, p', tools, hstep, hrest, rfl⟩ := planTools_cons_eq_ok_iff.mp h
    have hp' : p'.registry.policy ≠ .suffix := (planTool_keeps hstep).1 ▸ hp
    obtain ⟨plan, p₁, c, r, hplan, hname, rfl, rfl⟩ := planTool_eq_ok_iff.mp hstep
    have hp₁ : p₁.registry.policy ≠ .suffix := (plan_keeps hplan).1 ▸ hp
    obtain ⟨-, d, s, hclaim, rfl, rfl⟩ := plan_eq_ok_iff.mp hplan
    rw [List.map_cons, ← planTools_unrenamed hp' hrest, Registry.value_of_claimName hp₁ hname,
      Registry.value_of_claim hp hclaim]
    rfl

/-- Where collisions are rejected, nothing is renamed. -/
theorem planAll_alone {as : List (String × Action)} {p q : Planner} {plans : List ActionPlan}
    (hp : p.registry.policy = .reject) (h : p.planAll as = .ok (plans, q)) :
    plans = as.map Action.alone :=
  planAll_unrenamed (by simp [hp]) h

theorem planTools_alone {as : List (String × Action)} {p q : Planner} {tools : List Tool}
    (hp : p.registry.policy = .reject) (h : p.planTools as = .ok (tools, q)) :
    tools = as.map Action.toolAlone :=
  planTools_unrenamed (by simp [hp]) h

end Planner

/-! ## Which orders go through -/

theorem Registry.Apart.symm {i j : Identity} (h : Apart i j) : Apart j i :=
  ⟨h.1.symm, h.2.symm⟩

section Order

variable {as bs : List (String × Action)} (h : as.Perm bs)

include h

theorem named_perm (strict : Bool) : Named strict as ↔ Named strict bs := by
  unfold Named
  simp only [h.mem_iff]

theorem nodup_places_perm : (places as).Nodup ↔ (places bs).Nodup :=
  (h.map _).nodup_iff

theorem nodup_askedNames_perm : (askedNames as).Nodup ↔ (askedNames bs).Nodup :=
  (h.map _).nodup_iff

theorem pairwise_apart_perm :
    (derivedIdentities as).Pairwise Apart ↔ (derivedIdentities bs).Pairwise Apart :=
  (h.map _).pairwise_iff Apart.symm

end Order

variable {config : Config} {s t : Scope}

/-- **A document is made in every order or in none.** -/
theorem assemble_reject_perm (hp : config.collisions = .reject) (h : s.actions.Perm t.actions) :
    (∃ c, assemble config s = .ok c) ↔ ∃ c, assemble config t = .ok c := by
  rw [assemble_reject_iff hp, assemble_reject_iff hp, named_perm h, nodup_places_perm h,
    pairwise_apart_perm h]

/-- **Tools are made in every order or in none.** -/
theorem descriptors_reject_perm (hp : config.collisions = .reject)
    (h : s.actions.Perm t.actions) :
    (∃ c, descriptors config s = .ok c) ↔ ∃ c, descriptors config t = .ok c := by
  rw [descriptors_reject_iff hp, descriptors_reject_iff hp, named_perm h, pairwise_apart_perm h,
    nodup_askedNames_perm h]

/-! ## Documents without replacements -/

/-- A document that some plans were folded into without a replacement; their stems are distinct. -/
structure DocumentState.Unreplaced (d : DocumentState) (plans : List ActionPlan) : Prop where
  run : ({} : DocumentState).addAll plans .reject = .ok d
  stems : (plans.map fun p => p.identity.stem).Nodup

namespace DocumentState

variable {d e : DocumentState} {plans others : List ActionPlan}

/-- **The operations of the document** are those of the plans, each at its place. -/
theorem Unreplaced.perm_entries (h : d.Unreplaced plans) :
    (PathItem.entries d.paths).Perm (plans.map fun p => (p.place, p.operation)) := by
  have hkeeps : d.Keeps plans := keeps_addAll h.run keeps_empty
  have htidy := tidy_addAll h.run
  have hplaces : (plans.map ActionPlan.place).Nodup := (addAll_reject_iff.mp ⟨d, h.run⟩).1
  have hentries : (PathItem.entries d.paths).Nodup := List.Nodup.of_map _ (nodup_places htidy)
  have hplans : (plans.map fun p => (p.place, p.operation)).Nodup :=
    List.Nodup.of_map Prod.fst (by simpa [Function.comp_def] using hplaces)
  rw [List.perm_ext_iff_of_nodup hentries hplans]
  rintro ⟨place, o⟩
  rw [mem_entries_iff_stands hkeeps htidy, List.mem_map]
  constructor
  · rintro ⟨p, hp, -, rfl, rfl⟩
    exact ⟨p, hp, rfl⟩
  · rintro ⟨p, hp, heq⟩
    obtain ⟨rfl, rfl⟩ := Prod.mk.inj heq
    exact ⟨p, hp, stands_of_not_replaced h.run (addAll_of_reject h.run).1 hp, rfl, rfl⟩

/-- **A schema of the document** is one of a plan. -/
theorem Unreplaced.get?_schemas (h : d.Unreplaced plans) {name : String} {s : Schema} :
    Ordered.get? d.schemas name = some s ↔ ∃ p ∈ plans, (name, s) ∈ p.schemas := by
  have hcontents := addAll_contents h.run
  rw [hcontents.schemas]
  constructor
  · intro hs
    by_contra hnone
    push Not at hnone
    have hkeeps : d.Keeps plans := keeps_addAll h.run keeps_empty
    rw [← hcontents.schemas, hkeeps.schemas] at hs
    obtain ⟨⟨_, _⟩, he, rfl⟩ := Option.map_eq_some_iff.mp hs
    obtain ⟨hmem, hname⟩ := List.mem_filter.mp (List.mem_of_getLast? he)
    obtain ⟨p, hp, hps⟩ := List.mem_flatMap.mp hmem
    obtain rfl := eq_of_beq hname
    exact hnone p hp hps
  · rintro ⟨p, hp, hps⟩
    exact get?_schemas_writeAll h.stems hp hps

variable (hd : d.Unreplaced plans) (he : e.Unreplaced others) (hperm : plans.Perm others)

include hd he hperm

/-- The order of the plans does not matter for the operations. -/
theorem entries_perm : (PathItem.entries d.paths).Perm (PathItem.entries e.paths) :=
  hd.perm_entries.trans ((hperm.map _).trans he.perm_entries.symm)

/-- The order of the plans does not matter for the schemas. -/
theorem get?_schemas_perm (name : String) :
    Ordered.get? d.schemas name = Ordered.get? e.schemas name := by
  refine Option.ext fun s => ?_
  rw [hd.get?_schemas, he.get?_schemas]
  simp only [hperm.mem_iff]

/-- The order of the plans does not matter for what is noted about authentication. -/
theorem secured_perm : d.secured = e.secured := by
  rw [Bool.eq_iff_iff, (addAll_contents hd.run).secured, (addAll_contents he.run).secured,
    secured_writeAll, secured_writeAll]
  simp only [hperm.mem_iff]

end DocumentState

/-- **A document that was made with rejection** is one of the actions alone. -/
theorem assemble_reject_unreplaced {c : Compiled OpenApi} (hp : config.collisions = .reject)
    (hc : assemble config s = .ok c) : ∃ state, c.output =
        DocumentState.document state (config.infoFor s.ontology?) config.serverList ∧
      state.Unreplaced (s.actions.map Action.alone) := by
  obtain ⟨plans, planner, state, hplan, hstate, rfl⟩ := assemble_eq_ok_iff.mp hc
  have hreject : (Planner.new config).registry.policy = .reject := hp
  obtain rfl := Planner.planAll_alone hreject hplan
  rw [hp] at hstate
  refine ⟨state, rfl, hstate, (Planner.planAll_fresh hplan fun hover => ?_).2.1⟩
  exact absurd (hreject.symm.trans hover) (by simp)

/-! ## Ontologies in another order -/

/-- The second ontology has the objects of the first, by name, in another order, and each with its
actions in another order. -/
def Ontology.Reordered (o₁ o₂ : Ontology) : Prop :=
  ∃ es, o₁.objects.Perm es ∧
    List.Forall₂ (fun e f : Entity => e.name = f.name ∧ e.actions.Perm f.actions) es o₂.objects

/-- **Ontologies in another order** have the same actions of the same objects. -/
theorem Ontology.Reordered.perm {o₁ o₂ : Ontology} (h : o₁.Reordered o₂) :
    (Scope.whole o₁).actions.Perm (Scope.whole o₂).actions := by
  obtain ⟨es, hes, hall⟩ := h
  refine (hes.flatMap_right _).trans ?_
  show (es.flatMap Scope.objectActions).Perm (o₂.objects.flatMap Scope.objectActions)
  clear hes
  generalize o₂.objects = fs at hall ⊢
  induction hall with
  | nil => exact .refl _
  | @cons e f es fs hef _ ih =>
    obtain ⟨hname, hactions⟩ := hef
    rw [List.flatMap_cons, List.flatMap_cons]
    refine List.Perm.append ?_ ih
    rw [Scope.objectActions, Scope.objectActions, hname]
    exact hactions.map _

/-- **Where collisions are rejected, order does not matter.** Of two ontologies with the same
actions of the same objects, in whatever order, either both are compiled into a document or none is;
and the two documents have the same operations at the same paths and methods, the same schemas under
the same names and the same security schemes. Likewise both or none are compiled into tools, and
each action comes to the same tool. -/
theorem order_irrelevant (hp : config.collisions = .reject) {o₁ o₂ : Ontology}
    (h : (Scope.whole o₁).actions.Perm (Scope.whole o₂).actions) :
    ((∃ c, assemble config (.whole o₁) = .ok c) ↔ ∃ c, assemble config (.whole o₂) = .ok c) ∧
    (∀ c₁ c₂, assemble config (.whole o₁) = .ok c₁ → assemble config (.whole o₂) = .ok c₂ →
      (PathItem.entries c₁.output.paths).Perm (PathItem.entries c₂.output.paths) ∧
      (∀ name, Ordered.get? c₁.output.components.schemas name =
        Ordered.get? c₂.output.components.schemas name) ∧
      c₁.output.components.securitySchemes = c₂.output.components.securitySchemes) ∧
    ((∃ c, descriptors config (.whole o₁) = .ok c) ↔
      ∃ c, descriptors config (.whole o₂) = .ok c) ∧
    ∀ c₁ c₂, descriptors config (.whole o₁) = .ok c₁ → descriptors config (.whole o₂) = .ok c₂ →
      c₁.output.length = (Scope.whole o₁).actions.length ∧
      ((Scope.whole o₁).actions.zip c₁.output).Perm
        ((Scope.whole o₂).actions.zip c₂.output) := by
  refine ⟨assemble_reject_perm hp h, fun c₁ c₂ h₁ h₂ => ?_, descriptors_reject_perm hp h,
    fun c₁ c₂ h₁ h₂ => ?_⟩
  · obtain ⟨d, hd, hplans⟩ := assemble_reject_unreplaced hp h₁
    obtain ⟨e, he, hothers⟩ := assemble_reject_unreplaced hp h₂
    have hperm := h.map Action.alone
    rw [hd, he]
    refine ⟨DocumentState.entries_perm hplans hothers hperm,
      DocumentState.get?_schemas_perm hplans hothers hperm, ?_⟩
    simp only [DocumentState.document, DocumentState.secured_perm hplans hothers hperm]
  · have hreject : (Planner.new config).registry.policy = .reject := hp
    obtain ⟨tools₁, planner₁, htools₁, rfl⟩ := descriptors_eq_ok_iff.mp h₁
    obtain ⟨tools₂, planner₂, htools₂, rfl⟩ := descriptors_eq_ok_iff.mp h₂
    obtain rfl := Planner.planTools_alone hreject htools₁
    obtain rfl := Planner.planTools_alone hreject htools₂
    have hzip : ∀ as : List (String × Action),
        as.zip (as.map Action.toolAlone) = as.map fun e => (e, Action.toolAlone e) := by
      intro as
      simpa using List.zip_map' (f := id) (g := Action.toolAlone) (l := as)
    refine ⟨List.length_map _, ?_⟩
    rw [hzip, hzip]
    exact h.map _

/-- Two objects, one of them with two actions. -/
def Ontology.sorted : Ontology :=
  { objects := [{ name := "Order", actions := [.named "Approve", .named "Ship"] },
    { name := "Invoice", actions := [.named "Pay"] }] }

/-- The same objects and actions from the last to the first. -/
def Ontology.reversed : Ontology :=
  { objects := [{ name := "Invoice", actions := [.named "Pay"] },
    { name := "Order", actions := [.named "Ship", .named "Approve"] }] }

/-- From the last to the first, the same three operations are compiled. -/
theorem order_irrelevant_reversed :
    Ontology.sorted.Reordered .reversed ∧
    ∃ c₁ c₂, assemble { collisions := .reject } (.whole .sorted) = .ok c₁ ∧
      assemble { collisions := .reject } (.whole .reversed) = .ok c₂ ∧
      c₁.output.operationIds = ["approve", "ship", "pay"] ∧
      c₂.output.operationIds = ["pay", "ship", "approve"] ∧
      (PathItem.entries c₁.output.paths).Perm (PathItem.entries c₂.output.paths) := by
  have hreordered : Ontology.sorted.Reordered .reversed :=
    ⟨_, List.Perm.swap _ _ [], .cons ⟨rfl, .refl _⟩ (.cons ⟨rfl, List.Perm.swap _ _ []⟩ .nil)⟩
  have hids : ((assemble { collisions := .reject } (.whole .sorted)).toOption.map fun c =>
      c.output.operationIds) = some ["approve", "ship", "pay"] := by
    decide +kernel
  have hids' : ((assemble { collisions := .reject } (.whole .reversed)).toOption.map fun c =>
      c.output.operationIds) = some ["pay", "ship", "approve"] := by
    decide +kernel
  have hc : ∃ c, assemble { collisions := .reject } (.whole .sorted) = .ok c := ⟨_, rfl⟩
  have hreject : ({ collisions := .reject } : Config).collisions = .reject := rfl
  obtain ⟨hgoes, hsame, -, -⟩ := order_irrelevant hreject hreordered.perm
  obtain ⟨c₂, hc₂⟩ := hgoes.mp hc
  obtain ⟨c₁, hc₁⟩ := hc
  rw [hc₁] at hids
  rw [hc₂] at hids'
  exact ⟨hreordered, c₁, c₂, hc₁, hc₂, Option.some.inj hids, Option.some.inj hids',
    (hsame c₁ c₂ hc₁ hc₂).1⟩

end OntologyCompiler
