import OntologyCompiler.Proofs.LastWrite
import OntologyCompiler.Proofs.Pipelines

/-!
# When a document declares its security scheme

A document in the making notes that an operation asks for authentication, and never takes the note
back. So the scheme is declared as soon as one of the actions is guarded, whether or not its
operation is still there in the end; where an operation that asks for authentication was replaced by
one that does not, the scheme may be declared and not be needed by anything.

* `security_operation_ne_nil_iff`: an operation asks for authentication just if its action is
  guarded.
* `secured_write`, `secured_writeAll`: what a step and a run note.
* `declares_iff`, `needs_iff`: when the scheme is declared, and when it is needed.
* `stands_of_not_replaced`: where nothing was replaced, the operation of every plan is there.
* `scheme_declared_iff`: when the two agree, for every compilation.
-/

namespace OntologyCompiler

open ActionPlan

/-- The governance of the action asks callers to be authenticated: it is of the second tier at
least. -/
def Action.IsGuarded (a : Action) : Prop :=
  ∃ g, a.governance = some g ∧ 2 ≤ g.tier

namespace OpenApi

/-- The document declares the scheme by which callers are authenticated. -/
def Declares (d : OpenApi) : Prop :=
  schemeName ∈ Ordered.keys d.components.securitySchemes

/-- Some operation of the document asks for authentication. -/
def Needs (d : OpenApi) : Prop :=
  ∃ e ∈ PathItem.entries d.paths, e.2.security ≠ []

end OpenApi

namespace ActionPlan

/-- **An operation asks for authentication** just if its action is guarded. -/
theorem security_operation_ne_nil_iff (p : ActionPlan) :
    p.operation.security ≠ [] ↔ p.action.IsGuarded := by
  rw [Ne, operation_security_eq_nil_iff]
  unfold Action.IsGuarded Governance.requiresAuth
  push Not
  simp

/-- The plan is the last of its place. -/
def Stands (plans : List ActionPlan) (p : ActionPlan) : Prop :=
  latest (fun q => q.place == p.place) plans = some p

/-- A plan that no later one follows at its place is the last there. -/
theorem stands_of_later {earlier later : List ActionPlan} {p : ActionPlan}
    (h : ∀ q ∈ later, q.place ≠ p.place) : Stands (earlier ++ p :: later) p := by
  have hlater : later.filter (fun q => q.place == p.place) = [] :=
    List.filter_eq_nil_iff.mpr fun q hq => by simpa using h q hq
  unfold Stands latest
  rw [List.filter_append, List.filter_cons, hlater]
  simp

end ActionPlan

namespace DocumentState

/-! ## What is noted -/

theorem secured_write (d : DocumentState) (p : ActionPlan) :
    (d.write p).secured = true ↔ d.secured = true ∨ p.action.IsGuarded := by
  rw [← security_operation_ne_nil_iff]
  unfold write
  simp

/-- **A run notes every guarded action**, also one whose operation is replaced later. -/
theorem secured_writeAll (ps : List ActionPlan) (d : DocumentState) :
    (d.writeAll ps).secured = true ↔ d.secured = true ∨ ∃ p ∈ ps, p.action.IsGuarded := by
  induction ps generalizing d with
  | nil => simp [writeAll]
  | cons p ps ih =>
    rw [writeAll_cons, ih, secured_write, or_assoc]
    simp only [List.mem_cons, exists_eq_or_imp]

theorem declares_document (d : DocumentState) (info : Info) (servers : List Server) :
    (d.document info servers).Declares ↔ d.secured = true := by
  unfold OpenApi.Declares document
  cases d.secured <;> simp [Ordered.keys]

/-- **The scheme is declared** just if some plan of the run is one of a guarded action. -/
theorem declares_iff {ps : List ActionPlan} {d : DocumentState} {policy : CollisionPolicy}
    (h : ({} : DocumentState).addAll ps policy = .ok d) (info : Info) (servers : List Server) :
    (d.document info servers).Declares ↔ ∃ p ∈ ps, p.action.IsGuarded := by
  rw [declares_document, (addAll_contents h).secured, secured_writeAll]
  simp

/-! ## What is needed -/

/-- The operations of a document are those of the plans that are the last of their places. -/
theorem mem_entries_iff_stands {d : DocumentState} {plans : List ActionPlan} (h : d.Keeps plans)
    (ht : d.Tidy) {place : String × String} {o : Operation} :
    (place, o) ∈ PathItem.entries d.paths ↔
      ∃ p ∈ plans, p.Stands plans ∧ p.place = place ∧ o = p.operation := by
  rw [mem_entries_iff ht, h.operations, Option.map_eq_some_iff]
  unfold Stands
  constructor
  · rintro ⟨p, hp, rfl⟩
    obtain ⟨hmem, hplace⟩ := mem_of_latest hp
    obtain rfl := eq_of_beq hplace
    exact ⟨p, hmem, hp, rfl, rfl⟩
  · rintro ⟨p, -, hp, rfl, rfl⟩
    exact ⟨p, hp, rfl⟩

/-- **The scheme is needed** just if the plan of some guarded action is the last of its place. -/
theorem needs_iff {d : DocumentState} {plans : List ActionPlan} (h : d.Keeps plans) (ht : d.Tidy)
    (info : Info) (servers : List Server) : (d.document info servers).Needs ↔
      ∃ p ∈ plans, p.action.IsGuarded ∧ p.Stands plans := by
  unfold OpenApi.Needs
  constructor
  · rintro ⟨⟨place, o⟩, he, hsecurity⟩
    obtain ⟨p, hp, hstands, -, rfl⟩ := (mem_entries_iff_stands h ht).mp he
    exact ⟨p, hp, p.security_operation_ne_nil_iff.mp hsecurity, hstands⟩
  · rintro ⟨p, hp, hguarded, hstands⟩
    exact ⟨(p.place, p.operation), (mem_entries_iff_stands h ht).mpr ⟨p, hp, hstands, rfl, rfl⟩,
      p.security_operation_ne_nil_iff.mpr hguarded⟩

/-- **Where nothing was replaced**, every plan is the last of its place. -/
theorem stands_of_not_replaced {ps : List ActionPlan} {d : DocumentState} {policy : CollisionPolicy}
    (h : ({} : DocumentState).addAll ps policy = .ok d) (hnone : d.findings = []) {p : ActionPlan}
    (hp : p ∈ ps) : p.Stands ps := by
  have herrors := addAll_errors h occupied_empty
  rw [hnone, eq_comm] at herrors
  have hfree := List.filterMap_eq_nil_iff.mp herrors
  obtain ⟨earlier, later, rfl⟩ := List.append_of_mem hp
  refine stands_of_later fun q hq hplace => ?_
  -- a later plan of the place would have found `p` or another one there
  obtain ⟨between, rest, rfl⟩ := List.append_of_mem hq
  have hstep : (earlier ++ p :: between, q) ∈
      steps [] (earlier ++ p :: (between ++ q :: rest)) :=
    mem_steps.mpr ⟨earlier ++ p :: between, rest, by simp, rfl⟩
  obtain ⟨r, hr⟩ : ∃ r, q.occupant? (earlier ++ p :: between) = some r :=
    exists_latest (p := p) (by simp) (by simpa using hplace.symm)
  have hreported := hfree _ hstep
  simp [displacement, hr] at hreported

end DocumentState

/-! ## Whole compilations -/

/-- A finding that an operation took the place of another. -/
def Finding.IsReplacement (f : Finding) : Prop :=
  ∃ label first verb path, f = .operationReplaced label first verb path

/-- A fold finds nothing but replacements. -/
theorem DocumentState.isReplacement_of_mem {ps : List ActionPlan} {d : DocumentState}
    {policy : CollisionPolicy} (h : ({} : DocumentState).addAll ps policy = .ok d) {f : Finding}
    (hf : f ∈ d.findings) : f.IsReplacement := by
  rw [addAll_errors h occupied_empty, List.nil_append, List.mem_filterMap] at hf
  obtain ⟨s, -, hs⟩ := hf
  obtain ⟨q, -, rfl⟩ := Option.map_eq_some_iff.mp hs
  exact ⟨_, _, _, _, rfl⟩

/-- **When the security scheme is declared.** It is declared just if some action of the scope is
guarded, and so wherever it is needed. Every operation is that of the last plan of its place, and
asks for authentication just if the action of that plan is guarded. So what is declared is needed
just if, with any guarded action, there is one whose plan is the last of its place; which is so
where no operation was replaced. -/
theorem scheme_declared_iff {config : Config} {scope : Scope} {c : Compiled OpenApi}
    (hc : assemble config scope = .ok c) :
    (c.output.Declares ↔ ∃ e ∈ scope.actions, e.2.IsGuarded) ∧
    (c.output.Needs → c.output.Declares) ∧
    ((∀ f ∈ c.findings, ¬ f.IsReplacement) → (c.output.Declares ↔ c.output.Needs)) ∧
    ∃ plans planner, (Planner.new config).planAll scope.actions = .ok (plans, planner) ∧
      plans.map ActionPlan.action = scope.actions.map Prod.snd ∧
      (∀ place o, (place, o) ∈ PathItem.entries c.output.paths ↔
        ∃ p ∈ plans, p.Stands plans ∧ p.place = place ∧ o = p.operation) ∧
      (∀ p ∈ plans, p.operation.security ≠ [] ↔ p.action.IsGuarded) ∧
      ((c.output.Declares ↔ c.output.Needs) ↔ ((∃ p ∈ plans, p.action.IsGuarded) →
        ∃ p ∈ plans, p.action.IsGuarded ∧ p.Stands plans)) := by
  obtain ⟨plans, planner, state, hplan, hstate, rfl⟩ := assemble_eq_ok_iff.mp hc
  have hkeeps : state.Keeps plans := DocumentState.keeps_addAll hstate DocumentState.keeps_empty
  have htidy := DocumentState.tidy_addAll hstate
  have hactions := Planner.planAll_actions hplan
  have hdeclares := DocumentState.declares_iff hstate (config.infoFor scope.ontology?)
    config.serverList
  have hneeds := DocumentState.needs_iff hkeeps htidy (config.infoFor scope.ontology?)
    config.serverList
  have hscope : (∃ a ∈ plans.map ActionPlan.action, a.IsGuarded) ↔
      ∃ a ∈ scope.actions.map Prod.snd, a.IsGuarded := by rw [hactions]
  simp only [List.mem_map, exists_exists_and_eq_and] at hscope
  have hneeded : (∃ p ∈ plans, p.action.IsGuarded ∧ p.Stands plans) →
      ∃ p ∈ plans, p.action.IsGuarded := fun ⟨p, hp, hguarded, _⟩ => ⟨p, hp, hguarded⟩
  refine ⟨hdeclares.trans hscope, fun h => hdeclares.mpr (hneeded (hneeds.mp h)), fun hnone => ?_,
    plans, planner, hplan, hactions,
    fun place o => DocumentState.mem_entries_iff_stands hkeeps htidy,
    fun p _ => p.security_operation_ne_nil_iff, ?_⟩
  · have hfindings : state.findings = [] :=
      List.eq_nil_iff_forall_not_mem.mpr fun f hf =>
        hnone f (List.mem_append_right _ hf) (DocumentState.isReplacement_of_mem hstate hf)
    rw [hdeclares, hneeds]
    refine ⟨fun ⟨p, hp, hguarded⟩ => ⟨p, hp, hguarded, ?_⟩, hneeded⟩
    exact DocumentState.stands_of_not_replaced hstate hfindings hp
  · rw [hdeclares, hneeds]
    exact ⟨fun h => h.mp, fun h => ⟨h, hneeded⟩⟩

/-- A guarded action, and one of the same name that is not. -/
def Scope.relaxed : Scope :=
  .object { name := "Order", actions :=
    [{ Action.named "Refund" with governance := some { tier := 2 } }, .named "Refund"] }

/-- The second action takes the place of the first: nothing that is left asks for authentication,
and the scheme is declared all the same. -/
theorem scheme_declared_unneeded :
    ∃ c, assemble {} .relaxed = .ok c ∧
      (PathItem.entries c.output.paths).map (fun e => e.2.security) = [[]] ∧
      c.output.Declares ∧ ¬ c.output.Needs ∧
      ∃ plans planner, (Planner.new {}).planAll Scope.relaxed.actions = .ok (plans, planner) ∧
        (∃ p ∈ plans, p.action.IsGuarded) ∧
        ¬ ∃ p ∈ plans, p.action.IsGuarded ∧ p.Stands plans := by
  have hc : ∃ c, assemble {} .relaxed = .ok c := ⟨_, rfl⟩
  have heval : ((assemble {} .relaxed).toOption.map fun c =>
      (PathItem.entries c.output.paths).map fun e => e.2.security) = some [[]] := by
    decide +kernel
  obtain ⟨c, hc⟩ := hc
  rw [hc] at heval
  have hsecurity : (PathItem.entries c.output.paths).map (fun e => e.2.security) = [[]] :=
    Option.some.inj heval
  obtain ⟨hdeclares, -, -, plans, planner, hplan, hactions, -, -, hagree⟩ := scheme_declared_iff hc
  have hguarded : ∃ e ∈ Scope.relaxed.actions, e.2.IsGuarded :=
    ⟨_, List.mem_cons_self, { tier := 2 }, rfl, by decide⟩
  have hneeds : ¬ c.output.Needs := by
    rintro ⟨e, he, hne⟩
    have hmem := List.mem_map_of_mem (f := fun e => e.2.security) he
    rw [hsecurity, List.mem_singleton] at hmem
    exact hne hmem
  refine ⟨c, hc, hsecurity, hdeclares.mpr hguarded, hneeds, plans, planner, hplan, ?_, ?_⟩
  · have hfirst : ∃ a ∈ plans.map ActionPlan.action, a.IsGuarded := by
      rw [hactions]
      exact ⟨_, List.mem_cons_self, { tier := 2 }, rfl, by decide⟩
    simpa using hfirst
  · intro hstands
    exact hneeds ((hagree.mpr fun _ => hstands).mp (hdeclares.mpr hguarded))

end OntologyCompiler
