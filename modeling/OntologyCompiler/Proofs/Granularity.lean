import OntologyCompiler.Proofs.Merge
import OntologyCompiler.Proofs.Reordering

/-!
# Compiling a scope part by part

Where a later definition replaces an earlier one and no name is demanded, every compilation goes
through, and an action is planned as if it stood alone. So a scope may be compiled part by part:
the document of an ontology is the merge of those of its objects, that of an object the merge of
those of its actions, and the tools of the parts stand one after the other.

* `assemble_overwrite`, `descriptors_overwrite`: what a scope is compiled to.
* `mergedFrom_of_actions`, `listedFrom_of_actions`: a scope whose actions are those of some parts.
* `granularities_compose`: ontologies by objects, and objects by actions.
-/

namespace OntologyCompiler

/-- Where every run goes through, the list of runs does. -/
theorem exists_mapM {ε α β γ : Type} {run : α → Except ε β} {view : β → γ} {f : α → γ}
    (h : ∀ a, ∃ b, run a = .ok b ∧ view b = f a) :
    ∀ as : List α, ∃ bs, as.mapM run = .ok bs ∧ bs.map view = as.map f
  | [] => ⟨[], rfl, rfl⟩
  | a :: as => by
    obtain ⟨b, hb, hview⟩ := h a
    obtain ⟨bs, hbs, hviews⟩ := exists_mapM h as
    refine ⟨b :: bs, ?_, by rw [List.map_cons, List.map_cons, hview, hviews]⟩
    rw [List.mapM_cons, hb, hbs]
    rfl

/-- The paths and the schemas of a compiled document. -/
def Compiled.contents (c : Compiled OpenApi) : Ordered String PathItem × Ordered String Schema :=
  (c.output.paths, c.output.components.schemas)

/-- The paths and the schemas of plans that are written one after the other. -/
def ActionPlan.contents (plans : List ActionPlan) :
    Ordered String PathItem × Ordered String Schema :=
  (({} : DocumentState).writeAll plans |>.paths, ({} : DocumentState).writeAll plans |>.schemas)

/-- Plans in several parts come to the merge of what the parts come to. -/
theorem ActionPlan.contents_flatten (parts : List (List ActionPlan)) :
    contents parts.flatten =
      ((parts.map fun plans => (contents plans).1).foldl PathItem.merge [],
        (parts.map fun plans => (contents plans).2).foldl Ordered.putAll []) := by
  obtain ⟨hpaths, hschemas⟩ := DocumentState.contents_foldl_join
    (parts.map (({} : DocumentState).writeAll ·)) {}
  rw [List.map_map] at hpaths hschemas
  unfold contents
  rw [DocumentState.writeAll_flatten, hpaths, hschemas]
  rfl

/-- The document of a scope is made like those of its parts, and its paths and schemas are theirs,
merged from left to right. -/
def MergedFrom (config : Config) (scope : Scope) (parts : List Scope) : Prop :=
  ∃ c cs, assemble config scope = .ok c ∧ parts.mapM (assemble config) = .ok cs ∧
    c.output.paths = (cs.map fun d => d.output.paths).foldl PathItem.merge [] ∧
    c.output.components.schemas =
      (cs.map fun d => d.output.components.schemas).foldl Ordered.putAll []

/-- The tools of a scope are made like those of its parts, and are theirs, one part after the
other. -/
def ListedFrom (config : Config) (scope : Scope) (parts : List Scope) : Prop :=
  ∃ c cs, descriptors config scope = .ok c ∧ parts.mapM (descriptors config) = .ok cs ∧
    c.output = cs.flatMap Compiled.output

section Overwrite

variable {config : Config} (hp : config.collisions = .overwrite) (hs : config.strict = false)

include hp hs

/-- **Every scope is compiled** to the document of its actions alone. -/
theorem assemble_overwrite (scope : Scope) : ∃ c, assemble config scope = .ok c ∧
    c.contents = ActionPlan.contents (scope.actions.map Action.alone) := by
  have hreject : config.collisions ≠ .reject := by simp [hp]
  have hsuffix : (Planner.new config).registry.policy ≠ .suffix := by
    simp [Planner.new, Registry.new, hp]
  cases hc : assemble config scope with
  | error e =>
    obtain ⟨hstrict, -⟩ := (assemble_eq_error_iff hreject).mp ⟨e, hc⟩
    exact absurd (hs.symm.trans hstrict) (by simp)
  | ok c =>
    obtain ⟨plans, planner, state, hplan, hstate, rfl⟩ := assemble_eq_ok_iff.mp hc
    have hcontents := DocumentState.addAll_contents hstate
    obtain rfl := Planner.planAll_unrenamed hsuffix hplan
    exact ⟨_, rfl, Prod.ext hcontents.paths hcontents.schemas⟩

/-- **Every scope is compiled** to the tools of its actions alone. -/
theorem descriptors_overwrite (scope : Scope) : ∃ c, descriptors config scope = .ok c ∧
    c.output = scope.actions.map Action.toolAlone := by
  have hreject : config.collisions ≠ .reject := by simp [hp]
  have hsuffix : (Planner.new config).registry.policy ≠ .suffix := by
    simp [Planner.new, Registry.new, hp]
  cases hc : descriptors config scope with
  | error e =>
    obtain ⟨hstrict, -⟩ := (descriptors_eq_error_iff hreject).mp ⟨e, hc⟩
    exact absurd (hs.symm.trans hstrict) (by simp)
  | ok c =>
    obtain ⟨tools, planner, hrun, rfl⟩ := descriptors_eq_ok_iff.mp hc
    exact ⟨_, rfl, Planner.planTools_unrenamed hsuffix hrun⟩

variable {scope : Scope} {parts : List Scope} (h : scope.actions = parts.flatMap Scope.actions)

include h

theorem mergedFrom_of_actions : MergedFrom config scope parts := by
  obtain ⟨c, hc, hcontents⟩ := assemble_overwrite hp hs scope
  obtain ⟨cs, hcs, hviews⟩ := exists_mapM (assemble_overwrite hp hs) parts
  have hflatten : scope.actions.map Action.alone =
      (parts.map fun s => s.actions.map Action.alone).flatten := by
    rw [h, List.map_flatMap, List.flatMap_def]
  have hpaths : (cs.map fun d => d.output.paths) =
      parts.map fun s => (ActionPlan.contents (s.actions.map Action.alone)).1 := by
    have := congrArg (List.map Prod.fst) hviews
    rwa [List.map_map, List.map_map] at this
  have hschemas : (cs.map fun d => d.output.components.schemas) =
      parts.map fun s => (ActionPlan.contents (s.actions.map Action.alone)).2 := by
    have := congrArg (List.map Prod.snd) hviews
    rwa [List.map_map, List.map_map] at this
  rw [hflatten, ActionPlan.contents_flatten, List.map_map, List.map_map] at hcontents
  refine ⟨c, cs, hc, hcs, ?_, ?_⟩
  · rw [hpaths]
    exact congrArg Prod.fst hcontents
  · rw [hschemas]
    exact congrArg Prod.snd hcontents

theorem listedFrom_of_actions : ListedFrom config scope parts := by
  obtain ⟨c, hc, htools⟩ := descriptors_overwrite hp hs scope
  obtain ⟨cs, hcs, hviews⟩ := exists_mapM (descriptors_overwrite hp hs) parts
  refine ⟨c, cs, hc, hcs, ?_⟩
  rw [htools, h, List.map_flatMap, List.flatMap_def, List.flatMap_def, hviews]

end Overwrite

/-- **Granularities compose.** Where a later definition replaces an earlier one and no name is
demanded, the paths and schemas of an ontology are those of its objects, merged from left to right;
those of an object are those of its actions, each compiled alone under the name of the object. The
tools of an ontology are those of its objects, and the tools of an object those of its actions, one
after the other. -/
theorem granularities_compose {config : Config} (hp : config.collisions = .overwrite)
    (hs : config.strict = false) (o : Ontology) :
    MergedFrom config (.whole o) (o.objects.map .object) ∧
    ListedFrom config (.whole o) (o.objects.map .object) ∧
    ∀ e : Entity, MergedFrom config (.object e) (e.actions.map (.action e.name)) ∧
      ListedFrom config (.object e) (e.actions.map (.action e.name)) := by
  have hobjects : (Scope.whole o).actions = (o.objects.map Scope.object).flatMap Scope.actions := by
    rw [List.flatMap_map]
    rfl
  have hactions : ∀ e : Entity, (Scope.object e).actions =
      (e.actions.map (Scope.action e.name)).flatMap Scope.actions := by
    intro e
    rw [List.flatMap_map, Scope.actions, Scope.objectActions, List.map_eq_flatMap]
    rfl
  exact ⟨mergedFrom_of_actions hp hs hobjects, listedFrom_of_actions hp hs hobjects, fun e =>
    ⟨mergedFrom_of_actions hp hs (hactions e), listedFrom_of_actions hp hs (hactions e)⟩⟩

/-- Two objects that share a path, and one method of it. -/
def Ontology.sharing : Ontology :=
  let served (name method : String) : Action :=
    { Action.named name with
      implementation := some { endpoint := some "/orders", method := some method } }
  { objects := [{ name := "Order", actions := [served "Open" "POST", .named "Ship"] },
    { name := "Invoice", actions := [served "List" "GET", served "open" "POST"] }] }

/-- The path and its first method stay in front, with the operation of the second object; the
schema that both define stays in front too. -/
theorem granularities_compose_sharing :
    MergedFrom {} (.whole .sharing) (Ontology.sharing.objects.map .object) ∧
    ∃ c, assemble {} (.whole .sharing) = .ok c ∧
      (PathItem.entries c.output.paths).map (fun e => (e.1, e.2.summary)) =
        [(("/orders", "post"), "open"), (("/orders", "get"), "List"),
          (("/api/orders/{id}/ship", "post"), "Ship")] ∧
      Ordered.keys c.output.components.schemas =
        ["OpenResponse", "ShipResponse", "ListResponse"] := by
  have hmerged : MergedFrom {} (.whole .sharing) (Ontology.sharing.objects.map .object) :=
    (granularities_compose rfl rfl .sharing).1
  obtain ⟨c, cs, hc, hcs, hpaths, hschemas⟩ := hmerged
  have heval : ((assemble {} (.whole .sharing)).toOption.map fun c =>
      ((PathItem.entries c.output.paths).map (fun e => (e.1, e.2.summary)),
        Ordered.keys c.output.components.schemas)) =
      some ([(("/orders", "post"), "open"), (("/orders", "get"), "List"),
          (("/api/orders/{id}/ship", "post"), "Ship")],
        ["OpenResponse", "ShipResponse", "ListResponse"]) := by
    decide +kernel
  rw [hc] at heval
  obtain ⟨hentries, hkeys⟩ := Prod.mk.inj (Option.some.inj heval)
  exact ⟨⟨c, cs, hc, hcs, hpaths, hschemas⟩, c, hc, hentries, hkeys⟩

end OntologyCompiler
