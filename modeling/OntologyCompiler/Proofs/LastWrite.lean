import OntologyCompiler.Proofs.Replacements

/-!
# What a document keeps of the plans folded into it

The last plan at a place stands there, and the last schema of a name is kept; paths, methods and
names of schemas stand in the order in which they were first used. Every plan either opens a place
or is reported as replacing the one that stood there.

* `Keeps.write`, `keeps_addAll`: what a document keeps, after one step and after a run.
* `keys_entries`: its operations stand at the places of the plans, one at each.
* `add_counts`, `addAll_counts`: every step opens a place or reports a replacement.
* `assemble_last_write`: the facts together, for every compilation.
-/

namespace OntologyCompiler

open ActionPlan

namespace PathItem

/-- The operations at a path by method; none where the path is not in use. -/
def ofPath (paths : Ordered String PathItem) (path : String) : PathItem :=
  (Ordered.get? paths path).getD []

/-- The operation at a place. -/
def operation? (paths : Ordered String PathItem) (place : String × String) : Option Operation :=
  Ordered.get? (ofPath paths place.1) place.2

theorem ofPath_change (paths : Ordered String PathItem) (path other : String)
    (f : PathItem → PathItem) : ofPath (Ordered.change paths path [] f) other =
      if path = other then f (ofPath paths path) else ofPath paths other := by
  unfold ofPath Ordered.change
  rw [Ordered.get?_put]
  split <;> rfl

end PathItem

namespace DocumentState

/-! ## What is kept -/

/-- What the document keeps of some plans. -/
structure Keeps (d : DocumentState) (plans : List ActionPlan) : Prop where
  /-- Paths stand in the order in which plans came to use them. -/
  paths : Ordered.FirstUse (Ordered.keys d.paths) (plans.map ActionPlan.path)
  /-- So do the methods of each path. -/
  verbs : ∀ path, Ordered.FirstUse (Ordered.keys (PathItem.ofPath d.paths path))
    ((plans.filter fun p => p.path == path).map fun p => p.verb.key)
  /-- At each place stands the operation of the last plan of the place. -/
  operations : ∀ place, PathItem.operation? d.paths place =
    (latest (fun p => p.place == place) plans).map ActionPlan.operation
  /-- The places are those of the plans. -/
  places : Ordered.FirstUse (Ordered.keys d.owners) (plans.map ActionPlan.place)
  /-- The owner of each place is the last plan of the place. -/
  owners : ∀ place, Ordered.get? d.owners place =
    (latest (fun p => p.place == place) plans).map ActionPlan.label
  /-- Schemas stand in the order in which their names were first registered. -/
  schemaNames : Ordered.FirstUse (Ordered.keys d.schemas)
    ((plans.flatMap ActionPlan.schemas).map Prod.fst)
  /-- Under each name stands the schema that was registered last. -/
  schemas : ∀ name, Ordered.get? d.schemas name =
    Ordered.last? (plans.flatMap ActionPlan.schemas) name

theorem keeps_empty : ({} : DocumentState).Keeps [] :=
  ⟨Ordered.firstUse_nil, fun _ => Ordered.firstUse_nil, fun _ => rfl, Ordered.firstUse_nil,
    fun _ => rfl, Ordered.firstUse_nil, fun _ => rfl⟩

/-- **A step keeps the last plan** of its place, and the order of first use. -/
theorem Keeps.write {d : DocumentState} {plans : List ActionPlan} (h : d.Keeps plans)
    (p : ActionPlan) : (d.write p).Keeps (plans ++ [p]) where
  paths := by
    rw [List.map_append]
    exact h.paths.put p.path _
  verbs path := by
    simp only [DocumentState.write, PathItem.ofPath_change, List.filter_append, List.map_append]
    by_cases hp : p.path = path
    · subst hp
      simpa using (h.verbs p.path).put p.verb.key p.operation
    · simpa [hp] using h.verbs path
  operations place := by
    obtain ⟨path, verb⟩ := place
    have hold := h.operations (path, verb)
    simp only [PathItem.operation?] at hold
    rw [latest_snoc]
    simp only [PathItem.operation?, DocumentState.write, PathItem.ofPath_change, place, beq_iff_eq,
      Prod.mk.injEq]
    by_cases hp : p.path = path
    · subst hp
      rw [if_pos rfl, Ordered.get?_put]
      by_cases hv : p.verb.key = verb
      · simp [hv]
      · rw [if_neg hv, if_neg (fun hpv => hv hpv.2)]
        exact hold
    · rw [if_neg hp, if_neg (fun hpv => hp hpv.1)]
      exact hold
  places := by
    rw [List.map_append]
    exact h.places.put p.place p.label
  owners := Occupied.write h.owners p
  schemaNames := by
    rw [List.flatMap_append, List.map_append, List.flatMap_singleton]
    exact h.schemaNames.putAll p.schemas
  schemas name := by
    rw [List.flatMap_append, List.flatMap_singleton, Ordered.last?_append, ← h.schemas name]
    exact Ordered.get?_putAll name p.schemas d.schemas

/-- What is kept is a matter of the contents. -/
theorem Keeps.of_contents {d e : DocumentState} {plans : List ActionPlan} (h : d.Keeps plans)
    (hc : SameContents e d) : e.Keeps plans := by
  constructor
  · rw [hc.paths]; exact h.paths
  · rw [hc.paths]; exact h.verbs
  · rw [hc.paths]; exact h.operations
  · rw [hc.owners]; exact h.places
  · rw [hc.owners]; exact h.owners
  · rw [hc.schemas]; exact h.schemaNames
  · rw [hc.schemas]; exact h.schemas

/-- **A run keeps the last plan** of every place, whatever the policy. -/
theorem keeps_addAll : ∀ {ps earlier : List ActionPlan} {d e : DocumentState}
    {policy : CollisionPolicy}, d.addAll ps policy = .ok e → d.Keeps earlier →
    e.Keeps (earlier ++ ps)
  | [], _, _, _, _, h, hd => by
    obtain rfl := Except.ok.inj h
    simpa using hd
  | p :: ps, earlier, d, e, policy, h, hd => by
    obtain ⟨d', hstep, hrest⟩ := addAll_cons_eq_ok_iff.mp h
    have hkeeps := (hd.write p).of_contents (add_contents hstep)
    rw [List.append_cons]
    exact keeps_addAll hrest hkeeps

/-! ## The operations of a document -/

theorem mem_entries_iff {d : DocumentState} (h : d.Tidy) {place : String × String}
    {op : Operation} : (place, op) ∈ PathItem.entries d.paths ↔
      PathItem.operation? d.paths place = some op := by
  obtain ⟨path, verb⟩ := place
  rw [PathItem.mem_entries]
  simp only [PathItem.operation?, PathItem.ofPath]
  constructor
  · rintro ⟨item, hitem, hop⟩
    rw [Ordered.get?_of_mem h.paths hitem, Option.getD_some]
    exact Ordered.get?_of_mem (h.verbs _ hitem) hop
  · intro hop
    cases hitem : Ordered.get? d.paths path with
    | none => simp [hitem, Ordered.get?] at hop
    | some item =>
      rw [hitem, Option.getD_some] at hop
      exact ⟨item, Ordered.mem_of_get? hitem, Ordered.mem_of_get? hop⟩

/-- **The operations of a document stand at the places of its plans**, one at each. -/
theorem keys_entries {d : DocumentState} {plans : List ActionPlan} (h : d.Keeps plans)
    (ht : d.Tidy) :
    ((PathItem.entries d.paths).map Prod.fst).Perm (Ordered.keys d.owners) := by
  rw [List.perm_ext_iff_of_nodup (nodup_places ht) h.places.nodup]
  intro place
  rw [h.places.mem_iff, List.mem_map, List.mem_map]
  constructor
  · rintro ⟨⟨_, op⟩, he, rfl⟩
    rw [mem_entries_iff ht, h.operations, Option.map_eq_some_iff] at he
    obtain ⟨p, hp, -⟩ := he
    obtain ⟨hmem, hplace⟩ := mem_of_latest hp
    exact ⟨p, hmem, by simpa using hplace⟩
  · rintro ⟨p, hp, rfl⟩
    obtain ⟨q, hq⟩ : ∃ q, latest (fun q => q.place == p.place) plans = some q :=
      exists_latest hp (by simp)
    exact ⟨(p.place, q.operation), (mem_entries_iff ht).mpr (by rw [h.operations, hq]; rfl), rfl⟩

/-! ## Replacements -/

/-- **A step opens a place or reports a replacement**, never both and never neither. -/
theorem add_counts {d e : DocumentState} {p : ActionPlan} {policy : CollisionPolicy}
    (h : d.add p policy = .ok e) :
    e.owners.length + e.findings.length = d.owners.length + d.findings.length + 1 := by
  rcases add_cases h with ⟨hfree, rfl⟩ | ⟨first, hfirst, -, rfl⟩
  · have hput : (d.write p).owners = d.owners ++ [(p.place, p.label)] :=
      Ordered.put_of_notMem (Ordered.get?_eq_none_iff.mp hfree)
    have hsame : (d.write p).findings = d.findings := rfl
    rw [hput, hsame, List.length_append, List.length_singleton]
    omega
  · have hmem : p.place ∈ Ordered.keys d.owners := by
      by_contra hnot
      exact absurd (hfirst.symm.trans (Ordered.get?_eq_none_iff.mpr hnot)) (by simp)
    have hput : Ordered.keys (Ordered.put d.owners p.place p.label) = Ordered.keys d.owners := by
      rw [Ordered.keys_put, if_pos hmem]
    have hlength := congrArg List.length hput
    simp only [Ordered.keys, List.length_map] at hlength
    show (Ordered.put d.owners p.place p.label).length + (d.findings ++ [_]).length = _
    rw [hlength, List.length_append, List.length_singleton]
    omega

/-- **A run opens a place or reports a replacement for every plan.** -/
theorem addAll_counts : ∀ {ps : List ActionPlan} {d e : DocumentState} {policy : CollisionPolicy},
    d.addAll ps policy = .ok e →
    e.owners.length + e.findings.length = d.owners.length + d.findings.length + ps.length
  | [], _, _, _, h => by
    obtain rfl := Except.ok.inj h
    simp
  | p :: ps, d, e, policy, h => by
    obtain ⟨d', hstep, hrest⟩ := addAll_cons_eq_ok_iff.mp h
    rw [addAll_counts hrest, add_counts hstep, List.length_cons]
    omega

/-- The places of a document after a run from the empty one are each there once. -/
theorem tidy_addAll {ps : List ActionPlan} {e : DocumentState} {policy : CollisionPolicy}
    (h : ({} : DocumentState).addAll ps policy = .ok e) : e.Tidy := by
  have htidy := tidy_writeAll ps tidy_empty
  have hc := addAll_contents h
  exact ⟨hc.paths ▸ htidy.paths, hc.paths ▸ htidy.verbs⟩

end DocumentState

/-! ## Whole compilations -/

/-- **The last write wins, in the order of first use, and no loss is silent.** A document has one
operation for each place of a plan and keeps there that of the last plan; the findings of the fold
are errors, one for each plan whose place was taken, with the labels of that plan and of the one
that stood there; and there are as many of them as there are plans beyond the operations. -/
theorem assemble_last_write {config : Config} {scope : Scope} {c : Compiled OpenApi}
    (hc : assemble config scope = .ok c) :
    ∃ plans planner state, (Planner.new config).planAll scope.actions = .ok (plans, planner) ∧
      ({} : DocumentState).addAll plans config.collisions = .ok state ∧
      c.output.paths = state.paths ∧ c.output.components.schemas = state.schemas ∧
      c.findings = planner.findings ++ state.findings ∧ state.Keeps plans ∧
      ((PathItem.entries c.output.paths).map Prod.fst).Nodup ∧
      (∀ place, place ∈ (PathItem.entries c.output.paths).map Prod.fst ↔
        ∃ p ∈ plans, p.place = place) ∧
      state.findings = ((steps [] plans).filterMap fun s => displacement s.1 s.2) ∧
      (∀ f ∈ state.findings, f.isError = true) ∧
      state.findings.length + (PathItem.entries c.output.paths).length = plans.length := by
  obtain ⟨plans, planner, state, hplan, hstate, rfl⟩ := assemble_eq_ok_iff.mp hc
  have hkeeps : state.Keeps plans := DocumentState.keeps_addAll hstate DocumentState.keeps_empty
  have htidy := DocumentState.tidy_addAll hstate
  have hplaces := DocumentState.keys_entries hkeeps htidy
  have hfindings : state.findings = (steps [] plans).filterMap fun s => displacement s.1 s.2 :=
    DocumentState.addAll_errors hstate DocumentState.occupied_empty
  refine ⟨plans, planner, state, hplan, hstate, rfl, rfl, rfl, hkeeps,
    DocumentState.nodup_places htidy, fun place => ?_, hfindings, fun f hf => ?_, ?_⟩
  · refine (hplaces.mem_iff).trans ((hkeeps.places.mem_iff place).trans ?_)
    rw [List.mem_map]
  · rw [hfindings, List.mem_filterMap] at hf
    obtain ⟨s, -, hs⟩ := hf
    obtain ⟨q, -, rfl⟩ := Option.map_eq_some_iff.mp hs
    rfl
  · have hlength := hplaces.length_eq
    have hcounts := DocumentState.addAll_counts hstate
    simp only [Ordered.keys, List.length_map] at hlength
    simp only [List.length_nil] at hcounts
    show state.findings.length + (PathItem.entries state.paths).length = plans.length
    omega

/-- An action that is there three times, with another in between. -/
def Scope.thrice : Scope :=
  .object { name := "Order", actions :=
    [.named "Approve", .named "Ship", .named "Approve", .named "Approve"] }

/-- Renamed, the three have identifiers of their own, but they share a place: the last of them
stands there, before the other action, and two replacements are reported. -/
theorem assemble_last_write_thrice :
    ∃ c, assemble { collisions := .suffix } .thrice = .ok c ∧
      c.output.operationIds = ["approve_3", "ship"] ∧
      ∃ plans planner, ∃ state : DocumentState,
        (Planner.new { collisions := .suffix }).planAll Scope.thrice.actions =
          .ok (plans, planner) ∧ plans.length = 4 ∧
        state.Keeps plans ∧ c.output.paths = state.paths ∧ state.findings.length = 2 := by
  have hc : ∃ c, assemble { collisions := .suffix } .thrice = .ok c := ⟨_, rfl⟩
  have heval : ((assemble { collisions := .suffix } .thrice).toOption.map fun c =>
      (c.output.operationIds, (PathItem.entries c.output.paths).length)) =
      some (["approve_3", "ship"], 2) := by
    decide +kernel
  have hlength : (((Planner.new { collisions := .suffix }).planAll
      Scope.thrice.actions).toOption.map fun x => x.1.length) = some 4 := by
    decide +kernel
  obtain ⟨c, hc⟩ := hc
  rw [hc] at heval
  obtain ⟨hids, hentries⟩ := Prod.mk.inj (Option.some.inj heval)
  obtain ⟨plans, planner, state, hplan, -, hpaths, -, -, hkeeps, -, -, -, -, hcounts⟩ :=
    assemble_last_write hc
  rw [hplan] at hlength
  have hplans : plans.length = 4 := Option.some.inj hlength
  refine ⟨c, hc, hids, plans, planner, state, hplan, hplans, hkeeps, hpaths, ?_⟩
  omega

end OntologyCompiler
