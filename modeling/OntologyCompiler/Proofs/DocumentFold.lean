import Mathlib.Data.List.Nodup
import OntologyCompiler.OpenApi.Document
import OntologyCompiler.Proofs.Planning

/-!
# The fold of planned actions into a document

What a step does to the contents of a document does not depend on the policy; the policy decides
only whether a step is taken and what is found. So the contents of a document are those of a fold
without policy (`writeAll`), and what holds of them follows by induction on the plans.

* `add_cases`, `add_eq_error_iff`: all that one step can do.
* `addAll_contents`: the contents after a run.
* `tidy_writeAll`: a path and a method are there once.
* `mem_entries_writeAll`: every operation is that of a plan at its path and method.
* `get?_schemas_writeAll`: where stems are distinct, every schema is kept.
-/

namespace OntologyCompiler

/-- The operations at paths and methods, in the order of the document. -/
def PathItem.entries (paths : Ordered String PathItem) : List ((String × String) × Operation) :=
  paths.flatMap fun e => e.2.map fun o => ((e.1, o.1), o.2)

theorem PathItem.mem_entries {paths : Ordered String PathItem} {path verb : String}
    {op : Operation} : ((path, verb), op) ∈ entries paths ↔
      ∃ item, (path, item) ∈ paths ∧ (verb, op) ∈ item := by
  simp only [entries, List.mem_flatMap, List.mem_map, Prod.mk.injEq, Prod.exists]
  constructor
  · rintro ⟨k, item, hitem, v, o, ho, ⟨rfl, rfl⟩, rfl⟩
    exact ⟨item, hitem, ho⟩
  · rintro ⟨item, hitem, ho⟩
    exact ⟨path, item, hitem, verb, op, ho, ⟨rfl, rfl⟩, rfl⟩

namespace Identity

/-- A request schema is never named like a response schema. -/
theorem requestSchema_ne_responseSchema (i j : Identity) :
    i.requestSchema ≠ j.responseSchema := by
  intro h
  have hlast := congrArg (fun s : String => s.toList.getLast?) h
  simp [requestSchema, responseSchema, String.toList_append] at hlast

theorem requestSchema_inj {i j : Identity} : i.requestSchema = j.requestSchema ↔ i.stem = j.stem :=
  String.append_left_inj _

theorem responseSchema_inj {i j : Identity} :
    i.responseSchema = j.responseSchema ↔ i.stem = j.stem :=
  String.append_left_inj _

end Identity

namespace ActionPlan

/-- The place of a plan in the document. -/
def place (p : ActionPlan) : String × String :=
  (p.path, p.verb.key)

theorem mem_schemas {p : ActionPlan} {name : String} {s : Schema} : (name, s) ∈ p.schemas ↔
    (p.bodySchema = some s ∧ name = p.identity.requestSchema) ∨
    (s = p.action.responseSchema ∧ name = p.identity.responseSchema) := by
  unfold schemas
  cases p.bodySchema with
  | none => simp [and_comm]
  | some t => simp [and_comm, eq_comm]

/-- A plan gives distinct names to its schemas. -/
theorem nodup_schemas (p : ActionPlan) : (p.schemas.map Prod.fst).Nodup := by
  unfold schemas
  cases p.bodySchema with
  | none => simp
  | some t => simpa using p.identity.requestSchema_ne_responseSchema p.identity

/-- Plans of distinct stems share no name of a schema. -/
theorem schemas_disjoint {p q : ActionPlan} (h : p.identity.stem ≠ q.identity.stem) {name : String}
    (hp : name ∈ p.schemas.map Prod.fst) : name ∉ q.schemas.map Prod.fst := by
  intro hq
  obtain ⟨⟨_, s⟩, hs, rfl⟩ := List.mem_map.mp hp
  obtain ⟨⟨_, t⟩, ht, heq⟩ := List.mem_map.mp hq
  simp only at heq
  subst heq
  rcases mem_schemas.mp hs with ⟨-, h1⟩ | ⟨-, h1⟩ <;>
    rcases mem_schemas.mp ht with ⟨-, h2⟩ | ⟨-, h2⟩
  · exact h (Identity.requestSchema_inj.mp (h1.symm.trans h2))
  · exact Identity.requestSchema_ne_responseSchema _ _ (h1.symm.trans h2)
  · exact Identity.requestSchema_ne_responseSchema _ _ (h2.symm.trans h1)
  · exact h (Identity.responseSchema_inj.mp (h1.symm.trans h2))

end ActionPlan

namespace DocumentState

/-! ## One step -/

/-- The state with a finding more. -/
def note (d : DocumentState) (f : Finding) : DocumentState :=
  { d with findings := d.findings ++ [f] }

/-- **All that a successful step can do**: write at a free place, or replace and say so. -/
theorem add_cases {d e : DocumentState} {p : ActionPlan} {policy : CollisionPolicy}
    (h : d.add p policy = .ok e) :
    (d.owner? p = none ∧ e = d.write p) ∨
    (∃ first, d.owner? p = some first ∧ policy ≠ .reject ∧
      e = (d.write p).note (.operationReplaced p.label first p.verb p.path)) := by
  unfold add at h
  cases hown : d.owner? p with
  | none =>
    simp only [hown, Except.ok.injEq] at h
    exact Or.inl ⟨rfl, h.symm⟩
  | some first =>
    cases policy with
    | reject => simp [hown] at h
    | overwrite | suffix =>
      simp only [hown, Except.ok.injEq] at h
      exact Or.inr ⟨first, rfl, by simp, h.symm⟩

/-- A step fails exactly when its place is taken and collisions are rejected. -/
theorem add_eq_error_iff {d : DocumentState} {p : ActionPlan} {policy : CollisionPolicy}
    {e : Failure} : d.add p policy = .error e ↔ policy = .reject ∧
      ∃ first, d.owner? p = some first ∧ e = .operationCollision p.verb p.path first p.label := by
  unfold add
  cases hown : d.owner? p with
  | none => simp
  | some first => cases policy <;> simp [eq_comm]

/-- Two states that say the same, whatever was found on the way. -/
structure SameContents (d e : DocumentState) : Prop where
  paths : d.paths = e.paths
  schemas : d.schemas = e.schemas
  owners : d.owners = e.owners
  secured : d.secured = e.secured

theorem SameContents.refl (d : DocumentState) : SameContents d d :=
  ⟨rfl, rfl, rfl, rfl⟩

theorem SameContents.write {d e : DocumentState} (h : SameContents d e) (p : ActionPlan) :
    SameContents (d.write p) (e.write p) := by
  constructor <;> simp only [DocumentState.write, h.paths, h.schemas, h.owners, h.secured]

/-- A step writes, whatever the policy. -/
theorem add_contents {d e : DocumentState} {p : ActionPlan} {policy : CollisionPolicy}
    (h : d.add p policy = .ok e) : SameContents e (d.write p) := by
  rcases add_cases h with ⟨-, rfl⟩ | ⟨first, -, -, rfl⟩
  · exact SameContents.refl _
  · exact ⟨rfl, rfl, rfl, rfl⟩

/-! ## Runs -/

/-- Write plans one after the other. -/
def writeAll (d : DocumentState) (ps : List ActionPlan) : DocumentState :=
  ps.foldl write d

theorem writeAll_cons (d : DocumentState) (p : ActionPlan) (ps : List ActionPlan) :
    d.writeAll (p :: ps) = (d.write p).writeAll ps := rfl

theorem SameContents.writeAll : ∀ (ps : List ActionPlan) {d e : DocumentState},
    SameContents d e → SameContents (d.writeAll ps) (e.writeAll ps)
  | [], _, _, h => h
  | p :: ps, _, _, h => SameContents.writeAll ps (h.write p)

theorem addAll_nil (d : DocumentState) (policy : CollisionPolicy) :
    d.addAll [] policy = .ok d := rfl

/-- A run that goes through is a step and a run behind it. -/
theorem addAll_cons_eq_ok_iff {d e : DocumentState} {p : ActionPlan} {ps : List ActionPlan}
    {policy : CollisionPolicy} : d.addAll (p :: ps) policy = .ok e ↔
      ∃ d', d.add p policy = .ok d' ∧ d'.addAll ps policy = .ok e :=
  bind_eq_ok_iff

/-- **The contents after a run** are those of writing the plans, whatever the policy. -/
theorem addAll_contents : ∀ {ps : List ActionPlan} {d e : DocumentState}
    {policy : CollisionPolicy}, d.addAll ps policy = .ok e → SameContents e (d.writeAll ps)
  | [], _, _, _, h => by
    obtain rfl := Except.ok.inj h
    exact SameContents.refl _
  | p :: ps, d, e, policy, h => by
    obtain ⟨d', hstep, hrest⟩ := addAll_cons_eq_ok_iff.mp h
    have hd := (add_contents hstep).writeAll ps
    have he := addAll_contents hrest
    exact ⟨he.paths.trans hd.paths, he.schemas.trans hd.schemas, he.owners.trans hd.owners,
      he.secured.trans hd.secured⟩

/-! ## Places -/

/-- Every path is there once, and every method of a path. -/
structure Tidy (d : DocumentState) : Prop where
  paths : (Ordered.keys d.paths).Nodup
  verbs : ∀ e ∈ d.paths, (Ordered.keys e.2).Nodup

theorem tidy_empty : Tidy {} :=
  ⟨List.nodup_nil, fun _ h => absurd h List.not_mem_nil⟩

theorem nodup_verbs_of_get? {d : DocumentState} (h : d.Tidy) (path : String) :
    (Ordered.keys ((Ordered.get? d.paths path).getD [])).Nodup := by
  cases hitem : Ordered.get? d.paths path with
  | none => exact List.nodup_nil
  | some item => exact h.verbs _ (Ordered.mem_of_get? hitem)

theorem tidy_write {d : DocumentState} (h : d.Tidy) (p : ActionPlan) : (d.write p).Tidy := by
  refine ⟨Ordered.nodup_keys_put h.paths _ _, fun e he => ?_⟩
  rcases Ordered.mem_put he with rfl | hold
  · exact Ordered.nodup_keys_put (nodup_verbs_of_get? h p.path) _ _
  · exact h.verbs e hold

theorem tidy_writeAll : ∀ (ps : List ActionPlan) {d : DocumentState}, d.Tidy → (d.writeAll ps).Tidy
  | [], _, h => h
  | p :: ps, _, h => tidy_writeAll ps (tidy_write h p)

/-- In a tidy document no place has two operations. -/
theorem nodup_places {d : DocumentState} (h : d.Tidy) :
    ((PathItem.entries d.paths).map Prod.fst).Nodup := by
  have hmap : (PathItem.entries d.paths).map Prod.fst =
      d.paths.flatMap fun e => (Ordered.keys e.2).map fun verb => (e.1, verb) := by
    simp [PathItem.entries, List.map_flatMap, Ordered.keys, Function.comp_def]
  rw [hmap, List.nodup_flatMap]
  refine ⟨fun e he => (h.verbs e he).map fun _ _ hv => (Prod.mk.inj hv).2, ?_⟩
  refine (List.pairwise_map.mp h.paths).imp fun {a b} hne => ?_
  intro place ha hb
  obtain ⟨_, -, rfl⟩ := List.mem_map.mp ha
  obtain ⟨_, -, heq⟩ := List.mem_map.mp hb
  exact hne (Prod.mk.inj heq).1.symm

/-- An operation after a step is that of the plan or one from before. -/
theorem mem_entries_write {d : DocumentState} {p : ActionPlan}
    {e : (String × String) × Operation} (h : e ∈ PathItem.entries (d.write p).paths) :
    e = (p.place, p.operation) ∨ e ∈ PathItem.entries d.paths := by
  obtain ⟨⟨path, verb⟩, op⟩ := e
  obtain ⟨item, hitem, hop⟩ := PathItem.mem_entries.mp h
  rcases Ordered.mem_put hitem with heq | hold
  · obtain ⟨rfl, rfl⟩ := Prod.mk.inj heq
    rcases Ordered.mem_put hop with heq' | hop'
    · obtain ⟨rfl, rfl⟩ := Prod.mk.inj heq'
      exact Or.inl rfl
    · cases hget : Ordered.get? d.paths p.path with
      | none => simp [hget] at hop'
      | some item' =>
        rw [hget] at hop'
        exact Or.inr (PathItem.mem_entries.mpr ⟨item', Ordered.mem_of_get? hget, hop'⟩)
  · exact Or.inr (PathItem.mem_entries.mpr ⟨item, hold, hop⟩)

/-- **Every operation is that of a plan** at its path and method. -/
theorem mem_entries_writeAll : ∀ {ps : List ActionPlan} {d : DocumentState}
    {e : (String × String) × Operation}, e ∈ PathItem.entries (d.writeAll ps).paths →
    (∃ p ∈ ps, e = (p.place, p.operation)) ∨ e ∈ PathItem.entries d.paths
  | [], _, _, h => Or.inr h
  | p :: ps, d, e, h => by
    rw [writeAll_cons] at h
    rcases mem_entries_writeAll h with ⟨q, hq, heq⟩ | hold
    · exact Or.inl ⟨q, List.mem_cons_of_mem _ hq, heq⟩
    · rcases mem_entries_write hold with heq | hold
      · exact Or.inl ⟨p, List.mem_cons_self, heq⟩
      · exact Or.inr hold

/-! ## Schemas -/

theorem get?_schemas_write_of_mem {d : DocumentState} {p : ActionPlan} {name : String} {s : Schema}
    (h : (name, s) ∈ p.schemas) : Ordered.get? (d.write p).schemas name = some s :=
  Ordered.get?_putAll_of_mem p.nodup_schemas h

/-- A schema that no plan names is left alone. -/
theorem get?_schemas_writeAll_of_notMem : ∀ {ps : List ActionPlan} {d : DocumentState}
    {name : String}, (∀ p ∈ ps, name ∉ p.schemas.map Prod.fst) →
    Ordered.get? (d.writeAll ps).schemas name = Ordered.get? d.schemas name
  | [], _, _, _ => rfl
  | p :: ps, d, name, h => by
    rw [writeAll_cons, get?_schemas_writeAll_of_notMem fun q hq => h q (List.mem_cons_of_mem _ hq)]
    exact Ordered.get?_putAll_of_notMem (h p List.mem_cons_self)

/-- **Where stems are distinct, every schema is kept** as its plan has written it. -/
theorem get?_schemas_writeAll {ps : List ActionPlan} {d : DocumentState}
    (hd : (ps.map fun p => p.identity.stem).Nodup) {p : ActionPlan} (hp : p ∈ ps) {name : String}
    {s : Schema} (hs : (name, s) ∈ p.schemas) :
    Ordered.get? (d.writeAll ps).schemas name = some s := by
  induction ps generalizing d with
  | nil => exact absurd hp List.not_mem_nil
  | cons q ps ih =>
    rw [List.map_cons, List.nodup_cons] at hd
    rw [writeAll_cons]
    rcases List.mem_cons.mp hp with rfl | hlater
    · rw [get?_schemas_writeAll_of_notMem, get?_schemas_write_of_mem hs]
      intro r hr
      have hne : p.identity.stem ≠ r.identity.stem :=
        fun heq => hd.1 (List.mem_map.mpr ⟨r, hr, heq.symm⟩)
      exact ActionPlan.schemas_disjoint hne (List.mem_map.mpr ⟨_, hs, rfl⟩)
    · exact ih hd.2 hlater

end DocumentState
end OntologyCompiler
