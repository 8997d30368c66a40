import OntologyCompiler.Proofs.Ordered
import OntologyCompiler.Schema.Request

/-!
# What a request schema requires

A name is required just if some parameter declares it so under its stripped name, whatever other
parameters of that name say and whatever the example shows. The names of properties do not depend on
the vocabulary, and each stands once.

* `mem_required_addParameter`, `required_addExample`: what one parameter, and one member of the
  example, does to the required names.
* `mem_required_requestShape`: the required names are those that are demanded.
* `keys_requestShape`, `nodup_keys_requestShape`: the names of the properties.
* `exists_requestSchema`: where one vocabulary has a schema, so has the other.
-/

namespace OntologyCompiler

namespace Text

theorem nonBlank?_eq_some_iff {s t : String} : nonBlank? s = some t ↔ strip s = t ∧ t ≠ "" := by
  unfold nonBlank?
  by_cases h : (strip s).isEmpty = true
  · rw [if_pos h]
    rw [String.isEmpty_iff] at h
    refine ⟨fun hn => absurd hn (by simp), fun ⟨ht, hne⟩ => absurd (ht.symm.trans h) hne⟩
  · rw [if_neg h, Option.some.injEq]
    rw [String.isEmpty_iff] at h
    exact ⟨fun ht => ⟨ht, ht ▸ h⟩, And.left⟩

end Text

/-- A parameter of the name is required. -/
def Action.Demands (a : Action) (name : String) : Prop :=
  ∃ q ∈ a.parameters, Text.strip q.name = name ∧ q.required = true

namespace Schema

/-! ## One parameter, and one member of the example -/

/-- **A parameter** adds its name if it is required. -/
theorem mem_required_addParameter {v : Vocabulary} {s : Schema} {q : Parameter} {n : String} :
    n ∈ (s.addParameter v q).required ↔
      n ∈ s.required ∨ (Text.nonBlank? q.name = some n ∧ q.required = true) := by
  unfold addParameter
  cases hname : Text.nonBlank? q.name with
  | none => simp
  | some name =>
    dsimp only
    by_cases hreq : q.required = true
    · by_cases hmem : name ∈ s.required
      · rw [if_neg (by simp [isRequired, hmem])]
        exact ⟨Or.inl, fun h => h.elim id fun hn => Option.some.inj hn.1 ▸ hmem⟩
      · rw [if_pos (by simp [isRequired, hreq, hmem])]
        simp [hreq, eq_comm]
    · rw [if_neg (by simp [hreq])]
      simp [hreq]

theorem required_addExample (v : Vocabulary) (s : Schema) (member : String × Json) :
    (s.addExample v member).required = s.required :=
  rfl

/-- The names after one more. -/
def addName (names : List String) (n : String) : List String :=
  if n ∈ names then names else names ++ [n]

theorem nodup_addName {names : List String} (h : names.Nodup) (n : String) :
    (addName names n).Nodup := by
  unfold addName
  split
  · exact h
  · rename_i hn
    exact List.nodup_append.mpr ⟨h, by simp,
      fun a ha b hb heq => hn (List.mem_singleton.mp hb ▸ heq ▸ ha)⟩

theorem keys_addParameter (v : Vocabulary) (s : Schema) (q : Parameter) :
    Ordered.keys (s.addParameter v q).properties =
      (Text.nonBlank? q.name).toList.foldl addName (Ordered.keys s.properties) := by
  unfold addParameter
  cases Text.nonBlank? q.name with
  | none => rfl
  | some name => exact Ordered.keys_put name _ s.properties

theorem keys_addExample (v : Vocabulary) (s : Schema) (member : String × Json) :
    Ordered.keys (s.addExample v member).properties =
      addName (Ordered.keys s.properties) member.1 :=
  Ordered.keys_put member.1 _ s.properties

end Schema

namespace Action

open Schema

/-! ## All of them -/

theorem mem_required_parameters {v : Vocabulary} {n : String} (qs : List Parameter) (s : Schema) :
    n ∈ (qs.foldl (Schema.addParameter v) s).required ↔
      n ∈ s.required ∨ ∃ q ∈ qs, Text.nonBlank? q.name = some n ∧ q.required = true := by
  induction qs generalizing s with
  | nil => simp
  | cons q qs ih =>
    rw [List.foldl_cons, ih, mem_required_addParameter, List.exists_mem_cons_iff, or_assoc]

theorem required_example (v : Vocabulary) (members : List (String × Json)) (s : Schema) :
    (members.foldl (Schema.addExample v) s).required = s.required := by
  induction members generalizing s with
  | nil => rfl
  | cons member members ih => rw [List.foldl_cons, ih, required_addExample]

/-- **The required names** are those that some parameter demands. -/
theorem mem_required_requestShape {a : Action} {v : Vocabulary} {n : String} (hn : n ≠ "") :
    n ∈ (a.requestShape v).required ↔ a.Demands n := by
  have hiff : ∀ q : Parameter, Text.nonBlank? q.name = some n ↔ Text.strip q.name = n :=
    fun q => Text.nonBlank?_eq_some_iff.trans (and_iff_left hn)
  unfold requestShape Demands
  rw [required_example, mem_required_parameters]
  simp [hiff, ofType]

/-- The names that an action gives its properties: those of its parameters first. -/
def propertyNames (a : Action) : List String :=
  a.parameters.filterMap (fun q => Text.nonBlank? q.name) ++
    (a.examplePayload.getD []).map Prod.fst

theorem keys_parameters (v : Vocabulary) (qs : List Parameter) (s : Schema) :
    Ordered.keys (qs.foldl (Schema.addParameter v) s).properties =
      (qs.filterMap fun q => Text.nonBlank? q.name).foldl addName (Ordered.keys s.properties) := by
  induction qs generalizing s with
  | nil => rfl
  | cons q qs ih =>
    rw [List.foldl_cons, ih, keys_addParameter, List.filterMap_cons]
    cases Text.nonBlank? q.name <;> rfl

theorem keys_example (v : Vocabulary) (members : List (String × Json)) (s : Schema) :
    Ordered.keys (members.foldl (Schema.addExample v) s).properties =
      (members.map Prod.fst).foldl addName (Ordered.keys s.properties) := by
  induction members generalizing s with
  | nil => rfl
  | cons member members ih =>
    rw [List.foldl_cons, ih, keys_addExample, List.map_cons, List.foldl_cons]

/-- **The names of the properties** are those of parameters and example, each once; the vocabulary
has no part in them. -/
theorem keys_requestShape (a : Action) (v : Vocabulary) :
    Ordered.keys (a.requestShape v).properties = a.propertyNames.foldl addName [] := by
  unfold requestShape propertyNames
  rw [keys_example, keys_parameters, List.foldl_append]
  rfl

theorem nodup_keys_requestShape (a : Action) (v : Vocabulary) :
    (Ordered.keys (a.requestShape v).properties).Nodup := by
  rw [keys_requestShape]
  have hrun : ∀ (ns names : List String), names.Nodup → (ns.foldl addName names).Nodup := by
    intro ns
    induction ns with
    | nil => exact fun _ h => h
    | cons n ns ih => exact fun names h => ih _ (nodup_addName h n)
  exact hrun _ [] List.nodup_nil

theorem requestSchema_eq_some_iff {a : Action} {v : Vocabulary} {s : Schema} :
    a.requestSchema v = some s ↔
      (a.requestShape v).properties ≠ [] ∧ s = a.requestShape v := by
  unfold requestSchema
  cases h : (a.requestShape v).properties <;> simp [h, eq_comm]

/-- **Where one vocabulary has a schema, so has the other**: that of the same action. -/
theorem exists_requestSchema {a : Action} {v w : Vocabulary} {s : Schema}
    (h : a.requestSchema v = some s) : a.requestSchema w = some (a.requestShape w) := by
  obtain ⟨hne, -⟩ := requestSchema_eq_some_iff.mp h
  have hkeys : Ordered.keys (a.requestShape w).properties =
      Ordered.keys (a.requestShape v).properties := by
    rw [keys_requestShape, keys_requestShape]
  refine requestSchema_eq_some_iff.mpr ⟨fun hnil => hne ?_, rfl⟩
  rw [hnil] at hkeys
  exact List.map_eq_nil_iff.mp hkeys.symm

end Action
end OntologyCompiler
