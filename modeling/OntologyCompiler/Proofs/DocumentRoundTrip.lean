import OntologyCompiler.Proofs.References
import OntologyCompiler.Proofs.RequestSchema
import OntologyCompiler.Proofs.SchemaRoundTrip

/-!
# Documents that are written and read again

Every part of a document that may be left out where it is empty is read as empty where it is left
out. So a document is read back as it is, up to examples that are `null`. Those come from members of
example bodies: they are shown as they stand, and an example that is `null` is read as no example.

* `OpenApi.read_toJson`: what a document is read back as.
* `settled_operation`, `distinct_schemas`: what an action contributes to a document is fit for it.
* `assemble_sound`: so is the document of a scope of an ontology that was read.
* `document_reread_iff`: when the document is read back as it is.
-/

namespace OntologyCompiler

open Record (read_record)

/-! ## Parts of documents -/

/-- A map with distinct keys whose values have a property. -/
structure Ordered.Sound {α : Type} (P : α → Prop) (m : Ordered String α) : Prop where
  keys : (Ordered.keys m).Nodup
  values : ∀ e ∈ m, P e.2

theorem Ordered.sound_nil {α : Type} {P : α → Prop} : Sound P ([] : Ordered String α) :=
  ⟨List.nodup_nil, List.forall_mem_nil _⟩

theorem Reading.map_toJson {α : Type} {P : α → Prop} {read : Json → Except Fault α}
    {f : α → Json} {m : Ordered String α} (h : Ordered.Sound P m)
    (hread : ∀ a, P a → read (f a) = .ok a) : Reading.map read (Ordered.toJson f m) = .ok m := by
  have hmap := Reading.map_entries (g := id) h.keys fun e he => hread e.2 (h.values e he)
  simpa [Ordered.toJson] using hmap

/-- A schema that is read back as it is. -/
structure Schema.Settled (s : Schema) : Prop where
  distinct : s.Distinct
  nullFree : s.NullFree

theorem Schema.read_of_settled {s : Schema} (h : s.Settled) : read s.toJson = .ok s := by
  rw [read_toJson h.distinct, (withoutNulls_eq_self_iff s).mpr h.nullFree]

theorem Info.read_toJson (i : Info) : read i.toJson = .ok i :=
  read_record (by decide +kernel) (.must rfl (.must rfl (.whenSome rfl Reading.text_of_mem .nil)))

theorem Server.read_toJson (s : Server) : read s.toJson = .ok s :=
  read_record (by decide +kernel) (.must rfl .nil)

theorem ParameterPlace.read_name (p : ParameterPlace) : read (Json.str p.name) = .ok p := by
  cases p <;> rfl

theorem OperationParameter.read_toJson {p : OperationParameter} (h : p.schema.Settled) :
    read p.toJson = .ok p :=
  read_record (by decide +kernel)
    (.must rfl (.must p.place.read_name (.must rfl (.must (Schema.read_of_settled h) .nil))))

/-- A body whose schema is read back as it is. -/
def MediaType.Settled (m : MediaType) : Prop :=
  m.schema.Settled

theorem MediaType.read_toJson (m : MediaType) (h : m.Settled) : read m.toJson = .ok m :=
  read_record (by decide +kernel) (.must (Schema.read_of_settled h) .nil)

/-- The body of a request whose content is read back as it is. -/
def RequestBody.Settled (b : RequestBody) : Prop :=
  Ordered.Sound MediaType.Settled b.content

theorem RequestBody.read_toJson {b : RequestBody} (h : b.Settled) : read b.toJson = .ok b :=
  read_record (by decide +kernel)
    (.must rfl (.must (Reading.map_toJson h MediaType.read_toJson) .nil))

/-- A response whose content is read back as it is. -/
def Response.Settled (r : Response) : Prop :=
  Ordered.Sound MediaType.Settled r.content

theorem Response.read_toJson (r : Response) (h : r.Settled) : read r.toJson = .ok r :=
  read_record (by decide +kernel)
    (.must rfl (.unlessEmpty rfl id (Reading.map_toJson h MediaType.read_toJson) .nil))

theorem SecurityRequirement.read_toJson {r : SecurityRequirement} (h : (Ordered.keys r).Nodup) :
    Reading.map (Reading.list Medium.text) r.toJson = .ok r :=
  Reading.map_toJson (P := fun _ => True) ⟨h, fun _ _ => trivial⟩ fun ss _ =>
    Reading.list_ofStrings ss

/-- An operation whose parts are read back as they are. -/
structure Operation.Settled (o : Operation) : Prop where
  parameters : ∀ p ∈ o.parameters, p.schema.Settled
  requestBody : ∀ b ∈ o.requestBody, b.Settled
  responses : Ordered.Sound Response.Settled o.responses
  security : ∀ r ∈ o.security, (Ordered.keys r).Nodup
  governance : ∀ g ∈ o.governance, g.Normal

theorem Operation.read_toJson (o : Operation) (h : o.Settled) : read o.toJson = .ok o :=
  read_record (by decide +kernel)
    (.must rfl (.must rfl (.whenSome rfl Reading.text_of_mem
      (.unlessEmpty rfl id (Reading.list_ofStrings _)
        (.unlessEmpty rfl id
          (Reading.list_map fun p hp => OperationParameter.read_toJson (h.parameters p hp))
          (.whenSome rfl (fun b hb => ⟨nofun, RequestBody.read_toJson (h.requestBody b hb)⟩)
            (.must (Reading.map_toJson h.responses Response.read_toJson)
              (.unlessEmpty rfl id
                (Reading.list_map fun r hr => SecurityRequirement.read_toJson (h.security r hr))
                (.must rfl (.whenSome rfl
                  (fun g hg => ⟨nofun, Governance.read_toJson (h.governance g hg)⟩) .nil))))))))))

theorem SecurityScheme.read_toJson (s : SecurityScheme) : read s.toJson = .ok s :=
  read_record (by decide +kernel) (.must rfl (.must rfl (.whenSome rfl Reading.text_of_mem .nil)))

/-! ## Whole documents -/

/-- Components whose schemas and security schemes have distinct names. -/
structure Components.Sound (c : Components) : Prop where
  schemas : Ordered.Sound Schema.Distinct c.schemas
  schemes : (Ordered.keys c.securitySchemes).Nodup

/-- The components without examples that are `null`. -/
def Components.withoutNulls (c : Components) : Components :=
  { c with schemas := c.schemas.map fun e => (e.1, e.2.withoutNulls) }

/-- No example in a schema of the components is `null`. -/
def Components.NullFree (c : Components) : Prop :=
  ∀ e ∈ c.schemas, e.2.NullFree

theorem Components.read_toJson {c : Components} (h : c.Sound) :
    read c.toJson = .ok c.withoutNulls :=
  read_record (by decide +kernel)
    (.plain (Reading.map_entries h.schemas.keys fun e he =>
        Schema.read_toJson (h.schemas.values e he))
      (.unlessEmpty rfl id
        (Reading.map_toJson (P := fun _ => True) ⟨h.schemes, fun _ _ => trivial⟩
          fun s _ => SecurityScheme.read_toJson s) .nil))

theorem Components.withoutNulls_eq_self_iff {c : Components} : c.withoutNulls = c ↔ c.NullFree := by
  obtain ⟨schemas, schemes⟩ := c
  rw [withoutNulls, Components.mk.injEq, ← Schema.propertiesWithoutNulls_eq_map,
    Schema.propertiesWithoutNulls_eq_self_iff]
  exact and_iff_left rfl

theorem Components.toJson_withoutNulls_eq_iff {c : Components} :
    c.withoutNulls.toJson = c.toJson ↔ c.NullFree := by
  refine ⟨fun h e he => ?_, fun h => congrArg toJson (withoutNulls_eq_self_iff.mpr h)⟩
  obtain ⟨hschemas, -⟩ := Json.record_cons_inj h rfl
  have hobj := Json.obj.inj (Prod.mk.inj (Option.some.inj hschemas)).2
  rw [withoutNulls, List.map_map, List.map_inj_left] at hobj
  exact Schema.toJson_withoutNulls_eq_iff.mp (Prod.mk.inj (hobj e he)).2

namespace OpenApi

/-- A document whose operations are read back as they are, all keys distinct. -/
structure Sound (d : OpenApi) : Prop where
  paths : Ordered.Sound (Ordered.Sound Operation.Settled) d.paths
  components : d.components.Sound

/-- The document without examples that are `null`. -/
def withoutNulls (d : OpenApi) : OpenApi :=
  { d with components := d.components.withoutNulls }

/-- **A document is read back**, but for examples that are `null`. -/
theorem read_toJson {d : OpenApi} (h : d.Sound) : read d.toJson = .ok d.withoutNulls :=
  read_record (by decide +kernel)
    (.must rfl (.must d.info.read_toJson
      (.unlessEmpty rfl id (Reading.list_map fun s _ => s.read_toJson)
        (.must (Reading.map_toJson h.paths fun _ hitem =>
            Reading.map_toJson hitem Operation.read_toJson)
          (.plain (Components.read_toJson h.components) .nil)))))

theorem withoutNulls_eq_self_iff {d : OpenApi} : d.withoutNulls = d ↔ d.components.NullFree := by
  obtain ⟨openapi, info, servers, paths, components⟩ := d
  rw [← Components.withoutNulls_eq_self_iff, withoutNulls, OpenApi.mk.injEq]
  simp

theorem toJson_withoutNulls_eq_iff {d : OpenApi} :
    d.withoutNulls.toJson = d.toJson ↔ d.components.NullFree := by
  rw [← Components.toJson_withoutNulls_eq_iff]
  refine ⟨fun h => ?_, fun h => ?_⟩
  · obtain ⟨-, h⟩ := Json.record_cons_inj h rfl
    obtain ⟨-, h⟩ := Json.record_cons_inj h rfl
    obtain ⟨-, h⟩ := Json.record_cons_inj h rfl
    obtain ⟨-, h⟩ := Json.record_cons_inj h rfl
    exact (Prod.mk.inj (Option.some.inj (Json.record_cons_inj h rfl).1)).2
  · rw [toJson, toJson]
    simp only [withoutNulls, h]

end OpenApi

/-! ## What an action contributes -/

namespace Schema

/-- A schema whose properties have no parts, and no examples but these values. -/
structure Shallow (values : List Json) (s : Schema) : Prop where
  items : s.items = none
  sample : s.sample = none
  properties : ∀ p ∈ s.properties, p.2.properties = [] ∧ p.2.items = none
  samples : ∀ p ∈ s.properties, ∀ v ∈ p.2.sample, v ∈ values

variable {values : List Json} {s : Schema}

theorem distinct_of_leaf (hproperties : s.properties = []) (hitems : s.items = none) :
    s.Distinct :=
  .mk (by rw [hproperties]; exact List.nodup_nil) (by simp [hproperties]) (by simp [hitems])

theorem settled_of_leaf (hproperties : s.properties = []) (hitems : s.items = none)
    (hsample : s.sample ≠ some .null) : s.Settled :=
  ⟨distinct_of_leaf hproperties hitems,
    .mk hsample (by simp [hproperties]) (by simp [hitems])⟩

theorem settled_of_properties (h : Ordered.Sound Settled s.properties) (hitems : s.items = none)
    (hsample : s.sample ≠ some .null) : s.Settled :=
  ⟨.mk h.keys (fun p hp => (h.values p hp).distinct) (by simp [hitems]),
    .mk hsample (fun p hp => (h.values p hp).nullFree) (by simp [hitems])⟩

theorem Shallow.distinct (h : s.Shallow values) (hkeys : (Ordered.keys s.properties).Nodup) :
    s.Distinct :=
  .mk hkeys (fun p hp => distinct_of_leaf (h.properties p hp).1 (h.properties p hp).2)
    (by simp [h.items])

theorem Shallow.nullFree (h : s.Shallow values) (hvalues : Json.null ∉ values) : s.NullFree := by
  refine .mk (by simp [h.sample]) (fun p hp => ?_) (by simp [h.items])
  obtain ⟨hproperties, hitems⟩ := h.properties p hp
  exact (settled_of_leaf hproperties hitems fun hnull => hvalues (h.samples p hp _ hnull)).nullFree

theorem shallow_addParameter (h : s.Shallow values) (vocabulary : Vocabulary) (q : Parameter) :
    (s.addParameter vocabulary q).Shallow values := by
  unfold addParameter
  cases hname : Text.nonBlank? q.name with
  | none => exact h
  | some name =>
    have hproperty : ((ofKind q.kind vocabulary).described q.description).properties = [] ∧
        ((ofKind q.kind vocabulary).described q.description).items = none ∧
        ((ofKind q.kind vocabulary).described q.description).sample = none := by
      unfold described
      cases Text.nonBlank? q.description <;> exact ⟨rfl, rfl, rfl⟩
    refine ⟨h.items, h.sample, fun p hp => ?_, fun p hp => ?_⟩
    · rcases Ordered.mem_put hp with rfl | hold
      · exact ⟨hproperty.1, hproperty.2.1⟩
      · exact h.properties p hold
    · rcases Ordered.mem_put hp with rfl | hold
      · simp [hproperty.2.2]
      · exact h.samples p hold

theorem shallow_addExample (h : s.Shallow values) (vocabulary : Vocabulary)
    {member : String × Json} (hmember : member.2 ∈ values) :
    (s.addExample vocabulary member).Shallow values := by
  -- the property as it stood, or as the value alone gives rise to it
  have hbefore : ∀ t, t = (Ordered.get? s.properties member.1).getD (infer member.2) →
      (t.properties = [] ∧ t.items = none) ∧ ∀ v ∈ t.sample, v ∈ values := by
    rintro _ rfl
    cases hget : Ordered.get? s.properties member.1 with
    | none => exact ⟨⟨rfl, rfl⟩, nofun⟩
    | some t =>
      have hmem := Ordered.mem_of_get? hget
      exact ⟨h.properties _ hmem, h.samples _ hmem⟩
  obtain ⟨hparts, hsamples⟩ := hbefore _ rfl
  refine ⟨h.items, h.sample, fun p hp => ?_, fun p hp => ?_⟩
  · rcases Ordered.mem_put hp with rfl | hold
    · cases vocabulary <;> exact hparts
    · exact h.properties p hold
  · rcases Ordered.mem_put hp with rfl | hold
    · cases vocabulary with
      | openApi =>
        rintro _ ⟨⟩
        exact hmember
      | jsonSchema => exact hsamples
    · exact h.samples p hold

theorem shallow_parameters {vocabulary : Vocabulary} (qs : List Parameter)
    (h : s.Shallow values) : (qs.foldl (addParameter vocabulary) s).Shallow values := by
  induction qs generalizing s with
  | nil => exact h
  | cons q qs ih =>
    rw [List.foldl_cons]
    exact ih (shallow_addParameter h vocabulary q)

theorem shallow_examples {vocabulary : Vocabulary} (members : List (String × Json))
    (hvalues : ∀ m ∈ members, m.2 ∈ values) (h : s.Shallow values) :
    (members.foldl (addExample vocabulary) s).Shallow values := by
  induction members generalizing s with
  | nil => exact h
  | cons m members ih =>
    obtain ⟨hm, hrest⟩ := List.forall_mem_cons.mp hvalues
    rw [List.foldl_cons]
    exact ih hrest (shallow_addExample h vocabulary hm)

end Schema

namespace Action

/-- **The request schema is shallow**: its examples are members of the example body. -/
theorem shallow_requestShape (a : Action) (vocabulary : Vocabulary) :
    (a.requestShape vocabulary).Shallow ((a.examplePayload.getD []).map Prod.snd) := by
  unfold requestShape
  refine Schema.shallow_examples _ ?_ (Schema.shallow_parameters _ ?_)
  · exact fun m hm => List.mem_map_of_mem hm
  · exact ⟨rfl, rfl, List.forall_mem_nil _, List.forall_mem_nil _⟩

theorem settled_responseSchema (a : Action) : a.responseSchema.Settled := by
  have hnone (v : Json) : none ≠ some v := (Option.some_ne_none v).symm
  have hleaf (t : SchemaType) : (Schema.ofType t).Settled :=
    Schema.settled_of_leaf rfl rfl (hnone .null)
  have hchanges : Schema.Settled
      { Schema.arrayOf (.ofType .string) with sample := some (.ofStrings a.postconditions) } := by
    refine ⟨.mk List.nodup_nil (List.forall_mem_nil _) ?_, .mk ?_ (List.forall_mem_nil _) ?_⟩
    · rintro _ ⟨⟩
      exact (hleaf .string).distinct
    · simp [Json.ofStrings]
    · rintro _ ⟨⟩
      exact (hleaf .string).nullFree
  have hproperties : Ordered.Sound Schema.Settled a.responseSchema.properties := by
    unfold responseSchema
    by_cases hempty : a.postconditions.isEmpty = true
    · refine ⟨by simp [hempty, Ordered.keys], ?_⟩
      simp [hempty, hleaf]
    · refine ⟨by simp [hempty, Ordered.keys], ?_⟩
      simp [hempty, hleaf, hchanges]
  exact Schema.settled_of_properties hproperties rfl (hnone .null)

end Action

namespace ActionPlan

theorem settled_bodyOf (name : String) : Ordered.Sound MediaType.Settled (OpenApi.bodyOf name) := by
  refine ⟨by simp [OpenApi.bodyOf, Ordered.keys], fun e he => ?_⟩
  obtain rfl := List.mem_singleton.mp he
  exact Schema.settled_of_leaf rfl rfl (Option.some_ne_none _).symm

/-- **The operation of an action** is read back as it is, if its governance is normal. -/
theorem settled_operation {p : ActionPlan} (h : p.action.Normal) : p.operation.Settled := by
  refine ⟨?_, ?_, ?_, ?_, h.governance⟩
  · intro q hq
    obtain ⟨name, -, rfl⟩ := List.mem_map.mp hq
    exact Schema.settled_of_leaf rfl rfl nofun
  · intro b hb
    obtain ⟨s, -, rfl⟩ := Option.map_eq_some_iff.mp hb
    exact settled_bodyOf _
  · have hfailures : ∀ e ∈ OpenApi.failureResponses, e.2.content = [] := by
      simp [OpenApi.failureResponses]
    refine ⟨by simp [operation, OpenApi.failureResponses, Ordered.keys], fun e he => ?_⟩
    rcases List.mem_cons.mp he with rfl | hfailure
    · exact settled_bodyOf _
    · rw [Response.Settled, hfailures e hfailure]
      exact Ordered.sound_nil
  · intro r hr
    change r ∈ p.action.security at hr
    have hr' : r = [(OpenApi.schemeName, [])] := by
      unfold Action.security at hr
      split at hr
      · split at hr
        · exact List.mem_singleton.mp hr
        · exact absurd hr List.not_mem_nil
      · exact absurd hr List.not_mem_nil
    simp [hr', Ordered.keys]

theorem bodySchema_shape {p : ActionPlan} {s : Schema} (h : p.bodySchema = some s) :
    s = p.action.requestShape .openApi := by
  unfold bodySchema at h
  split at h
  · exact nomatch h
  · exact (Action.requestSchema_eq_some_iff.mp h).2

theorem distinct_schemas (p : ActionPlan) : ∀ e ∈ p.schemas, e.2.Distinct := by
  rintro ⟨name, s⟩ he
  rcases mem_schemas.mp he with ⟨hbody, -⟩ | ⟨rfl, -⟩
  · obtain rfl := bodySchema_shape hbody
    exact (p.action.shallow_requestShape _).distinct (p.action.nodup_keys_requestShape _)
  · exact p.action.settled_responseSchema.distinct

/-- Where no member of the example body is `null`, no example is. -/
theorem nullFree_schemas {p : ActionPlan}
    (h : ∀ m ∈ p.action.examplePayload.getD [], m.2 ≠ .null) : ∀ e ∈ p.schemas, e.2.NullFree := by
  rintro ⟨name, s⟩ he
  rcases mem_schemas.mp he with ⟨hbody, -⟩ | ⟨rfl, -⟩
  · obtain rfl := bodySchema_shape hbody
    refine (p.action.shallow_requestShape _).nullFree fun hnull => ?_
    obtain ⟨m, hm, hvalue⟩ := List.mem_map.mp hnull
    exact h m hm hvalue
  · exact p.action.settled_responseSchema.nullFree

end ActionPlan

/-! ## What a compilation contributes -/

namespace Ordered

variable {α : Type} {P : α → Prop} {m : Ordered String α}

theorem Sound.put (h : Sound P m) {k : String} {v : α} (hv : P v) : Sound P (put m k v) := by
  refine ⟨nodup_keys_put h.keys k v, fun e he => ?_⟩
  rcases mem_put he with rfl | hold
  · exact hv
  · exact h.values e hold

theorem Sound.putAll : ∀ {entries : List (String × α)} {m : Ordered String α}, Sound P m →
    (∀ e ∈ entries, P e.2) → Sound P (putAll m entries)
  | [], _, h, _ => h
  | (k, v) :: rest, _, h, hentries => by
    obtain ⟨hv, hrest⟩ := List.forall_mem_cons.mp hentries
    rw [putAll_cons]
    exact Sound.putAll (h.put hv) hrest

theorem Sound.change (h : Sound P m) {k : String} {blank : α} {f : α → α} (hblank : P blank)
    (hf : ∀ a, P a → P (f a)) : Sound P (change m k blank f) := by
  refine h.put (hf _ ?_)
  cases hget : get? m k with
  | none => exact hblank
  | some a => exact h.values _ (mem_of_get? hget)

end Ordered

namespace DocumentState

/-- Operations and schemas with a property, all keys distinct. -/
structure Fit (P : Operation → Prop) (Q : Schema → Prop) (d : DocumentState) : Prop where
  paths : Ordered.Sound (Ordered.Sound P) d.paths
  schemas : Ordered.Sound Q d.schemas

variable {P : Operation → Prop} {Q : Schema → Prop} {d : DocumentState}

theorem fit_write (h : d.Fit P Q) {p : ActionPlan} (hoperation : P p.operation)
    (hschemas : ∀ e ∈ p.schemas, Q e.2) : (d.write p).Fit P Q :=
  ⟨h.paths.change Ordered.sound_nil fun _ hitem => hitem.put hoperation,
    h.schemas.putAll hschemas⟩

theorem fit_writeAll : ∀ {ps : List ActionPlan} {d : DocumentState}, d.Fit P Q →
    (∀ p ∈ ps, P p.operation ∧ ∀ e ∈ p.schemas, Q e.2) → (d.writeAll ps).Fit P Q
  | [], _, h, _ => h
  | p :: ps, _, h, hps => by
    obtain ⟨hp, hrest⟩ := List.forall_mem_cons.mp hps
    rw [writeAll_cons]
    exact fit_writeAll (fit_write h hp.1 hp.2) hrest

end DocumentState

/-- The scopes of an ontology: all of it, one of its objects, or one of their actions. -/
inductive Scope.Of (o : Ontology) : Scope → Prop
  | whole : Of o (.whole o)
  | object {e : Entity} (he : e ∈ o.objects) : Of o (.object e)
  | action (name : String) {e : Entity} {a : Action} (he : e ∈ o.objects) (ha : a ∈ e.actions) :
      Of o (.action name a)

theorem Scope.Of.exists_entity {o : Ontology} {scope : Scope} (h : scope.Of o) :
    ∀ x ∈ scope.actions, ∃ e ∈ o.objects, x.2 ∈ e.actions := by
  have hobject : ∀ e : Entity, ∀ x ∈ Scope.objectActions e, x.2 ∈ e.actions := by
    intro e x hx
    obtain ⟨a, ha, rfl⟩ := List.mem_map.mp hx
    exact ha
  intro x hx
  cases h with
  | whole =>
    obtain ⟨e, he, hxe⟩ := List.mem_flatMap.mp hx
    exact ⟨e, he, hobject e x hxe⟩
  | object he => exact ⟨_, he, hobject _ x hx⟩
  | action name he ha =>
    obtain rfl := List.mem_singleton.mp hx
    exact ⟨_, he, ha⟩

variable {config : Config} {scope : Scope} {c : Compiled OpenApi}

/-- What holds of the operations and schemas of all plans holds of those of the document. -/
theorem assemble_fit {P : Operation → Prop} {Q : Schema → Prop}
    (hc : assemble config scope = .ok c)
    (hall : ∀ x ∈ scope.actions, ∀ p : ActionPlan, p.action = x.2 →
      P p.operation ∧ ∀ e ∈ p.schemas, Q e.2) :
    Ordered.Sound (Ordered.Sound P) c.output.paths ∧
      Ordered.Sound Q c.output.components.schemas := by
  obtain ⟨plans, planner, state, hplan, hstate, rfl⟩ := assemble_eq_ok_iff.mp hc
  have hcontents := DocumentState.addAll_contents hstate
  have hfit : (({} : DocumentState).writeAll plans).Fit P Q := by
    refine DocumentState.fit_writeAll ⟨Ordered.sound_nil, Ordered.sound_nil⟩ fun p hp => ?_
    have haction : p.action ∈ scope.actions.map Prod.snd :=
      Planner.planAll_actions hplan ▸ List.mem_map_of_mem hp
    obtain ⟨x, hx, hxp⟩ := List.mem_map.mp haction
    exact hall x hx p hxp.symm
  refine ⟨?_, ?_⟩
  · show Ordered.Sound (Ordered.Sound P) state.paths
    rw [hcontents.paths]
    exact hfit.paths
  · show Ordered.Sound Q state.schemas
    rw [hcontents.schemas]
    exact hfit.schemas

/-- **The document of normal actions** is read back, but for examples that are `null`. -/
theorem assemble_sound (hc : assemble config scope = .ok c)
    (hnormal : ∀ x ∈ scope.actions, x.2.Normal) : c.output.Sound := by
  obtain ⟨hpaths, hschemas⟩ := assemble_fit (P := Operation.Settled) (Q := Schema.Distinct) hc
    fun x hx p hp => ⟨p.settled_operation (hp ▸ hnormal x hx), p.distinct_schemas⟩
  refine ⟨hpaths, hschemas, ?_⟩
  obtain ⟨plans, planner, state, -, -, rfl⟩ := assemble_eq_ok_iff.mp hc
  cases hsecured : state.secured <;> simp [DocumentState.document, hsecured, Ordered.keys]

/-- **When a document is read back as it is.** For every scope of an ontology that was read from
JSON, the compiled document is read back as it is but for examples that are `null`. It is read back
unchanged, and written again unchanged, exactly when its schemas have no such example; they have
none where no member of an example body is `null`. -/
theorem document_reread_iff {o : Ontology} (ho : o.FromJson) (hscope : scope.Of o)
    (hc : assemble config scope = .ok c) :
    OpenApi.read c.output.toJson = .ok c.output.withoutNulls ∧
    (OpenApi.read c.output.toJson = .ok c.output ↔ c.output.components.NullFree) ∧
    ((OpenApi.read c.output.toJson).map OpenApi.toJson = .ok c.output.toJson ↔
      c.output.components.NullFree) ∧
    ((∀ x ∈ scope.actions, ∀ m ∈ x.2.examplePayload.getD [], m.2 ≠ .null) →
      c.output.components.NullFree) := by
  have hnormal : ∀ x ∈ scope.actions, x.2.Normal := by
    intro x hx
    obtain ⟨e, he, hxe⟩ := hscope.exists_entity x hx
    exact Ontology.fromJson_iff_normal.mp ho e he x.2 hxe
  have hread := OpenApi.read_toJson (assemble_sound hc hnormal)
  refine ⟨hread, ?_, ?_, fun hmembers => ?_⟩
  · rw [hread, Except.ok.injEq]
    exact OpenApi.withoutNulls_eq_self_iff
  · rw [hread]
    refine Iff.trans ?_ OpenApi.toJson_withoutNulls_eq_iff
    exact ⟨Except.ok.inj, congrArg Except.ok⟩
  · exact (assemble_fit (P := fun _ => True) (Q := Schema.NullFree) hc fun x hx p hp =>
      ⟨trivial, ActionPlan.nullFree_schemas (hp ▸ hmembers x hx)⟩).2.values

/-- An action whose example body has a member without a value. -/
def Action.blankExample : Action :=
  { name := "Approve", implementation := some { payload := some (.obj [("note", .null)]) } }

/-- An object with this action. -/
def Ontology.blankExample : Ontology :=
  { objects := [{ name := "Order", actions := [.blankExample] }] }

/-- The example of the member is lost when the document is read back. -/
theorem document_reread_iff_blank : ∃ c, assemble {} (.whole .blankExample) = .ok c ∧
    ¬ c.output.components.NullFree ∧
    OpenApi.read c.output.toJson = .ok c.output.withoutNulls ∧
    OpenApi.read c.output.toJson ≠ .ok c.output ∧
    (OpenApi.read c.output.toJson).map OpenApi.toJson ≠ .ok c.output.toJson := by
  have hfrom : Ontology.blankExample.FromJson := by
    refine Ontology.fromJson_iff_normal.mpr fun e he a ha => ?_
    obtain rfl := List.mem_singleton.mp he
    obtain rfl := List.mem_singleton.mp ha
    refine ⟨?_, nofun⟩
    rintro _ ⟨⟩
    exact ⟨nofun, nofun⟩
  have hshown : ((assemble {} (.whole .blankExample)).toOption.map fun c =>
      c.output.components.schemas.any fun e => e.2.properties.any fun p =>
        p.2.sample.any fun v => v.nonNull?.isNone) = some true := by
    decide +kernel
  cases hc : assemble {} (.whole .blankExample) with
  | error e =>
    rw [hc] at hshown
    exact nomatch hshown
  | ok c =>
    rw [hc] at hshown
    have hnull : ¬ c.output.components.NullFree := by
      intro hfree
      obtain ⟨e, he, hany⟩ := List.any_eq_true.mp (Option.some.inj hshown)
      obtain ⟨p, hp, hany⟩ := List.any_eq_true.mp hany
      obtain ⟨v, hv, hnone⟩ := (Option.any_eq_true _ _).mp hany
      obtain ⟨-, hproperties, -⟩ := hfree e he
      obtain ⟨hsample, -, -⟩ := hproperties p hp
      cases v <;> simp_all [Json.nonNull?]
    obtain ⟨hread, hiff, hagain, -⟩ := document_reread_iff hfrom .whole hc
    exact ⟨c, rfl, hnull, hread, fun h => hnull (hiff.mp h), fun h => hnull (hagain.mp h)⟩

end OntologyCompiler
