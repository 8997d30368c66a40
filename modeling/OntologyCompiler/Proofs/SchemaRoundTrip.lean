import OntologyCompiler.Proofs.OntologyRoundTrip
import OntologyCompiler.Schema.Basic

/-!
# Schemas that are written and read again

A schema is read as deep as it is nested, so it is read back whole, with one exception: an example
that is `null` is written as `null`, and that is read as no example.

* `Schema.withoutNulls`: the schema without such examples, here and inside.
* `Schema.read_toJson`: what a schema is read back as, if its properties have distinct names.
* `Schema.withoutNulls_eq_self_iff`: only an example that is `null` is lost.
* `Schema.toJson_withoutNulls_eq_iff`: and where one is lost, what is written changes too.
-/

namespace OntologyCompiler

open Json (whenSome unlessEmpty)

/-! ## JSON values -/

namespace Json

/-- A value that is not `null`. -/
def nonNull? : Json → Option Json
  | null => none
  | v => some v

theorem nonNull?_eq_some {v : Json} (h : v ≠ null) : nonNull? v = some v := by
  cases v <;> simp_all [nonNull?]

theorem bind_nonNull?_eq_self_iff {o : Option Json} : o.bind nonNull? = o ↔ o ≠ some null := by
  constructor
  · rintro h rfl
    exact nomatch h
  · intro h
    cases o with
    | none => rfl
    | some v => exact nonNull?_eq_some fun hv => h (congrArg some hv)

theorem height_le_membersHeight {m : String × Json} : ∀ {members : List (String × Json)},
    m ∈ members → m.2.height ≤ membersHeight members
  | (k, v) :: rest, h => by
    rw [membersHeight]
    rcases List.mem_cons.mp h with rfl | hrest
    · exact Nat.le_max_left _ _
    · exact (height_le_membersHeight hrest).trans (Nat.le_max_right _ _)

theorem height_lt_of_mem {m : String × Json} {members : List (String × Json)} (h : m ∈ members) :
    m.2.height < (obj members).height := by
  rw [height]
  exact Nat.lt_succ_of_le (height_le_membersHeight h)

theorem height_lt_of_mem_record {m : String × Json} {members : List (Option (String × Json))}
    (h : some m ∈ members) : m.2.height < (record members).height :=
  height_lt_of_mem (List.mem_filterMap.mpr ⟨some m, h, rfl⟩)

/-- Of equal objects the first members are equal, if both have it or both leave it out. -/
theorem record_cons_inj {m m' : Option (String × Json)} {ms ms' : List (Option (String × Json))}
    (h : record (m :: ms) = record (m' :: ms')) (hsome : m.isSome = m'.isSome) :
    m = m' ∧ record ms = record ms' := by
  have hlist := obj.inj h
  cases m with
  | none =>
    obtain rfl : m' = none := by simpa using hsome.symm
    exact ⟨rfl, congrArg obj hlist⟩
  | some e =>
    obtain ⟨e', rfl⟩ := Option.isSome_iff_exists.mp hsome.symm
    obtain ⟨rfl, hrest⟩ := List.cons.inj hlist
    exact ⟨rfl, congrArg obj hrest⟩

end Json

/-- A value of any shape that may be absent: where it is `null` it is read as absent. -/
theorem Record.Fills.whenFree {σ : Type} {fields : List (Field Json (Except Fault) σ)}
    {members : List (Option (String × Json))} {name : String} {r r' : σ}
    {set : σ → Option Json → σ} {o : Option Json} (hblank : set r none = r)
    (rest : Fills fields members (set r (o.bind Json.nonNull?)) r') :
    Fills (.plain name (Reading.optional Medium.free) set :: fields)
      (Json.whenSome name o id :: members) r r' := by
  by_cases hnull : o = some .null
  · subst hnull
    refine .plain (v := .null) (a := none) ?_ rest
    rfl
  · rw [Json.bind_nonNull?_eq_self_iff.mpr hnull] at rest
    exact .whenSome hblank (Reading.free_of_mem hnull) rest

theorem Reading.list_free (vs : List Json) :
    (Reading.list Medium.free (Json.arr vs) : Except Fault (List Json)) = .ok vs := by
  have hmap : (Reading.list Medium.free (Json.arr (vs.map id)) : Except Fault (List Json)) =
      .ok vs := list_map fun _ _ => rfl
  rwa [List.map_id] at hmap

theorem SchemaType.read_toJson (t : SchemaType) : read t.toJson = .ok t := by
  cases t <;> rfl

namespace Schema

/-! ## What is lost -/

mutual

/-- The schema without examples that are `null`, here and inside. -/
def withoutNulls : Schema → Schema
  | ⟨type, format, description, reference, properties, required, items, enumValues, sample⟩ =>
    ⟨type, format, description, reference, propertiesWithoutNulls properties, required,
      itemsWithoutNulls items, enumValues, sample.bind Json.nonNull?⟩

/-- `withoutNulls` for each property. -/
def propertiesWithoutNulls : List (String × Schema) → List (String × Schema)
  | [] => []
  | (name, s) :: rest => (name, withoutNulls s) :: propertiesWithoutNulls rest

/-- `withoutNulls` for the schema of the items. -/
def itemsWithoutNulls : Option Schema → Option Schema
  | none => none
  | some s => some (withoutNulls s)

end

/-- No example is `null`, here or inside. -/
inductive NullFree : Schema → Prop
  | mk {s : Schema} (sample : s.sample ≠ some .null) (properties : ∀ p ∈ s.properties, NullFree p.2)
      (items : ∀ t ∈ s.items, NullFree t) : NullFree s

/-- The properties have distinct names, here and inside. -/
inductive Distinct : Schema → Prop
  | mk {s : Schema} (keys : (Ordered.keys s.properties).Nodup)
      (properties : ∀ p ∈ s.properties, Distinct p.2) (items : ∀ t ∈ s.items, Distinct t) :
      Distinct s

theorem propertiesWithoutNulls_eq_map : ∀ ps : List (String × Schema),
    propertiesWithoutNulls ps = ps.map fun p => (p.1, p.2.withoutNulls)
  | [] => rfl
  | (name, s) :: rest => by
    rw [propertiesWithoutNulls, propertiesWithoutNulls_eq_map rest, List.map_cons]

theorem itemsWithoutNulls_eq_map (o : Option Schema) :
    itemsWithoutNulls o = o.map withoutNulls := by
  cases o <;> simp [itemsWithoutNulls]

theorem withoutNulls_eq (s : Schema) : s.withoutNulls =
    { s with
      properties := s.properties.map fun p => (p.1, p.2.withoutNulls)
      items := s.items.map withoutNulls
      sample := s.sample.bind Json.nonNull? } := by
  obtain ⟨⟩ := s
  rw [withoutNulls, propertiesWithoutNulls_eq_map, itemsWithoutNulls_eq_map]

mutual

/-- **Only an example that is `null` is lost.** -/
theorem withoutNulls_eq_self_iff : ∀ s : Schema, s.withoutNulls = s ↔ s.NullFree
  | ⟨type, format, description, reference, properties, required, items, enumValues, sample⟩ => by
    rw [withoutNulls, Schema.mk.injEq]
    simp only [true_and, propertiesWithoutNulls_eq_self_iff properties,
      itemsWithoutNulls_eq_self_iff items, Json.bind_nonNull?_eq_self_iff]
    exact ⟨fun ⟨hproperties, hitems, hsample⟩ => .mk hsample hproperties hitems,
      fun ⟨hsample, hproperties, hitems⟩ => ⟨hproperties, hitems, hsample⟩⟩

theorem propertiesWithoutNulls_eq_self_iff : ∀ ps : List (String × Schema),
    propertiesWithoutNulls ps = ps ↔ ∀ p ∈ ps, p.2.NullFree
  | [] => by simp [propertiesWithoutNulls]
  | (name, s) :: rest => by
    rw [propertiesWithoutNulls, List.cons.injEq, Prod.mk.injEq, List.forall_mem_cons,
      withoutNulls_eq_self_iff s, propertiesWithoutNulls_eq_self_iff rest]
    simp

theorem itemsWithoutNulls_eq_self_iff : ∀ o : Option Schema,
    itemsWithoutNulls o = o ↔ ∀ t ∈ o, t.NullFree
  | none => by simp [itemsWithoutNulls]
  | some s => by
    rw [itemsWithoutNulls, Option.some.injEq, withoutNulls_eq_self_iff s]
    simp

end

/-! ## What is read back -/

theorem propertiesToJson_eq_map : ∀ ps : List (String × Schema),
    propertiesToJson ps = ps.map fun p => (p.1, p.2.toJson)
  | [] => rfl
  | (name, s) :: rest => by
    rw [propertiesToJson, propertiesToJson_eq_map rest, List.map_cons]

theorem itemsToJson_eq_whenSome (o : Option Schema) :
    itemsToJson o = whenSome "items" o toJson := by
  cases o <;> simp [itemsToJson, whenSome]

theorem toJson_eq (s : Schema) : s.toJson =
    .record [whenSome "type" s.type SchemaType.toJson, whenSome "format" s.format .str,
      whenSome "description" s.description .str, whenSome "$ref" s.reference .str,
      unlessEmpty "properties" s.properties fun ps => .obj (ps.map fun p => (p.1, p.2.toJson)),
      unlessEmpty "required" s.required Json.ofStrings, whenSome "items" s.items toJson,
      unlessEmpty "enum" s.enumValues Json.arr, whenSome "example" s.sample id] := by
  obtain ⟨⟩ := s
  simp only [toJson, propertiesToJson_eq_map, itemsToJson_eq_whenSome, unlessEmpty]

theorem height_property {s : Schema} {p : String × Schema} (h : p ∈ s.properties) :
    p.2.toJson.height < s.toJson.height := by
  have hne : s.properties ≠ [] := List.ne_nil_of_mem h
  have hmem : (p.1, p.2.toJson) ∈ s.properties.map fun p => (p.1, p.2.toJson) :=
    List.mem_map_of_mem h
  refine (Json.height_lt_of_mem hmem).trans ?_
  rw [s.toJson_eq]
  exact Json.height_lt_of_mem_record (m := ("properties", _)) (by simp [unlessEmpty, hne])

theorem height_items {s t : Schema} (h : t ∈ s.items) : t.toJson.height < s.toJson.height := by
  rw [s.toJson_eq]
  have hmem : whenSome "items" s.items toJson = some ("items", t.toJson) := by
    rw [Option.mem_def.mp h]
    rfl
  exact Json.height_lt_of_mem_record (m := ("items", _)) (by simp [hmem])

theorem nodup_names {ν : Type} {m : Type → Type} [Reads m] [Medium ν m] (inner : ν → m Schema) :
    ((fields inner).flatMap Field.names).Nodup := by
  show (["type", "format", "description", "$ref", "properties", "required", "items", "enum",
    "example"] : List String).Nodup
  decide +kernel

/-- **A schema is read back** without examples that are `null`, as soon as it may be deep enough. -/
theorem readWithin_toJson : ∀ (depth : Nat) {s : Schema}, s.toJson.height < depth → s.Distinct →
    readWithin depth s.toJson = .ok s.withoutNulls
  | depth + 1, s, hdepth, ⟨hkeys, hproperties, hitems⟩ => by
    have hproperty : ∀ p ∈ s.properties,
        readWithin depth p.2.toJson = .ok p.2.withoutNulls := fun p hp =>
      readWithin_toJson depth ((height_property hp).trans_le (Nat.le_of_lt_succ hdepth))
        (hproperties p hp)
    have hitem : ∀ t ∈ s.items, t.toJson ≠ .null ∧
        readWithin depth t.toJson = .ok t.withoutNulls := fun t ht =>
      ⟨by rw [t.toJson_eq]; nofun, readWithin_toJson depth
        ((height_items ht).trans_le (Nat.le_of_lt_succ hdepth)) (hitems t ht)⟩
    rw [s.toJson_eq, s.withoutNulls_eq]
    exact Record.read_record (nodup_names _)
      (.whenSome rfl (fun t _ => ⟨nofun, t.read_toJson⟩) (.whenSome rfl Reading.text_of_mem
        (.whenSome rfl Reading.text_of_mem (.whenSome rfl Reading.text_of_mem
          (.unlessEmpty rfl (fun h => by rw [h]; rfl) (Reading.map_entries hkeys hproperty)
            (.unlessEmpty rfl id (Reading.list_ofStrings _) (.whenSome_map rfl hitem
              (.unlessEmpty rfl id (Reading.list_free _) (.whenFree rfl .nil)))))))))

/-- **A schema is read back**, but for examples that are `null`. -/
theorem read_toJson {s : Schema} (h : s.Distinct) : read s.toJson = .ok s.withoutNulls :=
  readWithin_toJson _ (Nat.lt_succ_self _) h

/-! ## What is written again -/

/-- What is written changes in the properties, the items or the example. -/
theorem parts_of_toJson_eq {s : Schema} (h : s.withoutNulls.toJson = s.toJson) :
    (∀ p ∈ s.properties, p.2.withoutNulls.toJson = p.2.toJson) ∧
    (∀ t ∈ s.items, t.withoutNulls.toJson = t.toJson) ∧ s.sample ≠ some .null := by
  rw [toJson_eq s.withoutNulls, toJson_eq s, withoutNulls_eq] at h
  obtain ⟨-, h⟩ := Json.record_cons_inj h rfl
  obtain ⟨-, h⟩ := Json.record_cons_inj h rfl
  obtain ⟨-, h⟩ := Json.record_cons_inj h rfl
  obtain ⟨-, h⟩ := Json.record_cons_inj h rfl
  obtain ⟨hproperties, h⟩ := Json.record_cons_inj h (by cases s.properties <;> rfl)
  obtain ⟨-, h⟩ := Json.record_cons_inj h rfl
  obtain ⟨hitems, h⟩ := Json.record_cons_inj h (by cases s.items <;> rfl)
  obtain ⟨-, h⟩ := Json.record_cons_inj h rfl
  refine ⟨fun p hp => ?_, ?_, ?_⟩
  · have hne : s.properties ≠ [] := List.ne_nil_of_mem hp
    simp only [unlessEmpty, List.isEmpty_iff, List.map_eq_nil_iff, hne, if_false, Option.some.injEq,
      Prod.mk.injEq, Json.obj.injEq, true_and, List.map_map, List.map_inj_left] at hproperties
    exact (Prod.mk.inj (hproperties p hp)).2
  · rintro t ht
    rw [Option.mem_def.mp ht] at hitems
    exact (Prod.mk.inj (Option.some.inj hitems)).2
  · intro hnull
    rw [hnull] at h
    exact nomatch h

theorem nullFree_of_toJson_eq : ∀ (depth : Nat) {s : Schema}, s.toJson.height < depth →
    s.withoutNulls.toJson = s.toJson → s.NullFree
  | depth + 1, s, hdepth, h => by
    obtain ⟨hproperties, hitems, hsample⟩ := parts_of_toJson_eq h
    refine .mk hsample (fun p hp => ?_) fun t ht => ?_
    · exact nullFree_of_toJson_eq depth
        ((height_property hp).trans_le (Nat.le_of_lt_succ hdepth)) (hproperties p hp)
    · exact nullFree_of_toJson_eq depth
        ((height_items ht).trans_le (Nat.le_of_lt_succ hdepth)) (hitems t ht)

/-- **What is written changes** exactly where an example is lost. -/
theorem toJson_withoutNulls_eq_iff {s : Schema} :
    s.withoutNulls.toJson = s.toJson ↔ s.NullFree :=
  ⟨nullFree_of_toJson_eq _ (Nat.lt_succ_self _),
    fun h => congrArg toJson ((withoutNulls_eq_self_iff s).mpr h)⟩

end Schema
end OntologyCompiler
