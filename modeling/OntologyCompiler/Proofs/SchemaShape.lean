import OntologyCompiler.Proofs.Shape

/-!
# Values of the shape of a schema

A value can be read as a schema just if it has the shape of one, and that is a matter of all its
depths: one part of another shape anywhere inside, and there is no schema at all. Members that a
schema does not know may be anything.

* `Json.IsSchema`, `Json.IsSchemaPart`: the shape of a schema, and of what stands in it under a
  name.
* `Schema.readable_iff`: which values can be read.
* `Schema.keys_properties`, `Schema.ofStrings_required`: what is read of the properties.
-/

namespace OntologyCompiler

namespace Json

/-- The names that a schema knows, in the order of a schema that is given by position. -/
def schemaNames : List String :=
  ["type", "format", "description", "$ref", "properties", "required", "items", "enum", "example"]

mutual

/-- A value of the shape of a schema: its parts are given by name, each of them once, or in their
order. -/
inductive IsSchema : Json → Prop
  | named {members : List (String × Json)}
      (distinct : ((Ordered.keys members).filter (· ∈ schemaNames)).Nodup)
      (parts : ∀ m ∈ members, m.1 ∈ schemaNames → IsSchemaPart m.1 m.2) : IsSchema (obj members)
  | positional {items : List Json} (count : items.length ≤ schemaNames.length)
      (parts : ∀ p ∈ schemaNames.zip items, IsSchemaPart p.1 p.2) : IsSchema (arr items)

/-- A value that may stand under a name in a schema. -/
inductive IsSchemaPart : String → Json → Prop
  | absent {name : String}
      (h : name ∈ ["type", "format", "description", "$ref", "items", "example"]) :
      IsSchemaPart name null
  | type (t : SchemaType) : IsSchemaPart "type" (str t.name)
  | typeMember (t : SchemaType) : IsSchemaPart "type" (obj [(t.name, null)])
  | text {name : String} (h : name ∈ ["format", "description", "$ref"]) (s : String) :
      IsSchemaPart name (str s)
  | properties {members : List (String × Json)} (h : ∀ m ∈ members, IsSchema m.2) :
      IsSchemaPart "properties" (obj members)
  | required (names : List String) : IsSchemaPart "required" (ofStrings names)
  | items {v : Json} (h : IsSchema v) : IsSchemaPart "items" v
  | values (vs : List Json) : IsSchemaPart "enum" (arr vs)
  | sample (v : Json) : IsSchemaPart "example" v

end

variable {v : Json}

theorem isSchema_iff : v.IsSchema ↔
    (∃ members, v = .obj members ∧ Record.Admits IsSchemaPart schemaNames [] members) ∨
    ∃ items, v = .arr items ∧ items.length ≤ schemaNames.length ∧
      ∀ p ∈ schemaNames.zip items, IsSchemaPart p.1 p.2 := by
  constructor
  · intro h
    cases h with
    | named distinct parts => exact Or.inl ⟨_, rfl, distinct, fun _ _ _ => List.not_mem_nil, parts⟩
    | positional count parts => exact Or.inr ⟨_, rfl, count, parts⟩
  · rintro (⟨members, rfl, h⟩ | ⟨items, rfl, hcount, hparts⟩)
    · exact .named h.distinct h.fit
    · exact .positional hcount hparts

theorem isSchemaPart_iff {name : String} : IsSchemaPart name v ↔
    name ∈ ["type", "format", "description", "$ref", "items", "example"] ∧ v = null ∨
    name = "type" ∧ (∃ t : SchemaType, v = str t.name ∨ v = obj [(t.name, null)]) ∨
    name ∈ ["format", "description", "$ref"] ∧ (∃ s, v = str s) ∨
    name = "properties" ∧ (∃ members, v = obj members ∧ ∀ m ∈ members, m.2.IsSchema) ∨
    name = "required" ∧ (∃ names, v = ofStrings names) ∨
    name = "items" ∧ v.IsSchema ∨
    name = "enum" ∧ (∃ vs, v = arr vs) ∨ name = "example" := by
  constructor
  · rintro (h | t | t | ⟨h, s⟩ | h | names | h | vs | v)
    · exact .inl ⟨h, rfl⟩
    · exact .inr <| .inl ⟨rfl, t, .inl rfl⟩
    · exact .inr <| .inl ⟨rfl, t, .inr rfl⟩
    · exact .inr <| .inr <| .inl ⟨h, s, rfl⟩
    · exact .inr <| .inr <| .inr <| .inl ⟨rfl, _, rfl, h⟩
    · exact .inr <| .inr <| .inr <| .inr <| .inl ⟨rfl, names, rfl⟩
    · exact .inr <| .inr <| .inr <| .inr <| .inr <| .inl ⟨rfl, h⟩
    · exact .inr <| .inr <| .inr <| .inr <| .inr <| .inr <| .inl ⟨rfl, vs, rfl⟩
    · exact .inr <| .inr <| .inr <| .inr <| .inr <| .inr <| .inr rfl
  · rintro (⟨h, rfl⟩ | ⟨rfl, t, rfl | rfl⟩ | ⟨h, s, rfl⟩ | ⟨rfl, members, rfl, h⟩ |
      ⟨rfl, names, rfl⟩ | ⟨rfl, h⟩ | ⟨rfl, vs, rfl⟩ | rfl)
    · exact .absent h
    · exact .type t
    · exact .typeMember t
    · exact .text h s
    · exact .properties h
    · exact .required names
    · exact .items h
    · exact .values vs
    · exact .sample v

end Json

theorem SchemaType.mem_table_iff {name : String} :
    name ∈ table.map Prod.fst ↔ ∃ t : SchemaType, t.name = name := by
  constructor
  · intro h
    obtain ⟨e, he, rfl⟩ := List.mem_map.mp h
    obtain ⟨t, -, rfl⟩ := List.mem_map.mp he
    exact ⟨t, rfl⟩
  · rintro ⟨t, rfl⟩
    cases t <;> simp [table, all]

namespace Schema

open Json (IsSchema IsSchemaPart schemaNames)

variable {inner : Json → Except Fault Schema}

theorem singleNamed_fields : Record.SingleNamed (fields inner) := by
  simp [Record.SingleNamed, fields, Field.plain]

theorem required_fields : ∀ f ∈ fields inner, f.required = false := by
  simp [fields, Field.plain]

theorem judges_fields {depth : Nat}
    (h : ∀ w : Json, w.height < depth → (Readable inner w ↔ w.IsSchema)) {v : Json}
    (hv : v.height < depth) : Record.Judges IsSchemaPart (fields inner) v := by
  have hmap : Readable (Reading.map inner) v ↔
      ∃ members, v = .obj members ∧ ∀ m ∈ members, m.2.IsSchema := by
    rw [readable_map_iff]
    refine exists_congr fun members => and_congr_right ?_
    rintro rfl
    exact forall₂_congr fun m hm => h m.2 ((Json.height_lt_of_mem hm).trans hv)
  have htype : Readable (Reading.optional SchemaType.read) v ↔ IsSchemaPart "type" v := by
    simp [SchemaType.read, readable_optional_iff, readable_variant_iff, SchemaType.mem_table_iff,
      Json.isSchemaPart_iff]
  have htext : ∀ name ∈ ["format", "description", "$ref"],
      (Readable (Reading.optional (Medium.text : Json → Except Fault String)) v ↔
        IsSchemaPart name v) := by
    simp [readable_optional_iff, readable_text_iff, Json.isSchemaPart_iff]
  have hitems : Readable (Reading.optional inner) v ↔ IsSchemaPart "items" v := by
    simp [readable_optional_iff, h v hv, Json.isSchemaPart_iff]
  refine .plain htype (.plain (htext _ (by simp)) (.plain (htext _ (by simp))
    (.plain (htext _ (by simp)) (.plain ?_ (.plain ?_ (.plain hitems (.plain ?_
      (.plain ?_ (Record.judges_nil _ v)))))))))
  · simp [hmap, Json.isSchemaPart_iff]
  · simp [readable_texts_iff, Json.isSchemaPart_iff]
  · simp [readable_list_iff, readable_free, Json.isSchemaPart_iff]
  · simp [readable_optional_iff, readable_free, Json.isSchemaPart_iff]

theorem readable_readWithin_iff : ∀ (depth : Nat) {v : Json}, v.height < depth →
    (Readable (readWithin depth) v ↔ v.IsSchema)
  | depth + 1, v, hdepth => by
    have hjudges : ∀ w : Json, w.height < v.height →
        Record.Judges IsSchemaPart (fields (readWithin depth)) w := fun w hw =>
      judges_fields (fun _ => readable_readWithin_iff depth)
        (hw.trans_le (Nat.le_of_lt_succ hdepth))
    rw [Json.isSchema_iff]
    exact Record.readable_iff singleNamed_fields required_fields hjudges

/-- **A value can be read as a schema** just if it has the shape of one. -/
theorem readable_iff {v : Json} : Readable (read : Json → Except Fault Schema) v ↔ v.IsSchema := by
  have hwithin : (∃ s : Schema, readWithin (v.height + 1) v = Except.ok s) ↔ v.IsSchema :=
    readable_readWithin_iff _ (Nat.lt_succ_self _)
  exact hwithin

/-! ## What is read -/

variable {members : List (String × Json)} {s : Schema}

/-- A schema that is given by name is read member by member. -/
theorem exists_readNamed (h : read (Json.obj members) = Except.ok s) :
    ∃ (inner : Json → Except Fault Schema) (seen : List String),
      Record.readNamed (fields inner) [] {} (members.map fun m => (.ok m.1, m.2)) = .ok (seen, s) :=
  ⟨_, (Record.read_obj_eq_ok_iff required_fields).mp h⟩

theorem changedBy_properties : Record.ChangedBy properties "properties" (fields inner) :=
  .plain (fun _ _ _ => rfl) (.plain (fun _ _ _ => rfl) (.plain (fun _ _ _ => rfl)
    (.plain (fun _ _ _ => rfl) (.plain (absurd rfl) (.plain (fun _ _ _ => rfl)
      (.plain (fun _ _ _ => rfl) (.plain (fun _ _ _ => rfl) (.plain (fun _ _ _ => rfl)
        (Record.changedBy_nil _ _)))))))))

theorem changedBy_required : Record.ChangedBy required "required" (fields inner) :=
  .plain (fun _ _ _ => rfl) (.plain (fun _ _ _ => rfl) (.plain (fun _ _ _ => rfl)
    (.plain (fun _ _ _ => rfl) (.plain (fun _ _ _ => rfl) (.plain (absurd rfl)
      (.plain (fun _ _ _ => rfl) (.plain (fun _ _ _ => rfl) (.plain (fun _ _ _ => rfl)
        (Record.changedBy_nil _ _)))))))))

/-- The field of the properties. -/
def propertiesField (inner : Json → Except Fault Schema) : Field Json (Except Fault) Schema :=
  .plain "properties" (Reading.map inner) fun r v => { r with properties := v }

/-- The field of the required names. -/
def requiredField : Field Json (Except Fault) Schema :=
  .plain "required" (Reading.list Medium.text) fun r v => { r with required := v }

/-- **The properties** are those of the document in their order. -/
theorem keys_properties {props : List (String × Json)} (h : read (Json.obj members) = Except.ok s)
    (hprops : Ordered.get? members "properties" = some (.obj props))
    (hkeys : (Ordered.keys props).Nodup) : Ordered.keys s.properties = Ordered.keys props := by
  obtain ⟨inner, seen, hrun⟩ := exists_readNamed h
  have hf : propertiesField inner ∈ fields inner := by simp [fields, propertiesField]
  obtain ⟨-, -, hsome⟩ := Record.readNamed_part singleNamed_fields (nodup_names inner) hf
    changedBy_properties hrun
  obtain ⟨r₁, r₂, hread, hpart⟩ := hsome _ hprops
  obtain ⟨map, hmap, rfl⟩ := Field.plain_read_iff.mp hread
  rw [hpart]
  exact keys_map hkeys hmap

/-- **The required names** are those of the document, none if it has none. -/
theorem ofStrings_required (h : read (Json.obj members) = Except.ok s) :
    Json.ofStrings s.required = (Ordered.get? members "required").getD (.arr []) := by
  obtain ⟨inner, seen, hrun⟩ := exists_readNamed h
  have hf : requiredField ∈ fields inner := by simp [fields, requiredField]
  obtain ⟨-, hnone, hsome⟩ := Record.readNamed_part singleNamed_fields (nodup_names inner) hf
    changedBy_required hrun
  cases hget : Ordered.get? members "required" with
  | none =>
    rw [hnone hget]
    rfl
  | some v =>
    obtain ⟨r₁, r₂, hread, hpart⟩ := hsome v hget
    obtain ⟨names, hnames, rfl⟩ := Field.plain_read_iff.mp hread
    obtain ⟨ss, rfl⟩ := readable_texts_iff.mp ⟨names, hnames⟩
    obtain rfl := Except.ok.inj ((Reading.list_ofStrings ss).symm.trans hnames)
    rw [hpart]
    rfl

end Schema
end OntologyCompiler
