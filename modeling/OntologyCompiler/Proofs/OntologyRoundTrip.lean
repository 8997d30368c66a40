import Mathlib.Data.List.DropRight
import OntologyCompiler.Ontology.Read
import OntologyCompiler.Ontology.Write
import OntologyCompiler.Proofs.Reading

/-!
# Ontologies that are written and read again

Reading is lenient and forgets: kinds that are not known collapse, levels of risk lose the blanks
around them, `null` options vanish. What one reading leaves is in a normal form, and writing a
normal form and reading it again changes nothing.

* `RiskLevel.normal_parse`: the text of a level that was read stands for that level.
* `Ontology.normal_of_read`: what is read is normal, from any medium where `null` can be told.
* `Ontology.read_toJson`: what is normal is read back.
* `Ontology.fromJson_iff_normal`: so being normal is being readable from JSON.
* `settled_by_reading`: one reading settles an ontology, an action or a governance record.
-/

namespace OntologyCompiler

open Record (read_record read_keeps)
open Json (always)

/-! ## Levels of risk -/

/-- What is left after stripping starts without a blank. -/
theorem Text.stripFront_stripChars (cs : List Char) :
    stripFront (stripChars cs) = stripChars cs := by
  have hfront : stripChars cs <+: stripFront cs := List.rdropWhile_prefix isBlank _
  refine List.dropWhile_eq_self_iff.mpr fun hl => ?_
  rw [hfront.getElem hl]
  exact List.dropWhile_get_zero_not isBlank cs (hl.trans_le hfront.length_le)

/-- Blanks are stripped off once and for all. -/
theorem Text.strip_strip (s : String) : strip (strip s) = strip s := by
  have hchars : stripChars (stripChars s.toList) = stripChars s.toList := by
    rw [stripChars, stripFront_stripChars]
    exact List.rdropWhile_idempotent isBlank _
  rw [strip, strip, String.toList_ofList, hchars]

namespace RiskLevel

/-- A level that its own text stands for. -/
def Normal (r : RiskLevel) : Prop :=
  parse r.text = r

/-- **The text of a level that was read stands for that level.** -/
theorem normal_parse (s : String) : (parse s).Normal := by
  have hparse : ∀ t, Text.strip t = t → (parse t).Normal := by
    intro t ht
    rcases hlevel : parse t with _ | _ | _ | _ | u
    case other =>
      have hu : t = u := by
        unfold parse at hlevel
        rw [ht] at hlevel
        simp only at hlevel
        split at hlevel <;> simp_all
      rw [Normal, text, ← hu, hlevel, hu]
    all_goals exact parse_text_of_known _ (by simp)
  have hstrip : parse (Text.strip s) = parse s := by
    simp only [parse, Text.strip_strip]
  rw [← hstrip]
  exact hparse _ (Text.strip_strip s)

theorem read_toJson {r : RiskLevel} (h : r.Normal) : read r.toJson = .ok r :=
  congrArg Except.ok h

end RiskLevel

/-! ## The closed vocabularies -/

theorem ActionKind.read_toJson (k : ActionKind) : read k.toJson = .ok k := by
  cases k <;> decide +kernel

theorem ParameterKind.read_toJson (k : ParameterKind) : read k.toJson = .ok k := by
  cases k <;> rfl

theorem Json.byte_ofByte (n : UInt8) : Medium.byte (Json.ofByte n) = .ok n := by
  have hlt : (n.toNat : Int) < 256 := by
    have := n.toNat_lt
    omega
  show Json.byteOf (.whole n.toNat) = .ok n
  rw [Json.byteOf, if_pos ⟨Int.natCast_nonneg _, hlt⟩, Int.toNat_natCast, UInt8.ofNat_toNat]

theorem Reading.list_ofStrings (ss : List String) :
    Reading.list Medium.text (Json.ofStrings ss) = .ok ss :=
  Reading.list_map fun _ _ => rfl

/-! ## What is normal is read back -/

theorem Parameter.read_toJson (p : Parameter) : read p.toJson = .ok p :=
  read_record (by decide +kernel)
    (.must rfl (.orNamed (ParameterKind.read_toJson p.kind) (.plain rfl (.plain rfl .nil))))

theorem BusinessLayer.read_toJson (b : BusinessLayer) : read b.toJson = .ok b :=
  read_record (by decide +kernel) (.plain rfl (.plain rfl (.plain rfl (.plain rfl .nil))))

theorem LogicLayer.read_toJson (l : LogicLayer) : read l.toJson = .ok l :=
  read_record (by decide +kernel)
    (.plain (Reading.list_ofStrings _) (.plain (Reading.list_map fun p _ => p.read_toJson)
      (.plain (Reading.list_ofStrings _) (.plain (Reading.list_ofStrings _) .nil))))

theorem Property.read_toJson (p : Property) : read p.toJson = .ok p :=
  read_record (by decide +kernel)
    (.must rfl (.plain rfl (.plain rfl (.plain rfl (.plain rfl .nil)))))

/-- A text that may be absent is never `null` where it is there. -/
theorem Reading.text_of_mem {o : Option String} : ∀ s ∈ o,
    Json.str s ≠ .null ∧ Medium.text (Json.str s) = .ok s :=
  fun _ _ => ⟨nofun, rfl⟩

/-- A value of any shape that may be absent is read back unless it is `null`. -/
theorem Reading.free_of_mem {o : Option Json} (h : o ≠ some .null) : ∀ v ∈ o,
    id v ≠ .null ∧ Medium.free (id v) = .ok v :=
  fun _ hv => ⟨fun hnull => h (hv.trans (congrArg some hnull)), rfl⟩

/-- An authored tool whose schema is not `null`. -/
def ToolSpec.Normal (t : ToolSpec) : Prop :=
  t.parameters ≠ some .null

theorem ToolSpec.read_toJson {t : ToolSpec} (h : t.Normal) : read t.toJson = .ok t :=
  read_record (by decide +kernel)
    (.plain rfl (.plain rfl (.whenSome rfl (Reading.free_of_mem h) .nil)))

/-- An implementation layer whose example body is not `null` and whose tool is normal. -/
structure ImplementationLayer.Normal (i : ImplementationLayer) : Prop where
  payload : i.payload ≠ some .null
  tool : ∀ t ∈ i.tool, t.Normal

theorem ImplementationLayer.read_toJson {i : ImplementationLayer} (h : i.Normal) :
    read i.toJson = .ok i :=
  read_record (by decide +kernel)
    (.whenSome rfl Reading.text_of_mem (.whenSome rfl Reading.text_of_mem
      (.whenSome rfl (Reading.free_of_mem h.payload)
        (.whenSome rfl (fun t ht => ⟨nofun, ToolSpec.read_toJson (h.tool t ht)⟩) .nil))))

/-- A governance record whose level of risk is normal. -/
def Governance.Normal (g : Governance) : Prop :=
  g.risk.Normal

theorem Governance.read_toJson {g : Governance} (h : g.Normal) : read g.toJson = .ok g :=
  read_record (by decide +kernel)
    (.plain (Json.byte_ofByte g.tier) (.plain rfl (.plain rfl
      (.plain (RiskLevel.read_toJson h) .nil))))

/-- An action whose layers are normal. -/
structure Action.Normal (a : Action) : Prop where
  implementation : ∀ i ∈ a.implementation, i.Normal
  governance : ∀ g ∈ a.governance, g.Normal

theorem Action.read_toJson {a : Action} (h : a.Normal) : read a.toJson = .ok a :=
  read_record (by decide +kernel)
    (.whenSome rfl Reading.text_of_mem (.must rfl (.orNamed (ActionKind.read_toJson a.kind)
      (.plain rfl (.whenSome rfl (fun b _ => ⟨nofun, b.read_toJson⟩)
        (.whenSome rfl (fun l _ => ⟨nofun, l.read_toJson⟩)
          (.whenSome rfl
            (fun i hi => ⟨nofun, ImplementationLayer.read_toJson (h.implementation i hi)⟩)
            (.whenSome rfl (fun g hg => ⟨nofun, Governance.read_toJson (h.governance g hg)⟩)
              .nil))))))))

/-- An object with normal actions. -/
def Entity.Normal (e : Entity) : Prop :=
  ∀ a ∈ e.actions, a.Normal

theorem Entity.read_toJson {e : Entity} (h : e.Normal) : read e.toJson = .ok e :=
  read_record (by decide +kernel)
    (.plain rfl (.must rfl (.plain rfl (.plain (Reading.list_map fun p _ => p.read_toJson)
      (.plain (Reading.list_map fun a ha => Action.read_toJson (h a ha)) .nil)))))

/-- An ontology with normal objects. -/
def Ontology.Normal (o : Ontology) : Prop :=
  ∀ e ∈ o.objects, e.Normal

/-- **A normal ontology is read back.** -/
theorem Ontology.read_toJson {o : Ontology} (h : o.Normal) : read o.toJson = .ok o :=
  read_record (by decide +kernel)
    (.whenSome rfl Reading.text_of_mem (.whenSome rfl Reading.text_of_mem
      (.plain (Reading.list_map fun e he => Entity.read_toJson (h e he)) .nil)))

/-! ## What is read is normal -/

section Read

variable {ν : Type} [Medium ν (Except Fault)] {node : ν}

theorem RiskLevel.normal_of_read {r : RiskLevel} (h : read node = .ok r) : r.Normal := by
  change parse <$> Medium.text node = .ok r at h
  cases htext : (Medium.text node : Except Fault String) with
  | error e => simp [htext] at h
  | ok s =>
    rw [htext] at h
    obtain rfl := Except.ok.inj h
    exact normal_parse s

theorem Governance.normal_of_read {g : Governance} (h : read node = .ok g) : g.Normal := by
  refine read_keeps (P := Normal) h ?_ (RiskLevel.normal_parse "")
  simp only [fields, List.forall_mem_cons]
  refine ⟨?_, ?_, ?_, ?_, List.forall_mem_nil _⟩
  · exact Field.keeps_plain fun _ _ _ _ hg => hg
  · exact Field.keeps_plain fun _ _ _ _ hg => hg
  · exact Field.keeps_plain fun _ _ _ _ hg => hg
  · exact Field.keeps_plain fun _ _ hrisk _ _ => RiskLevel.normal_of_read hrisk

variable [Medium.TellsNull ν]

theorem ToolSpec.normal_of_read {t : ToolSpec} (h : read node = .ok t) : t.Normal := by
  refine read_keeps (P := Normal) h ?_ nofun
  simp only [fields, List.forall_mem_cons]
  refine ⟨?_, ?_, ?_, List.forall_mem_nil _⟩
  · exact Field.keeps_plain fun _ _ _ _ ht => ht
  · exact Field.keeps_plain fun _ _ _ _ ht => ht
  · exact Field.keeps_plain fun _ _ hparameters _ _ => Reading.optional_free_ne_null hparameters

theorem ImplementationLayer.normal_of_read {i : ImplementationLayer} (h : read node = .ok i) :
    i.Normal := by
  refine read_keeps (P := Normal) h ?_ ⟨nofun, nofun⟩
  simp only [fields, List.forall_mem_cons]
  refine ⟨?_, ?_, ?_, ?_, List.forall_mem_nil _⟩
  · exact Field.keeps_plain fun _ _ _ _ hi => ⟨hi.payload, hi.tool⟩
  · exact Field.keeps_plain fun _ _ _ _ hi => ⟨hi.payload, hi.tool⟩
  · exact Field.keeps_plain fun _ _ hpayload _ hi =>
      ⟨Reading.optional_free_ne_null hpayload, hi.tool⟩
  · exact Field.keeps_plain fun _ _ htool _ hi =>
      ⟨hi.payload, Reading.optional_keeps htool fun _ _ => ToolSpec.normal_of_read⟩

theorem Action.normal_of_read {a : Action} (h : read node = .ok a) : a.Normal := by
  refine read_keeps (P := Normal) h ?_ ⟨nofun, nofun⟩
  simp only [fields, List.forall_mem_cons]
  refine ⟨?_, ?_, ?_, ?_, ?_, ?_, ?_, ?_, List.forall_mem_nil _⟩
  case refine_2 => exact Field.keeps_must fun _ _ _ _ ha => ⟨ha.implementation, ha.governance⟩
  case refine_3 =>
    exact Field.keeps_orNamed (Field.keeps_plain fun _ _ _ _ ha =>
      ⟨ha.implementation, ha.governance⟩)
  case refine_7 =>
    exact Field.keeps_plain fun _ _ himplementation _ ha =>
      ⟨Reading.optional_keeps himplementation fun _ _ => ImplementationLayer.normal_of_read,
        ha.governance⟩
  case refine_8 =>
    exact Field.keeps_plain fun _ _ hgovernance _ ha =>
      ⟨ha.implementation,
        Reading.optional_keeps hgovernance fun _ _ => Governance.normal_of_read⟩
  all_goals exact Field.keeps_plain fun _ _ _ _ ha => ⟨ha.implementation, ha.governance⟩

theorem Entity.normal_of_read {e : Entity} (h : read node = .ok e) : e.Normal := by
  refine read_keeps (P := Normal) h ?_ (List.forall_mem_nil _)
  simp only [fields, List.forall_mem_cons]
  refine ⟨?_, ?_, ?_, ?_, ?_, List.forall_mem_nil _⟩
  case refine_2 => exact Field.keeps_must fun _ _ _ _ he => he
  case refine_5 =>
    exact Field.keeps_plain fun _ _ hactions _ _ =>
      Reading.list_keeps hactions fun _ _ => Action.normal_of_read
  all_goals exact Field.keeps_plain fun _ _ _ _ he => he

/-- **What is read is normal**, whatever the medium. -/
theorem Ontology.normal_of_read {o : Ontology} (h : read node = .ok o) : o.Normal := by
  refine read_keeps (P := Normal) h ?_ (List.forall_mem_nil _)
  simp only [fields, List.forall_mem_cons]
  refine ⟨?_, ?_, ?_, List.forall_mem_nil _⟩
  · exact Field.keeps_plain fun _ _ _ _ ho => ho
  · exact Field.keeps_plain fun _ _ _ _ ho => ho
  · exact Field.keeps_plain fun _ _ hobjects _ _ =>
      Reading.list_keeps hobjects fun _ _ => Entity.normal_of_read

end Read

/-! ## One reading settles everything -/

/-- What can be read from JSON, given as a value or as a text. -/
def Json.Gives {α : Type} (read : Json → Except Fault α) (readNode : TextNode → Except Fault α)
    (a : α) : Prop :=
  (∃ v, read v = .ok a) ∨ ∃ text, readText readNode text = .ok a

/-- What holds of everything that the two readings give holds of what is read from JSON. -/
theorem Json.Gives.elim {α : Type} {P : Prop} {read : Json → Except Fault α}
    {readNode : TextNode → Except Fault α} {a : α} (h : Gives read readNode a)
    (hvalue : ∀ v, read v = .ok a → P) (hnode : ∀ node, readNode node = .ok a → P) : P := by
  rcases h with ⟨v, hv⟩ | ⟨text, htext⟩
  · exact hvalue v hv
  · obtain ⟨node, hread⟩ := exists_node_of_readText htext
    exact hnode node hread

/-- Ontologies that can be read from JSON. -/
def Ontology.FromJson : Ontology → Prop :=
  Json.Gives read read

/-- Actions that can be read from JSON. -/
def Action.FromJson : Action → Prop :=
  Json.Gives read read

/-- Governance records that can be read from JSON. -/
def Governance.FromJson : Governance → Prop :=
  Json.Gives read read

theorem Ontology.fromJson_iff_normal {o : Ontology} : o.FromJson ↔ o.Normal :=
  ⟨fun h => h.elim (fun _ => normal_of_read) fun _ => normal_of_read,
    fun h => .inl ⟨_, read_toJson h⟩⟩

theorem Action.fromJson_iff_normal {a : Action} : a.FromJson ↔ a.Normal :=
  ⟨fun h => h.elim (fun _ => normal_of_read) fun _ => normal_of_read,
    fun h => .inl ⟨_, read_toJson h⟩⟩

theorem Governance.fromJson_iff_normal {g : Governance} : g.FromJson ↔ g.Normal :=
  ⟨fun h => h.elim (fun _ => normal_of_read) fun _ => normal_of_read,
    fun h => .inl ⟨_, read_toJson h⟩⟩

/-- **One reading settles everything**: what was read from JSON, be it an ontology, an action or a
governance record, is written as a value that is read as the same thing; so a second reading does
not change what is written. -/
theorem settled_by_reading :
    (∀ o : Ontology, o.FromJson → Ontology.read o.toJson = .ok o ∧
      (Ontology.read o.toJson).map Ontology.toJson = .ok o.toJson) ∧
    (∀ a : Action, a.FromJson → Action.read a.toJson = .ok a ∧
      (Action.read a.toJson).map Action.toJson = .ok a.toJson) ∧
    ∀ g : Governance, g.FromJson → Governance.read g.toJson = .ok g ∧
      (Governance.read g.toJson).map Governance.toJson = .ok g.toJson := by
  refine ⟨fun o ho => ?_, fun a ha => ?_, fun g hg => ?_⟩
  · have hread := Ontology.read_toJson (Ontology.fromJson_iff_normal.mp ho)
    exact ⟨hread, by rw [hread]; rfl⟩
  · have hread := Action.read_toJson (Action.fromJson_iff_normal.mp ha)
    exact ⟨hread, by rw [hread]; rfl⟩
  · have hread := Governance.read_toJson (Governance.fromJson_iff_normal.mp hg)
    exact ⟨hread, by rw [hread]; rfl⟩

/-- An object with an action that is described in a careless way. -/
def Json.careless : Json :=
  .record [always "objects" (.arr [.record [always "name" (.str "Order"),
    always "actions" (.arr [.record [always "kind" (.str " Generative"),
      always "name" (.str "Approve"), always "owner" .null, always "id" .null,
      always "governance" (.record [always "riskLevel" (.str " Severe "),
        always "permissionTier" (.ofNat 2)]),
      always "implementationLayer" (.record [always "requestPayload" .null,
        always "agentToolSpec" .null])]])]])]

/-- What is left of it after one reading is not changed by another. -/
theorem settled_by_reading_careless : ∃ o, Ontology.read Json.careless = .ok o ∧
    (o.objects.flatMap Entity.actions).map (fun a => (a.name, a.kind, a.governance)) =
      [("Approve", .generative, some { tier := 2, risk := .other "Severe" })] ∧
    Ontology.read o.toJson = .ok o ∧
    ∀ e ∈ o.objects, ∀ a ∈ e.actions, Action.read a.toJson = .ok a ∧
      ∀ g ∈ a.governance, Governance.read g.toJson = .ok g := by
  have hactions : ((Ontology.read Json.careless).toOption.map fun o =>
      (o.objects.flatMap Entity.actions).map fun a => (a.name, a.kind, a.governance)) =
        some [("Approve", .generative, some { tier := 2, risk := .other "Severe" })] := by
    decide +kernel
  obtain ⟨hontology, haction, hgovernance⟩ := settled_by_reading
  cases hread : Ontology.read Json.careless with
  | error e =>
    rw [hread] at hactions
    exact nomatch hactions
  | ok o =>
    rw [hread] at hactions
    have hfrom : o.FromJson := .inl ⟨_, hread⟩
    refine ⟨o, rfl, Option.some.inj hactions, (hontology o hfrom).1, fun e he a ha => ?_⟩
    have hnormal : a.Normal := Ontology.fromJson_iff_normal.mp hfrom e he a ha
    refine ⟨(haction a (Action.fromJson_iff_normal.mpr hnormal)).1, fun g hg => ?_⟩
    exact (hgovernance g (Governance.fromJson_iff_normal.mpr (hnormal.governance g hg))).1

end OntologyCompiler
