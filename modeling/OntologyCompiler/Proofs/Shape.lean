import Mathlib.Data.Set.List
import OntologyCompiler.Proofs.SchemaRoundTrip

/-!
# Values of the right shape

Which values can be read as a type at all. A list can be read if its items can, a map if its values
can; a record can be read if the members that it knows are given once and fit, whatever else there
is, or if it is given by position and its items fit one by one.

* `readable_optional_iff`, `readable_list_iff`, `readable_map_iff`, `readable_variant_iff`: values
  that may be absent, lists, maps and variants.
* `keys_map`: the names of a map.
* `Record.readable_iff`: records none of whose fields is required.
* `Record.readNamed_part`: a part of a record is what its member was read as.
-/

namespace OntologyCompiler

/-- The value can be read. -/
def Readable {α : Type} (read : Json → Except Fault α) (v : Json) : Prop :=
  ∃ a, read v = .ok a

section Parts

variable {α : Type} {read : Json → Except Fault α} {v : Json}

theorem readable_text_iff : Readable (Medium.text : Json → Except Fault String) v ↔
    ∃ s, v = .str s := by
  unfold Readable
  cases v <;> simp [Medium.text]

theorem readable_free (v : Json) : Readable (Medium.free : Json → Except Fault Json) v :=
  ⟨v, rfl⟩

/-- A value that may be absent is `null` or can be read. -/
theorem readable_optional_iff :
    Readable (Reading.optional read) v ↔ v = .null ∨ Readable read v := by
  unfold Readable Reading.optional
  by_cases hnull : v = .null
  · subst hnull
    exact iff_of_true ⟨none, rfl⟩ (Or.inl rfl)
  · have hpresent : Medium.present? v = .ok (some v) := by
      cases v with
      | null => exact absurd rfl hnull
      | _ => rfl
    rw [hpresent]
    change (∃ o, some <$> read v = .ok o) ↔ _
    cases read v <;> simp [hnull]

theorem exists_mapM_iff : ∀ {items : List Json},
    (∃ xs, items.mapM read = .ok xs) ↔ ∀ w ∈ items, Readable read w
  | [] => by simp [pure, Except.pure]
  | w :: items => by
    rw [List.mapM_cons, List.forall_mem_cons, ← exists_mapM_iff]
    unfold Readable
    simp only [bind_eq_ok_iff]
    constructor
    · rintro ⟨_, a, ha, xs, hxs, -⟩
      exact ⟨⟨a, ha⟩, xs, hxs⟩
    · rintro ⟨⟨a, ha⟩, xs, hxs⟩
      exact ⟨_, a, ha, xs, hxs, rfl⟩

/-- A list can be read if its items can. -/
theorem readable_list_iff :
    Readable (Reading.list read) v ↔ ∃ items, v = .arr items ∧ ∀ w ∈ items, Readable read w := by
  unfold Readable Reading.list
  simp only [bind_eq_ok_iff]
  constructor
  · rintro ⟨_, run, hrun, xs, hxs, -⟩
    cases v with
    | arr items =>
      obtain rfl := Except.ok.inj hrun
      exact ⟨items, rfl, exists_mapM_iff.mp ⟨xs, hxs⟩⟩
    | _ => simp [Medium.items] at hrun
  · rintro ⟨items, rfl, hitems⟩
    obtain ⟨xs, hxs⟩ := exists_mapM_iff.mpr hitems
    exact ⟨xs, _, rfl, xs, hxs, (), rfl, rfl⟩

/-- A list of texts. -/
theorem readable_texts_iff :
    Readable (Reading.list Medium.text : Json → Except Fault (List String)) v ↔
      ∃ ss, v = .ofStrings ss := by
  have hrange : ∀ items : List Json,
      (∀ w ∈ items, ∃ s, w = .str s) ↔ ∃ ss : List String, items = ss.map .str := by
    intro items
    have h := Set.ext_iff.mp (Set.range_list_map Json.str) items
    simpa [eq_comm] using h.symm
  rw [readable_list_iff]
  simp only [readable_text_iff, hrange]
  constructor
  · rintro ⟨_, rfl, ss, rfl⟩
    exact ⟨ss, rfl⟩
  · rintro ⟨ss, rfl⟩
    exact ⟨_, rfl, ss, rfl⟩

theorem exists_entries_iff : ∀ {members : List (String × Json)} {done : Ordered String α},
    (∃ map, Reading.entries read done (members.map fun m => (.ok m.1, m.2)) = .ok map) ↔
      ∀ m ∈ members, Readable read m.2
  | [], done => by simp [Reading.entries, pure, Except.pure]
  | m :: members, done => by
    rw [List.map_cons, Reading.entries, List.forall_mem_cons]
    simp only [bind_eq_ok_iff]
    constructor
    · rintro ⟨map, _, -, a, ha, hrest⟩
      exact ⟨⟨a, ha⟩, exists_entries_iff.mp ⟨map, hrest⟩⟩
    · rintro ⟨⟨a, ha⟩, hrest⟩
      obtain ⟨map, hmap⟩ := exists_entries_iff.mpr hrest
      exact ⟨map, m.1, rfl, a, ha, hmap⟩

/-- A map can be read if its values can. -/
theorem readable_map_iff :
    Readable (Reading.map read) v ↔
      ∃ members, v = .obj members ∧ ∀ m ∈ members, Readable read m.2 := by
  unfold Readable Reading.map
  simp only [bind_eq_ok_iff]
  constructor
  · rintro ⟨_, run, hrun, map, hmap, -⟩
    cases v with
    | obj members =>
      obtain rfl := Except.ok.inj hrun
      exact ⟨members, rfl, exists_entries_iff.mp ⟨map, hmap⟩⟩
    | _ => simp [Medium.members] at hrun
  · rintro ⟨members, rfl, hmembers⟩
    obtain ⟨map, hmap⟩ := exists_entries_iff.mpr hmembers
    exact ⟨map, _, rfl, map, hmap, (), rfl, rfl⟩

/-- A map has the names of its document in their order, if these are distinct. -/
theorem keys_entries : ∀ {members : List (String × Json)} {done map : Ordered String α},
    (Ordered.keys done ++ Ordered.keys members).Nodup →
    Reading.entries read done (members.map fun m => (.ok m.1, m.2)) = .ok map →
    Ordered.keys map = Ordered.keys done ++ Ordered.keys members
  | [], done, map, _, h => by
    obtain rfl := Except.ok.inj h
    exact (List.append_nil _).symm
  | m :: members, done, map, hkeys, h => by
    rw [List.map_cons, Reading.entries] at h
    simp only [bind_eq_ok_iff, Except.ok.injEq, exists_eq_left'] at h
    obtain ⟨a, -, hrest⟩ := h
    have hnew : m.1 ∉ Ordered.keys done := fun hmem =>
      (List.nodup_append.mp hkeys).2.2 _ hmem _ List.mem_cons_self rfl
    have hput : Ordered.keys (Ordered.put done m.1 a) ++ Ordered.keys members =
        Ordered.keys done ++ Ordered.keys (m :: members) := by
      rw [Ordered.put_of_notMem hnew]
      simp [Ordered.keys]
    rw [← hput] at hkeys ⊢
    exact keys_entries hkeys hrest

theorem keys_map {members : List (String × Json)} {map : Ordered String α}
    (h : (Ordered.keys members).Nodup) (hmap : Reading.map read (.obj members) = .ok map) :
    Ordered.keys map = Ordered.keys members := by
  unfold Reading.map at hmap
  simp only [bind_eq_ok_iff] at hmap
  obtain ⟨run, hrun, values, hvalues, _, -, hmap⟩ := hmap
  obtain rfl := Except.ok.inj hrun
  obtain rfl := Except.ok.inj hmap
  have hkeys : (Ordered.keys ([] : Ordered String α) ++ Ordered.keys members).Nodup := h
  exact keys_entries hkeys hvalues

theorem lookup_eq_some_of_mem {table : List (String × α)} {name : String}
    (h : name ∈ table.map Prod.fst) : ∃ a, table.lookup name = some a := by
  obtain ⟨e, he, rfl⟩ := List.mem_map.mp h
  refine Option.ne_none_iff_exists'.mp fun hnone => ?_
  have hne := List.lookup_eq_none_iff.mp hnone e he
  exact absurd hne (by simp)

/-- A variant can be read if its name is known and nothing else is wrong with it. -/
theorem readable_choice_iff {table : List (String × α)} {choice : Choice (Except Fault)}
    (h : Medium.choice v = .ok choice) :
    Readable (Reading.variant table) v ↔
      choice.name ∈ table.map Prod.fst ∧ choice.payload = .ok () := by
  unfold Readable Reading.variant
  simp only [bind_eq_ok_iff, h, Except.ok.injEq, exists_eq_left']
  constructor
  · rintro ⟨a, ha⟩
    cases hlookup : table.lookup choice.name with
    | none => simp [hlookup] at ha
    | some b =>
      simp only [hlookup, bind_eq_ok_iff] at ha
      obtain ⟨_, hpayload, -⟩ := ha
      obtain ⟨before, after, rfl, -⟩ := List.lookup_eq_some_iff.mp hlookup
      exact ⟨by simp, hpayload⟩
  · rintro ⟨hname, hpayload⟩
    obtain ⟨a, ha⟩ := lookup_eq_some_of_mem hname
    refine ⟨a, ?_⟩
    simp only [ha, bind_eq_ok_iff]
    exact ⟨(), hpayload, rfl⟩

/-- A variant is given by its name, or by an object with the name and `null`. -/
theorem readable_variant_iff {table : List (String × α)} :
    Readable (Reading.variant table) v ↔
      ∃ name ∈ table.map Prod.fst, v = .str name ∨ v = .obj [(name, .null)] := by
  have hother : (∀ choice, Medium.choice v ≠ .ok choice) → (∀ name, v ≠ .str name) →
      (∀ name, v ≠ .obj [(name, .null)]) → (Readable (Reading.variant table) v ↔
        ∃ name ∈ table.map Prod.fst, v = .str name ∨ v = .obj [(name, .null)]) := by
    intro hchoice htext hobject
    refine iff_of_false ?_ ?_
    · rintro ⟨a, ha⟩
      obtain ⟨choice, hok, -⟩ := bind_eq_ok_iff.mp ha
      exact hchoice choice hok
    · rintro ⟨name, -, hv | hv⟩
      · exact htext name hv
      · exact hobject name hv
  match v with
  | .str s =>
    have hchoice : (Medium.choice (Json.str s) : Except Fault _) = .ok ⟨s, .ok ()⟩ := rfl
    rw [readable_choice_iff hchoice]
    simp
  | .obj [(k, w)] =>
    have hchoice : (Medium.choice (Json.obj [(k, w)]) : Except Fault _) = .ok ⟨k, w.unit⟩ := rfl
    rw [readable_choice_iff hchoice]
    cases w <;> simp [Json.unit]
  | .obj [] => exact hother (by simp [Medium.choice]) (by simp) (by simp)
  | .obj (_ :: _ :: _) => exact hother (by simp [Medium.choice]) (by simp) (by simp)
  | .null => exact hother (by simp [Medium.choice]) (by simp) (by simp)
  | .bool _ => exact hother (by simp [Medium.choice]) (by simp) (by simp)
  | .num _ => exact hother (by simp [Medium.choice]) (by simp) (by simp)
  | .arr _ => exact hother (by simp [Medium.choice]) (by simp) (by simp)

end Parts

namespace Json

theorem height_le_itemsHeight {v : Json} : ∀ {items : List Json},
    v ∈ items → v.height ≤ itemsHeight items
  | w :: rest, h => by
    rw [itemsHeight]
    rcases List.mem_cons.mp h with rfl | hrest
    · exact Nat.le_max_left _ _
    · exact (height_le_itemsHeight hrest).trans (Nat.le_max_right _ _)

theorem height_lt_of_mem_items {v : Json} {items : List Json} (h : v ∈ items) :
    v.height < (arr items).height := by
  rw [height]
  exact Nat.lt_succ_of_le (height_le_itemsHeight h)

end Json

/-! ## Records -/

theorem Field.plain_read_iff {σ α : Type} {name : String} {read : Json → Except Fault α}
    {set : σ → α → σ} {v : Json} {r r' : σ} :
    (Field.plain name read set).read v r = .ok r' ↔ ∃ a, read v = .ok a ∧ r' = set r a := by
  change set r <$> read v = .ok r' ↔ _
  cases read v <;> simp [eq_comm]

theorem Field.exists_plain_read_iff {σ α : Type} {name : String} {read : Json → Except Fault α}
    {set : σ → α → σ} {v : Json} {r : σ} :
    (∃ r', (Field.plain name read set).read v r = .ok r') ↔ Readable read v := by
  simp only [Field.plain_read_iff]
  constructor
  · rintro ⟨-, a, ha, -⟩
    exact ⟨a, ha⟩
  · rintro ⟨a, ha⟩
    exact ⟨_, a, ha, rfl⟩

namespace Record

variable {σ : Type} {fields : List (Field Json (Except Fault) σ)}
variable {fits : String → Json → Prop} {members : List (String × Json)}

/-- Fields that are known by one name each. -/
def SingleNamed (fields : List (Field Json (Except Fault) σ)) : Prop :=
  ∀ f ∈ fields, f.otherName = none

/-- A value can be read into any field just if it fits the name of the field, whatever was read
before. -/
def Judges (fits : String → Json → Prop) (fields : List (Field Json (Except Fault) σ)) (v : Json) :
    Prop :=
  ∀ f ∈ fields, ∀ r, (∃ r', f.read v r = .ok r') ↔ fits f.name v

theorem judges_nil (fits : String → Json → Prop) (v : Json) :
    Judges fits ([] : List (Field Json (Except Fault) σ)) v := by
  simp [Judges]

/-- A field that may be left out takes the values that can be read. -/
theorem Judges.plain {α : Type} {name : String} {read : Json → Except Fault α} {set : σ → α → σ}
    {v : Json} (h : Readable read v ↔ fits name v) (rest : Judges fits fields v) :
    Judges fits (.plain name read set :: fields) v :=
  List.forall_mem_cons.mpr ⟨fun _ => Field.exists_plain_read_iff.trans h, rest⟩

/-- A member is a field of its name or none at all. -/
theorem SingleNamed.find?_cases (h : SingleNamed fields) (name : String) :
    (name ∉ fields.map Field.name ∧ fields.find? (·.answers name) = none) ∨
    ∃ f ∈ fields, f.name = name ∧ fields.find? (·.answers name) = some f := by
  have hanswers : ∀ f ∈ fields, f.answers name = true ↔ f.name = name := by
    intro f hf
    simp [Field.answers, h f hf]
  cases hfind : fields.find? (·.answers name) with
  | none =>
    refine Or.inl ⟨fun hname => ?_, rfl⟩
    obtain ⟨f, hf, heq⟩ := List.mem_map.mp hname
    exact List.find?_eq_none.mp hfind f hf ((hanswers f hf).mpr heq)
  | some f =>
    have hf := List.mem_of_find?_eq_some hfind
    have hself := List.find?_some hfind
    exact Or.inr ⟨f, hf, (hanswers f hf).mp hself, rfl⟩

/-- The members that are fields are given once each, not among those seen before, and fit. -/
structure Admits (fits : String → Json → Prop) (names : List String) (seen : List String)
    (members : List (String × Json)) : Prop where
  distinct : ((Ordered.keys members).filter (· ∈ names)).Nodup
  unseen : ∀ m ∈ members, m.1 ∈ names → m.1 ∉ seen
  fit : ∀ m ∈ members, m.1 ∈ names → fits m.1 m.2

theorem admits_nil (names seen : List String) : Admits fits names seen [] :=
  ⟨by simp [Ordered.keys], by simp, by simp⟩

theorem admits_cons_of_notMem {names seen : List String} {m : String × Json} (h : m.1 ∉ names) :
    Admits fits names seen (m :: members) ↔ Admits fits names seen members := by
  have hkeys : (Ordered.keys (m :: members)).filter (· ∈ names) =
      (Ordered.keys members).filter (· ∈ names) := List.filter_cons_of_neg (by simpa using h)
  constructor
  · rintro ⟨hdistinct, hunseen, hfit⟩
    exact ⟨hkeys ▸ hdistinct, (List.forall_mem_cons.mp hunseen).2, (List.forall_mem_cons.mp hfit).2⟩
  · rintro ⟨hdistinct, hunseen, hfit⟩
    exact ⟨hkeys.symm ▸ hdistinct, List.forall_mem_cons.mpr ⟨fun hm => absurd hm h, hunseen⟩,
      List.forall_mem_cons.mpr ⟨fun hm => absurd hm h, hfit⟩⟩

theorem admits_cons_of_mem {names seen : List String} {m : String × Json} (h : m.1 ∈ names) :
    Admits fits names seen (m :: members) ↔
      m.1 ∉ seen ∧ fits m.1 m.2 ∧ Admits fits names (m.1 :: seen) members := by
  have hkeys : (Ordered.keys (m :: members)).filter (· ∈ names) =
      m.1 :: (Ordered.keys members).filter (· ∈ names) := List.filter_cons_of_pos (by simpa using h)
  constructor
  · rintro ⟨hdistinct, hunseen, hfit⟩
    rw [hkeys, List.nodup_cons] at hdistinct
    obtain ⟨hself, hrest⟩ := List.forall_mem_cons.mp hunseen
    refine ⟨hself h, (List.forall_mem_cons.mp hfit).1 h, hdistinct.2, fun m' hm' hname => ?_,
      (List.forall_mem_cons.mp hfit).2⟩
    rw [List.mem_cons, not_or]
    refine ⟨fun heq => hdistinct.1 ?_, hrest m' hm' hname⟩
    rw [← heq]
    exact List.mem_filter.mpr ⟨List.mem_map_of_mem hm', by simpa using hname⟩
  · rintro ⟨hself, hfits, hdistinct, hunseen, hfit⟩
    refine ⟨?_, List.forall_mem_cons.mpr ⟨fun _ => hself, fun m' hm' hname => ?_⟩,
      List.forall_mem_cons.mpr ⟨fun _ => hfits, hfit⟩⟩
    · rw [hkeys, List.nodup_cons]
      refine ⟨fun hmem => ?_, hdistinct⟩
      obtain ⟨hkey, -⟩ := List.mem_filter.mp hmem
      obtain ⟨m', hm', heq⟩ := List.mem_map.mp hkey
      exact hunseen m' hm' (heq ▸ h) (heq ▸ List.mem_cons_self)
    · exact fun hseen => hunseen m' hm' hname (List.mem_cons_of_mem _ hseen)

/-- **A record is read by names** if the members that are fields are given once and fit. -/
theorem exists_readNamed_iff (hsingle : SingleNamed fields) :
    ∀ {members : List (String × Json)} {seen : List String} {r : σ},
      (∀ m ∈ members, Judges fits fields m.2) →
      ((∃ out, readNamed fields seen r (members.map fun m => (.ok m.1, m.2)) = .ok out) ↔
        Admits fits (fields.map Field.name) seen members)
  | [], seen, r, _ => iff_of_true ⟨(seen, r), rfl⟩ (admits_nil _ _)
  | m :: members, seen, r, hjudges => by
    obtain ⟨hself, hrest⟩ := List.forall_mem_cons.mp hjudges
    rw [List.map_cons, readNamed]
    simp only [bind_eq_ok_iff]
    rcases hsingle.find?_cases m.1 with ⟨hname, hfind⟩ | ⟨f, hf, hname, hfind⟩
    · rw [admits_cons_of_notMem hname, ← exists_readNamed_iff hsingle (r := r) hrest]
      simp only [Except.ok.injEq, exists_eq_left', hfind, bind_eq_ok_iff]
      constructor
      · rintro ⟨out, _, -, hout⟩
        exact ⟨out, hout⟩
      · rintro ⟨out, hout⟩
        exact ⟨out, (), rfl, hout⟩
    · have hmem : m.1 ∈ fields.map Field.name := hname ▸ List.mem_map_of_mem hf
      rw [admits_cons_of_mem hmem]
      simp only [Except.ok.injEq, exists_eq_left', hfind, hname]
      by_cases hseen : m.1 ∈ seen
      · simp [hseen]
      · simp only [hseen, if_false, bind_eq_ok_iff, not_false_eq_true, true_and]
        rw [← hname, ← hself f hf r, hname]
        constructor
        · rintro ⟨out, r', hread, hout⟩
          exact ⟨⟨r', hread⟩, (exists_readNamed_iff hsingle hrest).mp ⟨out, hout⟩⟩
        · rintro ⟨⟨r', hread⟩, hadmits⟩
          obtain ⟨out, hout⟩ := (exists_readNamed_iff hsingle (r := r') hrest).mpr hadmits
          exact ⟨out, r', hread, hout⟩

/-- **A record is read by position** if there are enough fields and each item fits the field in its
place. -/
theorem exists_readItems_iff {label : String} {size : Nat} :
    ∀ {fields : List (Field Json (Except Fault) σ)} {items : List Json} {index : Nat} {r : σ},
      (∀ f ∈ fields, f.required = false) → (∀ v ∈ items, Judges fits fields v) →
      ((∃ r', readItems label size index fields r items (.ok ()) = .ok r') ↔
        items.length ≤ fields.length ∧ ∀ p ∈ (fields.map Field.name).zip items, fits p.1 p.2)
  | [], [], _, r, _, _ => iff_of_true ⟨r, rfl⟩ (by simp)
  | [], v :: items, _, r, _, _ => by simp [readItems]
  | f :: fields, [], index, r, hfree, _ => by
    obtain ⟨hf, hfields⟩ := List.forall_mem_cons.mp hfree
    have ih : (∃ r', readItems label size (index + 1) fields r [] (.ok ()) = .ok r') ↔ _ :=
      exists_readItems_iff hfields (by simp)
    rw [readItems]
    simp only [hf, Bool.false_eq_true, if_false]
    refine ih.trans ?_
    simp
  | f :: fields, v :: items, index, r, hfree, hjudges => by
    obtain ⟨-, hfields⟩ := List.forall_mem_cons.mp hfree
    obtain ⟨hv, hitems⟩ := List.forall_mem_cons.mp hjudges
    have hitems' : ∀ w ∈ items, Judges fits fields w := fun w hw g hg =>
      hitems w hw g (List.mem_cons_of_mem f hg)
    rw [readItems]
    simp only [bind_eq_ok_iff, List.map_cons, List.zip_cons_cons, List.forall_mem_cons,
      List.length_cons, Nat.add_le_add_iff_right]
    rw [← hv f List.mem_cons_self r]
    constructor
    · rintro ⟨out, r', hread, hout⟩
      obtain ⟨hlength, hfit⟩ := (exists_readItems_iff hfields hitems').mp ⟨out, hout⟩
      exact ⟨hlength, ⟨r', hread⟩, hfit⟩
    · rintro ⟨hlength, ⟨r', hread⟩, hfit⟩
      have hrest : ∃ out, readItems label size (index + 1) fields r' items (.ok ()) = .ok out :=
        (exists_readItems_iff hfields hitems').mpr ⟨hlength, hfit⟩
      obtain ⟨out, hout⟩ := hrest
      exact ⟨out, r', hread, hout⟩

variable {label : String} {blank : σ} {v : Json}

/-- Where no field is required, a record by names is read as its members are. -/
theorem read_obj_eq_ok_iff (hfree : ∀ f ∈ fields, f.required = false) {r : σ} :
    Record.read label fields blank (.obj members) = .ok r ↔
      ∃ seen, readNamed fields [] blank (members.map fun m => (.ok m.1, m.2)) = .ok (seen, r) := by
  have hlayout : (Medium.layout label (Json.obj members) : Except Fault _) =
      .ok (.named ⟨members.map fun m => (.ok m.1, m.2), .ok ()⟩) := rfl
  have hnone : ∀ seen : List String,
      (fields.find? fun f => f.required && !decide (f.name ∈ seen)) = none := by
    intro seen
    rw [List.find?_eq_none]
    intro f hf
    simp [hfree f hf]
  unfold Record.read
  simp only [bind_eq_ok_iff, hlayout, Except.ok.injEq, exists_eq_left', Prod.exists]
  constructor
  · rintro ⟨seen, r', hrun, _, -, hr⟩
    simp only [hnone] at hr
    obtain rfl := Except.ok.inj hr
    exact ⟨seen, hrun⟩
  · rintro ⟨seen, hrun⟩
    refine ⟨seen, r, hrun, (), trivial, ?_⟩
    simp only [hnone]
    rfl

/-- **Which values are records**, where no field is required. -/
theorem readable_iff (hsingle : SingleNamed fields) (hfree : ∀ f ∈ fields, f.required = false)
    (hjudges : ∀ w, w.height < v.height → Judges fits fields w) :
    Readable (Record.read label fields blank) v ↔
      (∃ members, v = .obj members ∧ Admits fits (fields.map Field.name) [] members) ∨
      ∃ items, v = .arr items ∧ items.length ≤ fields.length ∧
        ∀ p ∈ (fields.map Field.name).zip items, fits p.1 p.2 := by
  cases v with
  | obj members =>
    have hmembers : ∀ m ∈ members, Judges fits fields m.2 := fun m hm =>
      hjudges m.2 (Json.height_lt_of_mem hm)
    simp only [Readable, read_obj_eq_ok_iff hfree, Json.obj.injEq, exists_eq_left', reduceCtorEq,
      false_and, exists_false, or_false]
    rw [← exists_readNamed_iff hsingle (r := blank) hmembers]
    constructor
    · rintro ⟨r, seen, hrun⟩
      exact ⟨(seen, r), hrun⟩
    · rintro ⟨out, hrun⟩
      exact ⟨out.2, out.1, hrun⟩
  | arr items =>
    have hitems : ∀ w ∈ items, Judges fits fields w := fun w hw =>
      hjudges w (Json.height_lt_of_mem_items hw)
    simp only [Json.arr.injEq, exists_eq_left', reduceCtorEq, false_and, exists_false, false_or]
    exact exists_readItems_iff hfree hitems
  | null => exact iff_of_false (by rintro ⟨_, h⟩; exact nomatch h) (by simp)
  | bool b => exact iff_of_false (by rintro ⟨_, h⟩; exact nomatch h) (by simp)
  | num n => exact iff_of_false (by rintro ⟨_, h⟩; exact nomatch h) (by simp)
  | str s => exact iff_of_false (by rintro ⟨_, h⟩; exact nomatch h) (by simp)

/-- A part of the record that only the field of one name changes. -/
def ChangedBy {β : Type} (part : σ → β) (name : String)
    (fields : List (Field Json (Except Fault) σ)) : Prop :=
  ∀ f ∈ fields, f.name ≠ name → ∀ v r r', f.read v r = .ok r' → part r' = part r

theorem changedBy_nil {β : Type} (part : σ → β) (name : String) :
    ChangedBy part name ([] : List (Field Json (Except Fault) σ)) := by
  simp [ChangedBy]

theorem ChangedBy.plain {α β : Type} {part : σ → β} {name name' : String}
    {read : Json → Except Fault α} {set : σ → α → σ}
    (h : name' ≠ name → ∀ r a, part (set r a) = part r) (rest : ChangedBy part name fields) :
    ChangedBy part name (.plain name' read set :: fields) := by
  refine List.forall_mem_cons.mpr ⟨fun hne v r r' hread => ?_, rest⟩
  obtain ⟨a, -, rfl⟩ := Field.plain_read_iff.mp hread
  exact h hne r a

/-- **A part of a record** that was read by names is what its member was read as; without a member
it is what it was before. -/
theorem readNamed_part {β : Type} {part : σ → β} {f : Field Json (Except Fault) σ}
    (hsingle : SingleNamed fields) (hnames : (fields.flatMap Field.names).Nodup) (hf : f ∈ fields)
    (hpart : ChangedBy part f.name fields) :
    ∀ {members : List (String × Json)} {seen : List String} {r : σ} {out : List String × σ},
      readNamed fields seen r (members.map fun m => (.ok m.1, m.2)) = .ok out →
      (f.name ∈ seen → Ordered.get? members f.name = none) ∧
      (Ordered.get? members f.name = none → part out.2 = part r) ∧
      ∀ v, Ordered.get? members f.name = some v →
        ∃ r₁ r₂, f.read v r₁ = .ok r₂ ∧ part out.2 = part r₂
  | [], seen, r, out, h => by
    obtain rfl := Except.ok.inj h
    simp [Ordered.get?]
  | (k, v) :: members, seen, r, out, h => by
    rw [List.map_cons, readNamed] at h
    simp only [bind_eq_ok_iff, Except.ok.injEq, exists_eq_left'] at h
    rcases hsingle.find?_cases k with ⟨hname, hfind⟩ | ⟨g, hg, rfl, hfind⟩
    · -- a member that is no field
      simp only [hfind, bind_eq_ok_iff] at h
      obtain ⟨_, -, hrest⟩ := h
      have hne : k ≠ f.name := fun heq => hname (heq ▸ List.mem_map_of_mem hf)
      simp only [Ordered.get?, if_neg hne]
      exact readNamed_part hsingle hnames hf hpart hrest
    · simp only [hfind] at h
      by_cases hseen : g.name ∈ seen
      · simp [hseen] at h
      · rw [if_neg hseen] at h
        obtain ⟨r', hread, hrest⟩ := bind_eq_ok_iff.mp h
        obtain ⟨hgone, hnone, hsome⟩ := readNamed_part hsingle hnames hf hpart hrest
        by_cases heq : g.name = f.name
        · -- the member of the part, and there is no other behind it
          obtain rfl : g = f := by
            rw [heq, Field.find?_answers hnames hf] at hfind
            exact (Option.some.inj hfind).symm
          have hlast := hnone (hgone List.mem_cons_self)
          simp only [Ordered.get?, if_true]
          refine ⟨fun hmem => absurd hmem hseen, by simp, fun w hw => ?_⟩
          obtain rfl := Option.some.inj hw
          exact ⟨r, r', hread, hlast⟩
        · have hkept := hpart g hg heq v r r' hread
          simp only [Ordered.get?, if_neg heq]
          refine ⟨fun hmem => hgone (List.mem_cons_of_mem _ hmem), fun hget => ?_, hsome⟩
          rw [hnone hget, hkept]

end Record

end OntologyCompiler
