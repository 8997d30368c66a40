import OntologyCompiler.Json.Text
import OntologyCompiler.Proofs.Ordered
import OntologyCompiler.Proofs.Planning

/-!
# Records that are written and read again

Two sides of reading a record. A record that is written field by field, in the order of its fields,
is read back; and what every field keeps holds of every record that is read, however it was given.

* `Record.read_record`: the members that `Record.Fills` names are read as the record they fill.
* `Reading.list_map`, `Reading.map_entries`, `Record.Fills.whenSome`: lists, maps and values that
  may be absent are read back as soon as their parts are.
* `Record.read_keeps`, `Reading.list_keeps`, `Reading.optional_keeps`: what is kept by a field is
  kept by the record, the list and the absent value.
* `Json.exists_node_of_readText`, `Json.Raw.free_obj_of_ok`: what a text is read as.
* `Medium.TellsNull`: media where a value that is there is never `null`.
-/

namespace OntologyCompiler

/-! ## Fields -/

namespace Field

variable {ν σ α : Type} {m : Type → Type}

/-- The names that a field answers to. -/
def names (f : Field ν m σ) : List String :=
  f.name :: f.otherName.toList

theorem answers_iff {f : Field ν m σ} {name : String} :
    f.answers name = true ↔ name ∈ f.names := by
  rw [answers, names, Bool.or_eq_true, beq_iff_eq, beq_iff_eq, List.mem_cons, Option.mem_toList]
  exact or_congr_left eq_comm

/-- Where fields share no name, a field is found by its own. -/
theorem find?_answers {f : Field ν m σ} : ∀ {fields : List (Field ν m σ)},
    (fields.flatMap names).Nodup → f ∈ fields → fields.find? (·.answers f.name) = some f
  | g :: fields, hn, hf => by
    rw [List.flatMap_cons, List.nodup_append] at hn
    obtain ⟨-, hrest, hapart⟩ := hn
    rcases List.mem_cons.mp hf with rfl | hmem
    · have hself : f.answers f.name = true := answers_iff.mpr List.mem_cons_self
      rw [List.find?_cons, hself]
    · have hother : g.answers f.name = false := Bool.eq_false_iff.mpr fun hg =>
        hapart _ (answers_iff.mp hg) _
          (List.mem_flatMap.mpr ⟨f, hmem, List.mem_cons_self⟩) rfl
      rw [List.find?_cons, hother]
      exact find?_answers hrest hmem

theorem map_name_sublist : ∀ fields : List (Field ν m σ),
    (fields.map name).Sublist (fields.flatMap names)
  | [] => .refl _
  | _ :: fields => ((map_name_sublist fields).trans (List.sublist_append_right _ _)).cons_cons _

/-- A field keeps a property of the record, whatever is read into it. -/
def Keeps (f : Field ν (Except Fault) σ) (P : σ → Prop) : Prop :=
  ∀ node r r', f.read node r = .ok r' → P r → P r'

variable {P : σ → Prop} {name other : String} {read : ν → Except Fault α} {set : σ → α → σ}

theorem keeps_plain (h : ∀ node a, read node = .ok a → ∀ r, P r → P (set r a)) :
    (plain name read set).Keeps P := by
  intro node r r' hread hr
  change set r <$> read node = .ok r' at hread
  cases hnode : read node with
  | error e => simp [hnode] at hread
  | ok a =>
    rw [hnode] at hread
    obtain rfl := Except.ok.inj hread
    exact h node a hnode r hr

theorem keeps_must (h : ∀ node a, read node = .ok a → ∀ r, P r → P (set r a)) :
    (must name read set).Keeps P := by
  have hplain : (plain name read set).Keeps P := keeps_plain h
  exact hplain

theorem keeps_orNamed {f : Field ν (Except Fault) σ} (h : f.Keeps P) : (f.orNamed other).Keeps P :=
  h

end Field

/-! ## Writing and reading records -/

namespace Record

variable {σ α β : Type}

/-- How members fill a record from `r` to `r'`. For each field in turn there is a member of its
name, which is read into it, or no member, where the field may be left out. -/
inductive Fills :
    List (Field Json (Except Fault) σ) → List (Option (String × Json)) → σ → σ → Prop
  | nil {r : σ} : Fills [] [] r r
  | written {f : Field Json (Except Fault) σ} {fields : List (Field Json (Except Fault) σ)}
      {members : List (Option (String × Json))} {v : Json} {r r' r'' : σ}
      (hread : f.read v r = .ok r') (rest : Fills fields members r' r'') :
      Fills (f :: fields) (some (f.name, v) :: members) r r''
  | left {f : Field Json (Except Fault) σ} {fields : List (Field Json (Except Fault) σ)}
      {members : List (Option (String × Json))} {r r' : σ}
      (hfree : f.required = false) (rest : Fills fields members r r') :
      Fills (f :: fields) (none :: members) r r'

section Fills

variable {fields : List (Field Json (Except Fault) σ)} {members : List (Option (String × Json))}
variable {name other : String} {v : Json} {a : α} {r r' : σ}
variable {read : Json → Except Fault α} {set : σ → α → σ}

theorem Fills.plain (h : read v = .ok a) (rest : Fills fields members (set r a) r') :
    Fills (.plain name read set :: fields) (Json.always name v :: members) r r' := by
  refine .written ?_ rest
  show set r <$> read v = .ok (set r a)
  rw [h]
  rfl

theorem Fills.must (h : read v = .ok a) (rest : Fills fields members (set r a) r') :
    Fills (.must name read set :: fields) (Json.always name v :: members) r r' := by
  refine .written ?_ rest
  show set r <$> read v = .ok (set r a)
  rw [h]
  rfl

theorem Fills.orNamed (h : read v = .ok a) (rest : Fills fields members (set r a) r') :
    Fills ((Field.plain name read set).orNamed other :: fields) (Json.always name v :: members)
      r r' := by
  refine .written ?_ rest
  show set r <$> read v = .ok (set r a)
  rw [h]
  rfl

/-- A value that may be absent is written where there is one; `null` would stand for its absence. -/
theorem Fills.whenSome_map {o : Option α} {set : σ → Option β → σ} {f : α → Json} {g : α → β}
    {read : Json → Except Fault β} (hblank : set r none = r)
    (h : ∀ a ∈ o, f a ≠ .null ∧ read (f a) = .ok (g a))
    (rest : Fills fields members (set r (o.map g)) r') :
    Fills (.plain name (Reading.optional read) set :: fields) (Json.whenSome name o f :: members)
      r r' := by
  cases o with
  | none =>
    rw [Option.map_none, hblank] at rest
    exact .left rfl rest
  | some a =>
    obtain ⟨hne, hread⟩ := h a rfl
    refine .plain ?_ rest
    have hpresent : Medium.present? (f a) = .ok (some (f a)) := by
      cases hv : f a with
      | null => exact absurd hv hne
      | _ => rfl
    rw [Reading.optional, hpresent]
    show some <$> read (f a) = .ok (some (g a))
    rw [hread]
    rfl

theorem Fills.whenSome {o : Option α} {set : σ → Option α → σ} {f : α → Json}
    (hblank : set r none = r) (h : ∀ a ∈ o, f a ≠ .null ∧ read (f a) = .ok a)
    (rest : Fills fields members (set r o) r') :
    Fills (.plain name (Reading.optional read) set :: fields) (Json.whenSome name o f :: members)
      r r' :=
  .whenSome_map hblank h (by rwa [Option.map_id'])

/-- A list or a map that is left out where it is empty. -/
theorem Fills.unlessEmpty {xs : List α} {ys : List β} {read : Json → Except Fault (List β)}
    {set : σ → List β → σ} {f : List α → Json} (hblank : set r [] = r)
    (hempty : xs = [] → ys = []) (h : read (f xs) = .ok ys)
    (rest : Fills fields members (set r ys) r') :
    Fills (.plain name read set :: fields) (Json.unlessEmpty name xs f :: members) r r' := by
  cases xs with
  | nil =>
    rw [hempty rfl, hblank] at rest
    exact .left rfl rest
  | cons x xs => exact .plain h rest

end Fills

variable {fields all : List (Field Json (Except Fault) σ)}
variable {members : List (Option (String × Json))} {blank r r' : σ}

/-- The run over members that fill the fields: it ends with the record filled, and every field that
is required has been seen. -/
theorem readNamed_fills (hall : (all.flatMap Field.names).Nodup) (h : Fills fields members r r') :
    ∀ seen : List String, (∀ f ∈ fields, f ∈ all ∧ f.name ∉ seen) →
      (fields.map Field.name).Nodup →
      ∃ seen', readNamed all seen r ((members.filterMap id).map fun e => (.ok e.1, e.2))
          = .ok (seen', r') ∧
        (∀ s ∈ seen, s ∈ seen') ∧ ∀ f ∈ fields, f.required = true → f.name ∈ seen' := by
  induction h with
  | nil => exact fun seen _ _ => ⟨seen, rfl, fun _ hs => hs, by simp⟩
  | @written f fields members v r r' r'' hread _ ih =>
    intro seen hfields hnodup
    rw [List.map_cons, List.nodup_cons] at hnodup
    obtain ⟨hf, hfields⟩ := List.forall_mem_cons.mp hfields
    have hfresh : ∀ g ∈ fields, g ∈ all ∧ g.name ∉ f.name :: seen := by
      refine fun g hg => ⟨(hfields g hg).1, ?_⟩
      rw [List.mem_cons, not_or]
      exact ⟨fun heq => hnodup.1 (heq ▸ List.mem_map_of_mem hg), (hfields g hg).2⟩
    obtain ⟨seen', hrun, hkeeps, hrequired⟩ := ih (f.name :: seen) hfresh hnodup.2
    refine ⟨seen', ?_, fun s hs => hkeeps s (List.mem_cons_of_mem _ hs), ?_⟩
    · rw [← hrun, List.filterMap_cons_some (f := id) rfl, List.map_cons]
      simp only [readNamed, Field.find?_answers hall hf.1, if_neg hf.2, hread, bind, Except.bind]
    · rw [List.forall_mem_cons]
      exact ⟨fun _ => hkeeps _ List.mem_cons_self, hrequired⟩
  | @left f fields members r r' hfree _ ih =>
    intro seen hfields hnodup
    rw [List.map_cons, List.nodup_cons] at hnodup
    obtain ⟨-, hfields⟩ := List.forall_mem_cons.mp hfields
    obtain ⟨seen', hrun, hkeeps, hrequired⟩ := ih seen hfields hnodup.2
    refine ⟨seen', by rw [← hrun, List.filterMap_cons_none (f := id) rfl], hkeeps, ?_⟩
    rw [List.forall_mem_cons]
    exact ⟨fun hreq => absurd (hfree.symm.trans hreq) (by simp), hrequired⟩

/-- **A record that is written is read back.** -/
theorem read_record {label : String} (hall : (all.flatMap Field.names).Nodup)
    (h : Fills all members blank r) : Record.read label all blank (.record members) = .ok r := by
  have hnames : (all.map Field.name).Nodup := (Field.map_name_sublist all).nodup hall
  obtain ⟨seen, hrun, -, hrequired⟩ :=
    readNamed_fills hall h [] (fun f hf => ⟨hf, List.not_mem_nil⟩) hnames
  have hnone : (all.find? fun f => f.required && !decide (f.name ∈ seen)) = none := by
    rw [List.find?_eq_none]
    intro f hf hmissing
    obtain ⟨hreq, hseen⟩ := Bool.and_eq_true_iff.mp hmissing
    simp [hrequired f hf hreq] at hseen
  have hlayout : Medium.layout label (Json.record members) =
      .ok (.named ⟨(members.filterMap id).map fun e => (.ok e.1, e.2), .ok ()⟩) := rfl
  simp only [Record.read, hlayout, hrun, hnone, bind, Except.bind, pure, Except.pure]

end Record

/-! ## Writing and reading lists and maps -/

namespace Reading

variable {α β : Type} {f : α → Json} {g : α → β}

theorem mapM_map {read : Json → Except Fault α} {xs : List α} (h : ∀ x ∈ xs, read (f x) = .ok x) :
    (xs.map f).mapM read = .ok xs := by
  induction xs with
  | nil => rfl
  | cons x xs ih =>
    obtain ⟨hx, hxs⟩ := List.forall_mem_cons.mp h
    rw [List.map_cons, List.mapM_cons, hx, ih hxs]
    rfl

/-- **A list is read back** if its items are. -/
theorem list_map {read : Json → Except Fault α} {xs : List α}
    (h : ∀ x ∈ xs, read (f x) = .ok x) :
    list read (.arr (xs.map f)) = .ok xs := by
  show ((xs.map f).mapM read >>= _) = _
  rw [mapM_map h]
  rfl

variable {read : Json → Except Fault β}

theorem entries_map {rest : Ordered String α} (h : ∀ e ∈ rest, read (f e.2) = .ok (g e.2)) :
    ∀ done : Ordered String β, (Ordered.keys done ++ Ordered.keys rest).Nodup →
      entries read done (rest.map fun e => (.ok e.1, f e.2)) =
        .ok (done ++ rest.map fun e => (e.1, g e.2)) := by
  induction rest with
  | nil => simp [entries, pure, Except.pure]
  | cons e rest ih =>
    intro done hkeys
    obtain ⟨he, hrest⟩ := List.forall_mem_cons.mp h
    have hnew : e.1 ∉ Ordered.keys done := fun hmem =>
      (List.nodup_append.mp hkeys).2.2 _ hmem _ List.mem_cons_self rfl
    have hput : Ordered.put done e.1 (g e.2) = done ++ [(e.1, g e.2)] := Ordered.put_of_notMem hnew
    have hkeys' : (Ordered.keys (done ++ [(e.1, g e.2)]) ++ Ordered.keys rest).Nodup := by
      simpa [Ordered.keys] using hkeys
    have hrun := ih hrest (done ++ [(e.1, g e.2)]) hkeys'
    simp only [List.map_cons, entries, he, bind, Except.bind, hput, hrun, List.append_assoc,
      List.singleton_append]

/-- **A map is read back**, value by value, if its keys are distinct. -/
theorem map_entries {m : Ordered String α} (hkeys : (Ordered.keys m).Nodup)
    (h : ∀ e ∈ m, read (f e.2) = .ok (g e.2)) :
    map read (.obj (m.map fun e => (e.1, f e.2))) = .ok (m.map fun e => (e.1, g e.2)) := by
  have hrun := entries_map h [] hkeys
  unfold map
  show (entries read [] ((m.map fun e => (e.1, f e.2)).map fun e => (.ok e.1, e.2)) >>= _) = _
  rw [List.map_map]
  show (entries read [] (m.map fun e => (.ok e.1, f e.2)) >>= _) = _
  rw [hrun]
  rfl

end Reading

/-! ## Texts -/

namespace Json

/-- A text is read as one of its nodes is. -/
theorem exists_node_of_readText {α : Type} {read : TextNode → Except Fault α} {text : String}
    {a : α} (h : readText read text = .ok a) : ∃ node, read node = .ok a := by
  cases hparse : Raw.parse text.toList with
  | mk raw atEnd =>
    simp only [readText, hparse] at h
    obtain ⟨a', hread, hend⟩ := bind_eq_ok_iff.mp h
    cases atEnd with
    | true =>
      obtain rfl := Except.ok.inj hend
      exact ⟨_, hread⟩
    | false => simp at hend

namespace Raw

variable {room : Nat} {closed : Bool} {v : Json}

theorem free_arr_of_ok {items : List Raw} (h : (Raw.arr items closed).free room = .ok v) :
    ∃ values, freeItems (room - 1) items = .ok values ∧ v = .arr values := by
  rw [free] at h
  by_cases hroom : room = 0
  · simp [hroom, bind, Except.bind] at h
  · simp only [hroom, if_false] at h
    obtain ⟨values, hvalues, hend⟩ := bind_eq_ok_iff.mp h
    cases closed with
    | true => exact ⟨values, hvalues, (Except.ok.inj hend).symm⟩
    | false => simp at hend

theorem free_obj_of_ok {members : List (Option String × Raw)}
    (h : (Raw.obj members closed).free room = .ok v) :
    ∃ values, freeMembers (room - 1) [] members = .ok values ∧ v = .obj values := by
  rw [free] at h
  by_cases hroom : room = 0
  · simp [hroom, bind, Except.bind] at h
  · simp only [hroom, if_false] at h
    obtain ⟨values, hvalues, hend⟩ := bind_eq_ok_iff.mp h
    cases closed with
    | true => exact ⟨values, hvalues, (Except.ok.inj hend).symm⟩
    | false => simp at hend

end Raw

end Json

/-! ## What is kept -/

/-- Media where a value that is there is never read as `null`. -/
class Medium.TellsNull (ν : Type) [Medium ν (Except Fault)] : Prop where
  ne_null {node inner : ν} {v : Json} :
    Medium.present? node = .ok (some inner) → Medium.free inner = .ok v → v ≠ .null

instance : Medium.TellsNull Json where
  ne_null {node inner v} hpresent hfree := by
    obtain rfl := Except.ok.inj hfree
    rintro rfl
    cases node <;> simp [Medium.present?] at hpresent

instance : Medium.TellsNull Json.TextNode where
  ne_null {node inner v} hpresent hfree := by
    rintro rfl
    obtain ⟨room, raw⟩ := node
    have hinner : inner = ⟨room, raw⟩ ∧ raw ≠ .null := by
      cases raw <;> simp_all [Medium.present?]
    obtain ⟨rfl, hraw⟩ := hinner
    change raw.free room = .ok .null at hfree
    cases raw with
    | null => exact hraw rfl
    | arr items closed =>
      obtain ⟨values, -, hvalue⟩ := Json.Raw.free_arr_of_ok hfree
      exact nomatch hvalue
    | obj members closed =>
      obtain ⟨values, -, hvalue⟩ := Json.Raw.free_obj_of_ok hfree
      exact nomatch hvalue
    | _ => simp [Json.Raw.free] at hfree

section Keeps

variable {ν σ α : Type} [Medium ν (Except Fault)] {P : α → Prop}

namespace Reading

variable {read : ν → Except Fault α} {node : ν}

omit [Medium ν (Except Fault)] in
theorem mapM_keeps (hread : ∀ n a, read n = .ok a → P a) : ∀ {nodes : List ν} {xs : List α},
    nodes.mapM read = .ok xs → ∀ x ∈ xs, P x
  | [], _, h => by
    obtain rfl := Except.ok.inj h
    simp
  | n :: nodes, _, h => by
    rw [List.mapM_cons] at h
    obtain ⟨a, ha, h⟩ := bind_eq_ok_iff.mp h
    obtain ⟨xs, hxs, h⟩ := bind_eq_ok_iff.mp h
    obtain rfl := Except.ok.inj h
    exact List.forall_mem_cons.mpr ⟨hread n a ha, mapM_keeps hread hxs⟩

theorem list_keeps {xs : List α} (h : list read node = .ok xs)
    (hread : ∀ n a, read n = .ok a → P a) : ∀ x ∈ xs, P x := by
  obtain ⟨run, -, h⟩ := bind_eq_ok_iff.mp h
  obtain ⟨values, hvalues, h⟩ := bind_eq_ok_iff.mp h
  obtain ⟨-, -, h⟩ := bind_eq_ok_iff.mp h
  obtain rfl := Except.ok.inj h
  exact mapM_keeps hread hvalues

/-- A value that may be absent is, where it is there, read from a node. -/
theorem optional_eq_some {a : α} (h : optional read node = .ok (some a)) :
    ∃ inner, Medium.present? node = .ok (some inner) ∧ read inner = .ok a := by
  obtain ⟨present, hpresent, h⟩ := bind_eq_ok_iff.mp h
  cases present with
  | none => simp [pure, Except.pure] at h
  | some inner =>
    refine ⟨inner, hpresent, ?_⟩
    change some <$> read inner = .ok (some a) at h
    cases hinner : read inner with
    | error e => simp [hinner] at h
    | ok b =>
      rw [hinner] at h
      obtain rfl := Option.some.inj (Except.ok.inj h)
      rfl

theorem optional_keeps {o : Option α} (h : optional read node = .ok o)
    (hread : ∀ n a, read n = .ok a → P a) : ∀ x ∈ o, P x := by
  rintro x rfl
  obtain ⟨inner, -, hinner⟩ := optional_eq_some h
  exact hread inner x hinner

theorem optional_free_ne_null [Medium.TellsNull ν] {o : Option Json}
    (h : optional Medium.free node = .ok o) : o ≠ some .null := by
  rintro rfl
  obtain ⟨inner, hpresent, hfree⟩ := optional_eq_some h
  exact Medium.TellsNull.ne_null hpresent hfree rfl

end Reading

namespace Record

variable {fields all : List (Field ν (Except Fault) α)} {r r' : α}

theorem readNamed_keeps (hall : ∀ f ∈ all, f.Keeps P) :
    ∀ {members : List (Except Fault String × ν)} {seen seen' : List String} {r r' : α},
      readNamed all seen r members = .ok (seen', r') → P r → P r'
  | [], _, _, _, _, h, hr => by
    obtain ⟨-, rfl⟩ := Prod.mk.inj (Except.ok.inj h)
    exact hr
  | (key, value) :: members, seen, _, r, _, h, hr => by
    obtain ⟨name, -, h⟩ := bind_eq_ok_iff.mp h
    cases hfind : all.find? (·.answers name) with
    | none =>
      rw [hfind] at h
      obtain ⟨-, -, h⟩ := bind_eq_ok_iff.mp h
      exact readNamed_keeps hall h hr
    | some f =>
      simp only [hfind] at h
      by_cases hseen : f.name ∈ seen
      · simp [hseen] at h
      · rw [if_neg hseen] at h
        obtain ⟨r₁, hread, h⟩ := bind_eq_ok_iff.mp h
        have hr₁ : P r₁ := hall f (List.mem_of_find?_eq_some hfind) _ _ _ hread hr
        exact readNamed_keeps hall h hr₁

theorem readItems_keeps {label : String} {size : Nat} {ending : Except Fault Unit} :
    ∀ {fields : List (Field ν (Except Fault) α)} {items : List ν} {index : Nat} {r r' : α},
      (∀ f ∈ fields, f.Keeps P) →
      readItems label size index fields r items ending = .ok r' → P r → P r'
  | [], [], _, _, _, _, h, hr => by
    obtain ⟨-, -, h⟩ := bind_eq_ok_iff.mp h
    obtain rfl := Except.ok.inj h
    exact hr
  | [], _ :: _, _, _, _, _, h, _ => by
    simp [readItems] at h
  | f :: fields, [], _, _, _, hf, h, hr => by
    obtain ⟨-, -, h⟩ := bind_eq_ok_iff.mp h
    by_cases hreq : f.required = true
    · simp [hreq] at h
    · rw [if_neg hreq] at h
      exact readItems_keeps (List.forall_mem_cons.mp hf).2 h hr
  | f :: fields, item :: items, _, r, _, hf, h, hr => by
    obtain ⟨r₁, hread, h⟩ := bind_eq_ok_iff.mp h
    obtain ⟨hhead, htail⟩ := List.forall_mem_cons.mp hf
    exact readItems_keeps htail h (hhead item r r₁ hread hr)

/-- **What every field keeps** holds of every record that is read, by name or by position. -/
theorem read_keeps {label : String} {blank : α} {node : ν}
    (h : Record.read label all blank node = .ok r) (hall : ∀ f ∈ all, f.Keeps P)
    (hblank : P blank) : P r := by
  obtain ⟨layout, -, h⟩ := bind_eq_ok_iff.mp h
  cases layout with
  | positional run => exact readItems_keeps hall h hblank
  | named run =>
    obtain ⟨⟨seen, r₁⟩, hnamed, h⟩ := bind_eq_ok_iff.mp h
    obtain ⟨-, -, h⟩ := bind_eq_ok_iff.mp h
    have hr₁ : P r₁ := readNamed_keeps hall hnamed hblank
    cases hmissing : all.find? fun f => f.required && !decide (f.name ∈ seen) with
    | some f => simp [hmissing] at h
    | none =>
      simp only [hmissing] at h
      obtain rfl := Except.ok.inj h
      exact hr₁

end Record

end Keeps

end OntologyCompiler
