import OntologyCompiler.Proofs.Ordered
import OntologyCompiler.Proofs.Yaml.Layout
import OntologyCompiler.Proofs.Yaml.Quoting

/-!
# The value of a node that was written

A node that was written has neither anchors nor tags, so its numbers are those of no node at all;
and its value is the one that it was written for, as long as lists and maps may be entered.

* `numbered_nodeOf`: there is nothing to number.
* `value_nodeOf`: the value of the node.
-/

namespace OntologyCompiler.Yaml

/-! ## Numbers -/

mutual

/-- **There is nothing to number** in a node that was written. -/
theorem numbered_nodeOf (names : Ordered String Nat) : ∀ v : Json,
    Node.numbered names (nodeOf v) = some (nodeOf v, names)
  | .arr items => by simp [nodeOf, Node.numbered, Properties.numbered, Properties.none,
      numberedItems_itemsOf names items]
  | .obj members => by simp [nodeOf, Node.numbered, Properties.numbered, Properties.none,
      numberedMembers_membersOf names members]
  | .str _ | .null | .bool _ | .num _ => by
    simp [nodeOf, Node.numbered, Properties.numbered, Properties.none]

theorem numberedItems_itemsOf (names : Ordered String Nat) : ∀ items : List Json,
    Node.numberedItems names (itemsOf items) = some (itemsOf items, names)
  | [] => by simp [itemsOf, Node.numberedItems]
  | v :: rest => by
    simp [itemsOf, Node.numberedItems, numbered_nodeOf names v, numberedItems_itemsOf names rest]

theorem numberedMembers_membersOf (names : Ordered String Nat) :
    ∀ members : List (String × Json),
    Node.numberedMembers names (membersOf members) = some (membersOf members, names)
  | [] => by simp [membersOf, Node.numberedMembers]
  | (key, v) :: rest => by
    simp [membersOf, Node.numberedMembers, Node.numbered, Properties.numbered, Properties.none,
      numbered_nodeOf names v, numberedMembers_membersOf names rest]

end

/-! ## Values -/

namespace Place

variable (d : Document)

/-- The value of a text as it was written. -/
theorem scalarValue?_text (s : String) :
    scalarValue? .none (styleOf s.toList) s = some (.str s) := by
  show untagged? (styleOf s.toList) s = _
  unfold untagged? styleOf keyStyle
  by_cases hblock : isBlock s.toList = true
  · rw [if_pos hblock, if_neg (by decide)]
  rw [if_neg hblock]
  by_cases hquoted : needsQuotes s.toList = true
  · rw [if_pos hquoted, if_neg (by decide)]
  · rw [if_neg hquoted, if_pos rfl, value?_unquoted (by simpa using hquoted), String.ofList_toList]

theorem scalarValue?_number {n : Number} (h : (Json.num n).Plain) :
    scalarValue? .none .plain (String.ofList n.digits) = some (.num n) := by
  show untagged? .plain _ = _
  rw [untagged?, if_pos rfl, String.toList_ofList]
  cases n with
  | whole n => exact Core.value?_wholeDigits (by rwa [Json.Plain] at h)
  | real x => exact Core.value?_digits x

theorem value_scalar (depth room : Nat) (style : Style) (text : String) :
    value (depth + 1) ⟨d, room, .scalar .none style text⟩ =
      orFault (scalarValue? .none style text) := by
  simp [value, target]

theorem text_scalar (room : Nat) (style : Style) (s : String) :
    Place.text ⟨d, room, .scalar .none style s⟩ = pure s := by
  simp [Place.text, look, target, text?, orFault]

theorem value_sequence {depth room : Nat} (hroom : room ≠ 0) (items : List (Node Nat)) :
    value (depth + 1) ⟨d, room, .sequence .none items⟩ =
      return .arr (← items.mapM fun n => value depth ⟨d, room - 1, n⟩) := by
  simp [value, target, variant?, Properties.none, hroom, enter]

/-- A member is put behind the others. -/
def putMember (depth room : Nat) (ms : Ordered String Json) (m : Node Nat × Node Nat) :
    Following (Ordered String Json) := do
  let key ← Place.text ⟨d, room, m.1⟩
  return ms.put key (← value depth ⟨d, room, m.2⟩)

theorem value_mapping {depth room : Nat} (hroom : room ≠ 0) (members : List (Node Nat × Node Nat)) :
    value (depth + 1) ⟨d, room, .mapping .none members⟩ =
      return .obj (← members.foldlM (putMember d depth (room - 1)) []) := by
  simp [value, target, variant?, Properties.none, hroom, enter]
  rfl

mutual

/-- **The value of a node that was written**, where it is not nested too deep. -/
theorem value_nodeOf : ∀ {v : Json} {depth room : Nat}, v.Plain → v.height ≤ depth →
    v.height ≤ room → value (depth + 1) ⟨d, room, nodeOf v⟩ = pure v
  | .str s, depth, room, _, _, _ => by
    rw [nodeOf, value_scalar, scalarValue?_text]
    rfl
  | .num n, depth, room, h, _, _ => by
    rw [nodeOf, value_scalar, scalar, scalarValue?_number h]
    · rfl
    all_goals simp
  | .null, depth, room, _, _, _ => by
    rw [nodeOf, value_scalar]
    · rfl
    all_goals simp
  | .bool b, depth, room, _, _, _ => by
    rw [nodeOf, value_scalar]
    · cases b <;> rfl
    all_goals simp
  | .arr items, depth, room, h, hdepth, hroom => by
    rw [Json.Plain] at h
    rw [Json.height] at hdepth hroom
    obtain ⟨depth, rfl⟩ : ∃ k, depth = k + 1 := ⟨depth - 1, by omega⟩
    rw [nodeOf, value_sequence d (by omega),
      values_itemsOf h (Nat.le_of_succ_le_succ hdepth) (Nat.le_sub_one_of_lt hroom)]
    rfl
  | .obj members, depth, room, h, hdepth, hroom => by
    rw [Json.Plain] at h
    rw [Json.height] at hdepth hroom
    obtain ⟨depth, rfl⟩ : ∃ k, depth = k + 1 := ⟨depth - 1, by omega⟩
    rw [nodeOf, value_mapping d (by omega),
      values_membersOf [] h.2 (Nat.le_of_succ_le_succ hdepth) (Nat.le_sub_one_of_lt hroom) h.1]
    rfl

/-- The values of the items of a list. -/
theorem values_itemsOf : ∀ {items : List Json} {depth room : Nat}, Json.PlainItems items →
    Json.itemsHeight items ≤ depth → Json.itemsHeight items ≤ room →
    (itemsOf items).mapM (fun n => value (depth + 1) ⟨d, room, n⟩) = pure items
  | [], _, _, _, _, _ => by simp [itemsOf]
  | v :: rest, depth, room, h, hdepth, hroom => by
    rw [Json.PlainItems] at h
    rw [Json.itemsHeight] at hdepth hroom
    rw [itemsOf, List.mapM_cons, value_nodeOf h.1 (by omega) (by omega),
      values_itemsOf h.2 (by omega) (by omega)]
    rfl

/-- The members of a map are put behind others with other keys. -/
theorem values_membersOf : ∀ {members : List (String × Json)} (ms : Ordered String Json)
    {depth room : Nat}, Json.PlainMembers members → Json.membersHeight members ≤ depth →
    Json.membersHeight members ≤ room → (Ordered.keys (ms ++ members)).Nodup →
    (membersOf members).foldlM (putMember d (depth + 1) room) ms = pure (ms ++ members)
  | [], ms, _, _, _, _, _, _ => by simp [membersOf]
  | (key, v) :: rest, ms, depth, room, h, hdepth, hroom, hkeys => by
    rw [Json.PlainMembers] at h
    rw [Json.membersHeight] at hdepth hroom
    have hkey : key ∉ Ordered.keys ms := by
      simp only [Ordered.keys, List.map_append, List.map_cons, List.nodup_append] at hkeys
      exact fun hmem => hkeys.2.2 key hmem key List.mem_cons_self rfl
    have hput : putMember d (depth + 1) room ms
        (.scalar .none (keyStyle key.toList) key, nodeOf v) = pure (ms ++ [(key, v)]) := by
      rw [putMember, text_scalar, value_nodeOf h.1 (by omega) (by omega)]
      simp [Ordered.put_of_notMem hkey]
    rw [membersOf, List.foldlM_cons, hput]
    have hrest : Json.membersHeight rest ≤ depth ∧ Json.membersHeight rest ≤ room := by omega
    have ih := values_membersOf (ms ++ [(key, v)]) h.2 hrest.1 hrest.2 (by simpa using hkeys)
    simpa using ih

end

/-! ## Values that are nested too deep -/

/-- The fault of a document that is not read. -/
def malformed {α : Type} : Following α :=
  throw .malformed

theorem malformed_bind {α β : Type} (f : α → Following β) : malformed >>= f = malformed := rfl

mutual

/-- **The value of a node that is nested too deep** is not read. -/
theorem value_tooDeep : ∀ {v : Json} {depth room : Nat}, v.Plain → room ≤ depth →
    room < v.height → value (depth + 1) ⟨d, room, nodeOf v⟩ = malformed
  | .arr items, depth, room, h, hdepth, hroom => by
    rw [Json.Plain] at h
    rw [Json.height] at hroom
    rw [nodeOf]
    rcases room with _ | room
    · simp only [value, target, variant?, Properties.none]
      rfl
    obtain ⟨depth, rfl⟩ : ∃ k, depth = k + 1 := ⟨depth - 1, by omega⟩
    rw [value_sequence d (by omega), Nat.add_sub_cancel,
      values_tooDeepItems h (Nat.le_of_succ_le_succ hdepth) (Nat.lt_of_succ_lt_succ hroom)]
    rfl
  | .obj members, depth, room, h, hdepth, hroom => by
    rw [Json.Plain] at h
    rw [Json.height] at hroom
    rw [nodeOf]
    rcases room with _ | room
    · simp only [value, target, variant?, Properties.none]
      rfl
    obtain ⟨depth, rfl⟩ : ∃ k, depth = k + 1 := ⟨depth - 1, by omega⟩
    rw [value_mapping d (by omega), Nat.add_sub_cancel,
      values_tooDeepMembers [] h.2 (Nat.le_of_succ_le_succ hdepth) (Nat.lt_of_succ_lt_succ hroom)]
    rfl
  | .str _, _, _, _, _, hroom | .null, _, _, _, _, hroom | .bool _, _, _, _, _, hroom
  | .num _, _, _, _, _, hroom => by
    rw [Json.height] at hroom
    · exact absurd hroom (Nat.not_lt_zero _)
    all_goals simp

theorem values_tooDeepItems : ∀ {items : List Json} {depth room : Nat}, Json.PlainItems items →
    room ≤ depth → room < Json.itemsHeight items →
    (itemsOf items).mapM (fun n => value (depth + 1) ⟨d, room, n⟩) = malformed
  | [], _, _, _, _, hroom => by
    rw [Json.itemsHeight] at hroom
    exact absurd hroom (Nat.not_lt_zero _)
  | v :: rest, depth, room, h, hdepth, hroom => by
    rw [Json.PlainItems] at h
    rw [Json.itemsHeight] at hroom
    rw [itemsOf, List.mapM_cons]
    by_cases hv : room < v.height
    · rw [value_tooDeep h.1 hdepth hv, malformed_bind]
    · rw [value_nodeOf d h.1 (by omega) (by omega), pure_bind,
        values_tooDeepItems h.2 hdepth (by omega), malformed_bind]

theorem values_tooDeepMembers : ∀ {members : List (String × Json)} (ms : Ordered String Json)
    {depth room : Nat}, Json.PlainMembers members → room ≤ depth →
    room < Json.membersHeight members →
    (membersOf members).foldlM (putMember d (depth + 1) room) ms = malformed
  | [], _, _, _, _, _, hroom => by
    rw [Json.membersHeight] at hroom
    exact absurd hroom (Nat.not_lt_zero _)
  | (key, v) :: rest, ms, depth, room, h, hdepth, hroom => by
    rw [Json.PlainMembers] at h
    rw [Json.membersHeight] at hroom
    rw [membersOf, List.foldlM_cons, putMember, text_scalar, pure_bind]
    by_cases hv : room < v.height
    · rw [value_tooDeep h.1 hdepth hv, malformed_bind, malformed_bind]
    · rw [value_nodeOf d h.1 (by omega) (by omega), pure_bind, pure_bind]
      exact values_tooDeepMembers _ h.2 hdepth (by omega)

end

end Place

end OntologyCompiler.Yaml
