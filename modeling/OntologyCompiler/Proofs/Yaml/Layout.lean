import OntologyCompiler.Proofs.Yaml.Block
import OntologyCompiler.Yaml.Collection

/-!
# The text of a value

The lines of a value as one text: first the text of the value itself, without the blanks in front of
its first line, and then the lines of its other entries with theirs.

* `nodeText`: the text of a value at its level.
* `nodeOf`: the node that is written by it.
* `toList_write`: a document is the text of its value.
-/

namespace OntologyCompiler.Yaml

/-- Whether the entries of a value stand on lines of their own. -/
def isNested : Json → Bool
  | .arr (_ :: _) => true
  | .obj (_ :: _) => true
  | _ => false

/-- What stands between the colon behind a key and a value. -/
def lead (level : Nat) (v : Json) : List Char :=
  if isNested v then '\n' :: blanks (2 * level) else [' ']

mutual

/-- The text of a value whose entries stand at a level. -/
def nodeText (level : Nat) : Json → List Char
  | .obj ((key, v) :: rest) =>
    quote key.toList ++ ':' :: (lead (level + 1) v ++ nodeText (level + 1) v)
      ++ membersText level rest
  | .arr (v :: rest) => '-' :: ' ' :: nodeText (level + 1) v ++ itemsText level rest
  | .str s =>
    if isBlock s.toList then Block.written s.toList (max level 1) else quote s.toList ++ ['\n']
  | v => scalar v ++ ['\n']

/-- The lines of further members. -/
def membersText (level : Nat) : List (String × Json) → List Char
  | [] => []
  | (key, v) :: rest =>
    blanks (2 * level)
      ++ (quote key.toList ++ ':' :: (lead (level + 1) v ++ nodeText (level + 1) v)
        ++ membersText level rest)

/-- The lines of further items. -/
def itemsText (level : Nat) : List Json → List Char
  | [] => []
  | v :: rest =>
    blanks (2 * level) ++ ('-' :: ' ' :: nodeText (level + 1) v ++ itemsText level rest)

end

/-! ## Lines as a text -/

theorem unlines_append (ls ms : List (List Char)) : unlines (ls ++ ms) = unlines ls ++ unlines ms :=
  List.flatMap_append

theorem unlines_cons (l : List Char) (ls : List (List Char)) :
    unlines (l :: ls) = l ++ '\n' :: unlines ls := by
  simp [unlines]

/-- Lines the first of which is indented. -/
def IsIndented (level : Nat) (ls : List (List Char)) : Prop :=
  ∃ l rest, ls = l :: rest ∧ indent level <+: l

theorem IsIndented.append {level : Nat} {ls : List (List Char)} (h : IsIndented level ls)
    (ms : List (List Char)) : IsIndented level (ls ++ ms) := by
  obtain ⟨l, rest, rfl, hl⟩ := h
  exact ⟨l, rest ++ ms, rfl, hl⟩

theorem IsIndented.dashed {level : Nat} {ls : List (List Char)} (h : IsIndented (level + 1) ls) :
    IsIndented level (dashed level ls) := by
  obtain ⟨l, rest, rfl, -⟩ := h
  exact ⟨_, rest, rfl, List.prefix_append _ _⟩

/-- A dash takes the place of two blanks. -/
theorem unlines_dashed {level : Nat} {ls : List (List Char)} (h : IsIndented (level + 1) ls)
    {text : List Char} (htext : unlines ls = blanks (2 * (level + 1)) ++ text) :
    unlines (dashed level ls) = blanks (2 * level) ++ ('-' :: ' ' :: text) := by
  obtain ⟨_, rest, rfl, l, rfl⟩ := h
  have hsame : l ++ '\n' :: unlines rest = text := by
    rw [unlines_cons, List.append_assoc] at htext
    exact List.append_cancel_left htext
  have hdrop : (indent (level + 1) ++ l).drop (2 * (level + 1)) = l :=
    Block.drop_blanks (2 * (level + 1)) l
  rw [dashed, hdrop, unlines_cons, ← hsame, indent, blanks]
  simp

theorem isIndented_entryLines (level : Nat) (key : String) (v : Json) :
    IsIndented level (entryLines level key v) := by
  unfold entryLines blockLines
  split <;> (try split) <;> exact ⟨_, _, rfl, by simp⟩

theorem isIndented_mapLines (level : Nat) (m : String × Json) (ms : List (String × Json)) :
    IsIndented level (mapLines level (m :: ms)) := by
  rw [mapLines]
  exact (isIndented_entryLines level m.1 m.2).append _

theorem isIndented_itemLines (level : Nat) : ∀ v : Json, IsIndented level (itemLines level v)
  | .obj (m :: ms) => by
    rw [itemLines]
    exact (isIndented_mapLines (level + 1) m ms).dashed
  | .arr (v :: vs) => by
    rw [itemLines, seqLines]
    exact ((isIndented_itemLines (level + 1) v).append _).dashed
  | .str s => by
    rw [itemLines, blockLines]
    split <;> exact ⟨_, _, rfl, by simp⟩
  | .null | .bool _ | .num _ | .arr [] | .obj [] => by
    rw [itemLines]
    · exact ⟨_, _, rfl, by simp⟩
    all_goals simp

theorem isIndented_seqLines (level : Nat) (v : Json) (vs : List Json) :
    IsIndented level (seqLines level (v :: vs)) := by
  rw [seqLines]
  exact (isIndented_itemLines level v).append _

mutual

theorem unlines_entryLines (level : Nat) (key : String) : ∀ v : Json,
    unlines (entryLines level key v) =
      blanks (2 * level) ++ (quote key.toList ++ ':' :: (lead (level + 1) v
        ++ nodeText (level + 1) v))
  | .obj (m :: ms) => by
    rw [entryLines, unlines_cons, unlines_mapLines]
    obtain ⟨k, v⟩ := m
    simp [lead, isNested, nodeText, membersText, indent, blanks]
  | .arr (v :: vs) => by
    rw [entryLines, unlines_cons, unlines_seqLines]
    simp [lead, isNested, nodeText, itemsText, indent, blanks]
  | .str s => by
    rw [entryLines, lead, nodeText]
    split
    · rw [Block.unlines_blockLines, Nat.max_eq_left (Nat.succ_le_succ (Nat.zero_le level))]
      simp [isNested, indent, blanks]
    · simp [unlines, isNested, indent, blanks, scalar]
  | .null | .bool _ | .num _ | .arr [] | .obj [] => by
    simp [entryLines, lead, isNested, nodeText, unlines, indent, blanks]

theorem unlines_itemLines (level : Nat) : ∀ v : Json,
    unlines (itemLines level v) =
      blanks (2 * level) ++ ('-' :: ' ' :: nodeText (level + 1) v)
  | .obj ((key, v) :: ms) => by
    rw [itemLines, unlines_dashed (isIndented_mapLines (level + 1) (key, v) ms)]
    rw [unlines_mapLines, membersText, nodeText]
  | .arr (v :: vs) => by
    rw [itemLines, unlines_dashed (isIndented_seqLines (level + 1) v vs)]
    rw [unlines_seqLines, itemsText, nodeText]
  | .str s => by
    rw [itemLines, nodeText]
    split
    · rw [Block.unlines_blockLines, Nat.max_eq_left (Nat.succ_le_succ (Nat.zero_le level))]
      simp [indent, blanks]
    · simp [unlines, indent, blanks, scalar]
  | .null | .bool _ | .num _ | .arr [] | .obj [] => by
    simp [itemLines, nodeText, unlines, indent, blanks]

theorem unlines_mapLines (level : Nat) : ∀ ms : List (String × Json),
    unlines (mapLines level ms) = membersText level ms
  | [] => by simp [mapLines, membersText, unlines]
  | (key, v) :: rest => by
    rw [mapLines, unlines_append, unlines_entryLines, unlines_mapLines level rest]
    simp [membersText]

theorem unlines_seqLines (level : Nat) : ∀ vs : List Json,
    unlines (seqLines level vs) = itemsText level vs
  | [] => by simp [seqLines, itemsText, unlines]
  | v :: rest => by
    rw [seqLines, unlines_append, unlines_itemLines, unlines_seqLines level rest]
    simp [itemsText]

end

/-- **A document is the text of its value.** -/
theorem toList_write (v : Json) : (write v).toList = nodeText 0 v := by
  have hlines : unlines (lines v) = nodeText 0 v := by
    unfold lines
    split
    · rename_i m ms
      rw [unlines_mapLines, membersText, nodeText]
      rfl
    · rw [unlines_seqLines, itemsText, nodeText]
      rfl
    · rw [nodeText]
      split
      · exact Block.unlines_blockLines [] _ 1
      · simp [unlines, scalar]
    · rename_i hobj harr hstr
      unfold nodeText
      split <;> simp_all [unlines]
  rw [write, String.toList_ofList, hlines]

/-! ## Nodes -/

/-- How the key of a member is written. -/
def keyStyle (s : List Char) : Style :=
  if needsQuotes s then .quoted else .plain

/-- How a text is written. -/
def styleOf (s : List Char) : Style :=
  if isBlock s then .literal else keyStyle s

mutual

/-- The node that is written by the text of a value. -/
def nodeOf {ρ : Type} : Json → Node ρ
  | .str s => .scalar .none (styleOf s.toList) s
  | .arr items => .sequence .none (itemsOf items)
  | .obj members => .mapping .none (membersOf members)
  | v => .scalar .none .plain (String.ofList (scalar v))

/-- `nodeOf` for each item. -/
def itemsOf {ρ : Type} : List Json → List (Node ρ)
  | [] => []
  | v :: rest => nodeOf v :: itemsOf rest

/-- Key and value of each member. -/
def membersOf {ρ : Type} : List (String × Json) → List (Node ρ × Node ρ)
  | [] => []
  | (key, v) :: rest =>
    (.scalar .none (keyStyle key.toList) key, nodeOf v) :: membersOf rest

end

end OntologyCompiler.Yaml
