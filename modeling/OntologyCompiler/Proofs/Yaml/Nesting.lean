import OntologyCompiler.Proofs.Yaml.Distinct
import OntologyCompiler.Proofs.Yaml.Inline
import OntologyCompiler.Proofs.Yaml.Literal

/-!
# Nesting moves a text to the right

A map or list that stands in another one is written as it is by itself, only deeper: each of its
lines that is not empty has two blanks more in front for every level. An item of a list has a dash
and a blank in place of the last two of the blanks in front of its first line.

* `mapLines_add`, `seqLines_add`: deeper by some levels, every line has more blanks in front.
* `newline_notMem_mapLines`, `newline_notMem_seqLines`: no line has a newline in it, so the lines of
  a text are those that were written (`unlines_map_padded`).
* `fromByte?_blanks`: blanks are cut off a text by their bytes.
* `nesting_shifts`: the text of a nested value, and the place of its dash.
-/

namespace OntologyCompiler.Yaml

/-! ## Lines with more blanks in front -/

/-- A line with blanks in front of it, unless it is empty. -/
def padded (count : Nat) (l : List Char) : List Char :=
  if l.isEmpty then [] else blanks count ++ l

theorem padded_nil (count : Nat) : padded count [] = [] := rfl

theorem padded_indent (more level : Nat) {l : List Char} (h : indent level ++ l ≠ []) :
    padded (2 * more) (indent level ++ l) = indent (more + level) ++ l := by
  have hsplit : indent (more + level) = blanks (2 * more) ++ indent level := by
    rw [indent, indent, blanks, ← List.replicate_add, Nat.mul_add]
  rw [padded, if_neg (by simpa using h), hsplit, List.append_assoc]

/-- The empty lines of a literal block stay empty. -/
theorem map_padded_lines (more level : Nat) (ls : List (List Char)) :
    (ls.map fun l => if l.isEmpty then [] else indent (more + level) ++ l) =
      (ls.map fun l => if l.isEmpty then [] else indent level ++ l).map (padded (2 * more)) := by
  rw [List.map_map]
  refine List.map_congr_left fun l _ => ?_
  cases l with
  | nil => rfl
  | cons c l => exact (padded_indent more level (by simp)).symm

theorem blockLines_add (more level below : Nat) (lead s : List Char) :
    blockLines (indent (more + level) ++ lead) s (more + below) =
      (blockLines (indent level ++ lead) s below).map (padded (2 * more)) := by
  have hmark : blockMark (closing s) ≠ [] := by
    match closing s with
    | 0 | 1 | _ + 2 => simp [blockMark]
  rw [blockLines, blockLines, List.map_append, List.map_cons, List.append_assoc, List.append_assoc,
    padded_indent more level (by simp [hmark]), ← map_padded_lines, List.map_replicate, padded_nil]

/-- The dash moves with the line. -/
theorem dashed_add {level : Nat} {ls : List (List Char)} (h : IsIndented (level + 1) ls)
    (more : Nat) : dashed (more + level) (ls.map (padded (2 * more))) =
      (dashed level ls).map (padded (2 * more)) := by
  obtain ⟨_, rest, rfl, l, rfl⟩ := h
  -- however deep the first line stands, the same is left of it behind its blanks
  have hdrop : ∀ depth : Nat, (indent depth ++ l).drop (2 * depth) = l := fun depth =>
    Block.drop_blanks (2 * depth) l
  rw [List.map_cons, padded_indent more (level + 1) (by simp [indent]), dashed, dashed,
    List.map_cons, padded_indent more level (by simp), hdrop (level + 1), ← Nat.add_assoc, hdrop]

-- By the recursion of the writer. An item that is a collection is moved as the lines below it are,
-- because the first of them is indented and so not empty.
mutual

theorem entryLines_add (more level : Nat) (key : String) : ∀ v : Json,
    entryLines (more + level) key v = (entryLines level key v).map (padded (2 * more))
  | .obj (m :: ms) => by
    rw [entryLines, entryLines, List.map_cons, Nat.add_assoc, mapLines_add more (level + 1),
      List.append_assoc, List.append_assoc, padded_indent more level (by simp)]
  | .arr (v :: vs) => by
    rw [entryLines, entryLines, List.map_cons, Nat.add_assoc, seqLines_add more (level + 1),
      List.append_assoc, List.append_assoc, padded_indent more level (by simp)]
  | .str s => by
    rw [entryLines, entryLines]
    simp only [List.append_assoc]
    split
    · exact blockLines_add more level (level + 1) _ s.toList
    · rw [List.map_singleton, padded_indent more level (by simp)]
  | .null | .bool _ | .num _ | .arr [] | .obj [] => by
    simp only [entryLines, List.append_assoc, List.map_singleton]
    rw [padded_indent more level (by simp)]

theorem itemLines_add (more level : Nat) : ∀ v : Json,
    itemLines (more + level) v = (itemLines level v).map (padded (2 * more))
  | .obj (m :: ms) => by
    rw [itemLines, itemLines, Nat.add_assoc, mapLines_add more (level + 1),
      dashed_add (isIndented_mapLines (level + 1) m ms)]
  | .arr (v :: vs) => by
    rw [itemLines, itemLines, Nat.add_assoc, seqLines_add more (level + 1),
      dashed_add (isIndented_seqLines (level + 1) v vs)]
  | .str s => by
    rw [itemLines, itemLines]
    simp only [List.append_assoc]
    split
    · exact blockLines_add more level (level + 1) _ s.toList
    · rw [List.map_singleton, padded_indent more level (by simp)]
  | .null | .bool _ | .num _ | .arr [] | .obj [] => by
    simp only [itemLines, List.append_assoc, List.map_singleton]
    rw [padded_indent more level (by simp)]

/-- **Deeper by some levels**, the lines of a map have more blanks in front. -/
theorem mapLines_add (more level : Nat) : ∀ ms : List (String × Json),
    mapLines (more + level) ms = (mapLines level ms).map (padded (2 * more))
  | [] => by simp [mapLines]
  | (key, v) :: rest => by
    rw [mapLines, mapLines, List.map_append, entryLines_add more level, mapLines_add more level]

/-- **Deeper by some levels**, the lines of a list have more blanks in front. -/
theorem seqLines_add (more level : Nat) : ∀ vs : List Json,
    seqLines (more + level) vs = (seqLines level vs).map (padded (2 * more))
  | [] => by simp [seqLines]
  | v :: rest => by
    rw [seqLines, seqLines, List.map_append, itemLines_add more level, seqLines_add more level]

end

/-! ## No newline in a line -/

theorem IsToken.newline_notMem {t : List Char} (h : IsToken t) : '\n' ∉ t := by
  cases h with
  | bare _ hplain => exact fun hmem => hplain '\n' hmem (Or.inr rfl)
  | quoted s =>
    have hbody : '\n' ∉ s.flatMap escapedChar := by
      rw [List.mem_flatMap]
      rintro ⟨c, -, hc⟩
      exact (Quoted.not_raw_of_mem_escapedChar hc).1 rfl
    simpa using hbody

theorem newline_notMem_indent (level : Nat) : '\n' ∉ indent level := by
  simp [indent]

theorem newline_notMem_blockLines {front : List Char} (h : '\n' ∉ front) (s : List Char)
    (level : Nat) : ∀ l ∈ blockLines front s level, '\n' ∉ l := by
  intro l hl
  rcases List.mem_cons.mp hl with rfl | hl
  · simpa [h] using Literal.newline_notMem_blockMark (closing s)
  · exact Literal.newline_notMem_rows hl

theorem newline_notMem_dashed {ls : List (List Char)} (h : ∀ l ∈ ls, '\n' ∉ l) (level : Nat) :
    ∀ l ∈ dashed level ls, '\n' ∉ l := by
  cases ls with
  | nil => exact h
  | cons first rest =>
    obtain ⟨hfirst, hrest⟩ := List.forall_mem_cons.mp h
    refine List.forall_mem_cons.mpr ⟨?_, hrest⟩
    have hdrop : '\n' ∉ first.drop (2 * (level + 1)) := fun hmem =>
      hfirst (List.mem_of_mem_drop hmem)
    simp [newline_notMem_indent, hdrop]

mutual

theorem newline_notMem_entryLines (level : Nat) (key : String) :
    ∀ v : Json, ∀ l ∈ entryLines level key v, '\n' ∉ l
  | .obj (m :: ms) => by
    have hkey := (isToken_quote key.toList).newline_notMem
    rw [entryLines, List.forall_mem_cons]
    exact ⟨by simp [newline_notMem_indent, hkey], newline_notMem_mapLines (level + 1) (m :: ms)⟩
  | .arr (v :: vs) => by
    have hkey := (isToken_quote key.toList).newline_notMem
    rw [entryLines, List.forall_mem_cons]
    exact ⟨by simp [newline_notMem_indent, hkey], newline_notMem_seqLines (level + 1) (v :: vs)⟩
  | .str s => by
    have hkey := (isToken_quote key.toList).newline_notMem
    have hs := (isToken_scalar (.str s)).newline_notMem
    rw [entryLines]
    split
    · exact newline_notMem_blockLines (by simp [newline_notMem_indent, hkey]) _ _
    · simp [newline_notMem_indent, hkey, hs]
  | .null | .bool _ | .num _ | .arr [] | .obj [] => by
    have hkey := (isToken_quote key.toList).newline_notMem
    have hv := fun v => (isToken_scalar v).newline_notMem
    simp [entryLines, newline_notMem_indent, hkey, hv]

theorem newline_notMem_itemLines (level : Nat) : ∀ v : Json, ∀ l ∈ itemLines level v, '\n' ∉ l
  | .obj (m :: ms) => by
    rw [itemLines]
    exact newline_notMem_dashed (newline_notMem_mapLines (level + 1) (m :: ms)) level
  | .arr (v :: vs) => by
    rw [itemLines]
    exact newline_notMem_dashed (newline_notMem_seqLines (level + 1) (v :: vs)) level
  | .str s => by
    have hs := (isToken_scalar (.str s)).newline_notMem
    rw [itemLines]
    split
    · exact newline_notMem_blockLines (by simp [newline_notMem_indent]) _ _
    · simp [newline_notMem_indent, hs]
  | .null | .bool _ | .num _ | .arr [] | .obj [] => by
    have hv := fun v => (isToken_scalar v).newline_notMem
    simp [itemLines, newline_notMem_indent, hv]

theorem newline_notMem_mapLines (level : Nat) :
    ∀ ms : List (String × Json), ∀ l ∈ mapLines level ms, '\n' ∉ l
  | [] => by simp [mapLines]
  | (key, v) :: rest => by
    rw [mapLines, List.forall_mem_append]
    exact ⟨newline_notMem_entryLines level key v, newline_notMem_mapLines level rest⟩

theorem newline_notMem_seqLines (level : Nat) :
    ∀ vs : List Json, ∀ l ∈ seqLines level vs, '\n' ∉ l
  | [] => by simp [seqLines]
  | v :: rest => by
    rw [seqLines, List.forall_mem_append]
    exact ⟨newline_notMem_itemLines level v, newline_notMem_seqLines level rest⟩

end

/-! ## Texts moved to the right -/

/-- A text with blanks in front of each of its lines that is not empty. -/
def shifted (count : Nat) (text : List Char) : List Char :=
  ['\n'].intercalate ((text.splitOn '\n').map (padded count))

theorem intercalate_unlines : ∀ ls : List (List Char),
    ['\n'].intercalate (ls ++ [[]]) = unlines ls
  | [] => rfl
  | [l] => by simp [unlines, List.intercalate]
  | l :: m :: ls => by
    have ih := intercalate_unlines (m :: ls)
    rw [List.cons_append, List.cons_append, List.intercalate_cons_cons, unlines_cons, ← ih]
    simp

/-- **Lines with more blanks in front** are a text that is moved to the right. -/
theorem unlines_map_padded {ls : List (List Char)} (h : ∀ l ∈ ls, '\n' ∉ l) (count : Nat) :
    unlines (ls.map (padded count)) = shifted count (unlines ls) := by
  rw [shifted, Literal.splitOn_unlines h, List.map_append, List.map_singleton, padded_nil,
    intercalate_unlines]

/-! ## Bytes of a text -/

theorem utf8ByteSize_ofList (cs : List Char) : (String.ofList cs).utf8ByteSize = byteCount cs := by
  induction cs with
  | nil => rfl
  | cons c cs ih =>
    rw [String.ofList_cons, String.utf8ByteSize_append, String.utf8ByteSize_singleton, ih]
    rfl

/-- A blank is one byte. -/
theorem byteCount_blanks (count : Nat) : byteCount (blanks count) = count := by
  have hblank : ' '.utf8Size = 1 := by decide
  simp [byteCount, blanks, hblank]

theorem le_byteCount_blanks (count : Nat) (rest : List Char) :
    count ≤ byteCount (blanks count ++ rest) := by
  have hblanks := byteCount_blanks count
  simp only [byteCount, List.map_append, List.sum_append] at hblanks ⊢
  omega

/-- What a text says from one of its bytes on; none if the byte is beyond its end or inside one of
its characters. -/
def fromByte? (byte : Nat) (text : List Char) : Option (List Char) :=
  if h : String.Pos.Raw.IsValid (String.ofList text) ⟨byte⟩ then
    some ((String.ofList text).sliceFrom ((String.ofList text).pos ⟨byte⟩ h)).copy.toList
  else none

theorem fromByte?_append (front rest : List Char) :
    fromByte? (byteCount front) (front ++ rest) = some rest := by
  have happend : String.ofList (front ++ rest) = String.ofList front ++ String.ofList rest :=
    String.ofList_append
  -- the bytes of the front end where its last character does
  have hoffset : (⟨byteCount front⟩ : String.Pos.Raw) = (String.ofList front).rawEndPos := by
    rw [← utf8ByteSize_ofList]
    rfl
  have hvalid : String.Pos.Raw.IsValid (String.ofList (front ++ rest)) ⟨byteCount front⟩ :=
    String.Pos.Raw.isValid_iff_exists_append.mpr ⟨_, _, happend, hoffset⟩
  have hsplits : ((String.ofList (front ++ rest)).pos _ hvalid).Splits (String.ofList front)
      (String.ofList rest) := ⟨happend, hoffset⟩
  rw [fromByte?, dif_pos hvalid, hsplits.copy_sliceFrom_eq, String.toList_ofList]

/-- Blanks are cut off by their bytes. -/
theorem fromByte?_blanks (count : Nat) (rest : List Char) :
    fromByte? count (blanks count ++ rest) = some rest := by
  have hcut := fromByte?_append (blanks count) rest
  rwa [byteCount_blanks] at hcut

/-! ## Nested values -/

/-- The lines of a map or list whose entries stand at a level. -/
def nestedLines (level : Nat) : Json → List (List Char)
  | .obj members => mapLines level members
  | .arr items => seqLines level items
  | _ => []

/-- A text with a dash and a blank behind the blanks of a level, in place of as many bytes as there
are blanks one level deeper, or of all its bytes if it has fewer. -/
def dashedText? (level : Nat) (text : List Char) : Option (List Char) :=
  (fromByte? (min (2 * (level + 1)) (byteCount text)) text).map fun rest =>
    blanks (2 * level) ++ '-' :: ' ' :: rest

theorem dashedText?_blanks (level : Nat) (rest : List Char) :
    dashedText? level (blanks (2 * (level + 1)) ++ rest) =
      some (blanks (2 * level) ++ '-' :: ' ' :: rest) := by
  rw [dashedText?, Nat.min_eq_left (le_byteCount_blanks _ rest), fromByte?_blanks, Option.map_some]

section Nested

variable {v : Json}

theorem nestedLines_add (more level : Nat) : ∀ v : Json,
    nestedLines (more + level) v = (nestedLines level v).map (padded (2 * more))
  | .obj members => mapLines_add more level members
  | .arr items => seqLines_add more level items
  | .null | .bool _ | .num _ | .str _ => rfl

theorem newline_notMem_nestedLines (level : Nat) :
    ∀ v : Json, ∀ l ∈ nestedLines level v, '\n' ∉ l
  | .obj members => newline_notMem_mapLines level members
  | .arr items => newline_notMem_seqLines level items
  | .null | .bool _ | .num _ | .str _ => fun _ h => absurd h List.not_mem_nil

/-- In front of the text of a nested value stand the blanks of its level. -/
theorem unlines_nestedLines (h : isNested v = true) (level : Nat) :
    unlines (nestedLines level v) = blanks (2 * level) ++ nodeText level v := by
  match v with
  | .obj (m :: ms) => rw [nestedLines, unlines_mapLines, blanks_mapping]
  | .arr (w :: ws) => rw [nestedLines, unlines_seqLines, blanks_sequence]

theorem toList_write_nested (h : isNested v = true) :
    (write v).toList = unlines (nestedLines 0 v) := by
  rw [toList_write, unlines_nestedLines h]
  rfl

/-- No further blank stands there, but a key or a dash. -/
theorem head_nodeText (h : isNested v = true) (level : Nat) :
    ∃ c rest, nodeText level v = c :: rest ∧ c ≠ ' ' ∧ c ≠ '\n' := by
  match v with
  | .obj ((key, w) :: ms) =>
    obtain ⟨c, rest, hquote, hc⟩ := head_quote key.toList
    rw [nodeText, hquote, List.cons_append, List.cons_append]
    exact ⟨c, _, rfl, fun heq => hc (by simp [heq]), fun heq => hc (by simp [heq])⟩
  | .arr (w :: ws) =>
    rw [nodeText]
    exact ⟨'-', _, rfl, by decide, by decide⟩

/-- **Nested values** are moved to the right. -/
theorem unlines_nestedLines_eq_shifted (h : isNested v = true) (level : Nat) :
    unlines (nestedLines level v) = shifted (2 * level) (write v).toList := by
  rw [toList_write_nested h, ← unlines_map_padded (newline_notMem_nestedLines 0 v),
    ← nestedLines_add, Nat.add_zero]

/-- **Nesting is a pure shift.** At any level, a map or list with entries has the text that it has
as a document, with two blanks for each level in front of every line that is not empty. Where it is
an item of a list, the blanks in front of its first line are just those of its level; they are cut
off by their bytes, all of which there are, and no character is cut in two; and what is left stands
behind a dash and a blank in place of the last two of them. -/
theorem nesting_shifts (h : isNested v = true) (level : Nat) :
    unlines (nestedLines level v) = shifted (2 * level) (write v).toList ∧
    2 * (level + 1) ≤ byteCount (unlines (nestedLines (level + 1) v)) ∧
    dashedText? level (unlines (nestedLines (level + 1) v)) = some (unlines (itemLines level v)) ∧
    ∃ c rest, c ≠ ' ' ∧ c ≠ '\n' ∧
      fromByte? (2 * (level + 1)) (unlines (nestedLines (level + 1) v)) = some (c :: rest) ∧
      shifted (2 * (level + 1)) (write v).toList = blanks (2 * (level + 1)) ++ c :: rest ∧
      unlines (itemLines level v) = blanks (2 * level) ++ '-' :: ' ' :: c :: rest := by
  have htext := unlines_nestedLines h (level + 1)
  have hitem := unlines_itemLines level v
  obtain ⟨c, rest, hnode, hblank, hfeed⟩ := head_nodeText h (level + 1)
  rw [hnode] at htext hitem
  refine ⟨unlines_nestedLines_eq_shifted h level, ?_, ?_, c, rest, hblank, hfeed, ?_, ?_, hitem⟩
  · rw [htext]
    exact le_byteCount_blanks _ _
  · rw [htext, dashedText?_blanks, hitem]
  · rw [htext, fromByte?_blanks]
  · rw [← unlines_nestedLines_eq_shifted h, htext]

end Nested

/-- A list of a list of a map, with a text of several lines, one of them empty. -/
def outline : Json :=
  .arr [.arr [.obj [("note", .str "one\n\n two\n")], .bool true]]

/-- Two levels deeper its empty line is empty still. -/
theorem nesting_shifts_outline : isNested outline = true ∧
    (write outline).toList = "- - note: |\n      one\n\n       two\n  - true\n".toList ∧
    unlines (nestedLines 2 outline) =
      "    - - note: |\n          one\n\n           two\n      - true\n".toList ∧
    dashedText? 1 (unlines (nestedLines 2 outline)) = some (unlines (itemLines 1 outline)) := by
  have hnested : isNested outline = true := rfl
  have hwritten : (write outline).toList =
      "- - note: |\n      one\n\n       two\n  - true\n".toList := by decide +kernel
  refine ⟨hnested, hwritten, ?_, (nesting_shifts hnested 1).2.2.1⟩
  rw [(nesting_shifts hnested 2).1, hwritten]
  decide +kernel

end OntologyCompiler.Yaml
