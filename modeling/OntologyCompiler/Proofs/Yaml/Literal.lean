import Mathlib.Data.List.DropRight
import OntologyCompiler.Proofs.Yaml.Layout

/-!
# Literal blocks by their rules

The rules of literal blocks, for texts whose only line end is the newline: the first line that is
not empty shows how deep the block is indented, every other line that is not empty is indented as
far, and the mark says which of the newlines at the end count. A block that is written is read back
by these rules, and its depth is that of its level.

* `read?`: the depth of a block and its text.
* `depth?_rows`: the depth that a written block shows.
* `mapM_says?_rows`: what its lines say.
* `chomped?_closed`: what is left of the newlines at its end.
* `read?_blockLines`: the three together, for every block.
-/

namespace OntologyCompiler.Yaml.Literal

/-! ## The rules -/

/-- How deep the first line that is not empty is indented. -/
def depth? (rows : List (List Char)) : Option Nat :=
  (rows.find? fun r => !r.isEmpty).map fun r => (r.takeWhile (· = ' ')).length

/-- What a line of a block says: an empty one nothing, any other what stands behind the indentation;
none if it is not indented so far. -/
def says? (depth : Nat) (row : List Char) : Option (List Char) :=
  if row.isEmpty then some []
  else if row.take depth = blanks depth then some (row.drop depth)
  else none

/-- A text with those of the newlines at its end that a mark keeps: none, one, or all of them. -/
def chomped? (mark text : List Char) : Option (List Char) :=
  let stripped := text.rdropWhile (· = '\n')
  if mark = ['|', '-'] then some stripped
  else if mark = ['|'] then some (if stripped = [] then [] else stripped ++ ['\n'])
  else if mark = ['|', '+'] then some text
  else none

/-- The depth and the text of a block, from its mark and the lines below it, each with its newline.
-/
def read? (cs : List Char) : Option (Nat × List Char) :=
  match cs.splitOn '\n' with
  | [] => none
  | mark :: below => do
    let depth ← depth? below.dropLast
    let said ← below.dropLast.mapM (says? depth)
    let text ← chomped? mark (unlines said)
    return (depth, text)

/-! ## Lines of a text -/

/-- Lines that are written one below the other are told apart again. -/
theorem splitOn_unlines : ∀ {ls : List (List Char)}, (∀ l ∈ ls, '\n' ∉ l) →
    (unlines ls).splitOn '\n' = ls ++ [[]]
  | [], _ => rfl
  | l :: ls, h => by
    have ih := splitOn_unlines fun m hm => h m (List.mem_cons_of_mem l hm)
    rw [unlines_cons]
    induction l with
    | nil => simp [List.splitOn_cons_eq_if_modifyHead, ih]
    | cons c l hl =>
      have hline : '\n' ∉ c :: l := h _ List.mem_cons_self
      rw [List.mem_cons, not_or] at hline
      have hrest := hl fun m hm => by
        rcases List.mem_cons.mp hm with rfl | hm
        · exact hline.2
        · exact h m (List.mem_cons_of_mem _ hm)
      rw [List.cons_append, List.splitOn_cons_eq_if_modifyHead,
        if_neg (by simpa using fun heq => hline.1 heq.symm), hrest]
      rfl

/-- The first line that is not empty begins behind the newlines in front. -/
theorem head?_find?_splitOn (s : List Char) :
    ((s.splitOn '\n').find? fun l => !l.isEmpty).bind List.head? =
      (s.dropWhile (· = '\n')).head? := by
  induction s with
  | nil => rfl
  | cons c s ih =>
    rw [List.splitOn_cons_eq_if_modifyHead]
    by_cases hfeed : c = '\n'
    · subst hfeed
      simpa using ih
    · obtain ⟨l, ls, hls⟩ := List.exists_cons_of_ne_nil (List.splitOn_ne_nil '\n' s)
      simp [hfeed, hls]

/-! ## Written blocks -/

variable {s : List Char}

/-- The lines below the mark of a written block. -/
def rows (s : List Char) (level : Nat) : List (List Char) :=
  ((body s).splitOn '\n').map (fun l => if l.isEmpty then [] else indent level ++ l)
    ++ List.replicate (closing s - 1) []

theorem written_eq_unlines (s : List Char) (level : Nat) :
    Block.written s level = unlines (blockMark (closing s) :: rows s level) := by
  have hlines := Block.unlines_blockLines [] s level
  rw [List.nil_append] at hlines
  exact hlines.symm

theorem newline_notMem_blockMark (n : Nat) : '\n' ∉ blockMark n := by
  match n with
  | 0 | 1 | _ + 2 => simp [blockMark]

theorem newline_notMem_rows {level : Nat} {r : List Char} (h : r ∈ rows s level) : '\n' ∉ r := by
  rcases List.mem_append.mp h with hr | hr
  · obtain ⟨l, hl, rfl⟩ := List.mem_map.mp hr
    have hline := Block.not_mem_of_mem_splitOn hl
    split
    · simp
    · simp [indent, hline]
  · simp [List.eq_of_mem_replicate hr]

/-- The first character of a block that is no newline is no blank. -/
theorem head_dropWhile_body (h : isBlock s = true) :
    ∃ c, ((body s).dropWhile (· = '\n')).head? = some c ∧ c ≠ ' ' := by
  obtain ⟨w, hw, hbreak⟩ := Block.exists_word h
  have hword : w ≠ '\n' := by
    rintro rfl
    exact absurd hbreak (by decide)
  obtain ⟨c, cs, hcs⟩ : ∃ c cs, (body s).dropWhile (· = '\n') = c :: cs := by
    refine List.exists_cons_of_ne_nil fun hnil => ?_
    rw [List.dropWhile_eq_nil_iff] at hnil
    exact hword (by simpa using hnil w hw)
  have hhead : (s.dropWhile (· = '\n')).head? = some c := by
    conv_lhs => rw [← Block.body_append s, List.dropWhile_append, hcs]
    rfl
  refine ⟨c, by rw [hcs]; rfl, ?_⟩
  -- the first line that is not empty is looked at before a text is written as a block
  have hfind := head?_find?_splitOn s
  rw [hhead] at hfind
  obtain ⟨l, hl, hfirst⟩ := Option.bind_eq_some_iff.mp hfind
  simp only [isBlock, Bool.and_eq_true] at h
  have hstart := h.2
  rw [hl] at hstart
  simp only [hfirst, Bool.and_eq_true, bne_iff_ne, ne_eq, Option.some.injEq] at hstart
  exact hstart.1

/-- **A written block shows its depth.** -/
theorem depth?_rows (h : isBlock s = true) (level : Nat) :
    depth? (rows s level) = some (2 * level) := by
  obtain ⟨c, hc, hblank⟩ := head_dropWhile_body h
  rw [← head?_find?_splitOn, Option.bind_eq_some_iff] at hc
  obtain ⟨l, hl, hfirst⟩ := hc
  obtain ⟨cs, rfl⟩ := List.head?_eq_some_iff.mp hfirst
  have hsame : ((fun r : List Char => !r.isEmpty) ∘ fun l : List Char =>
      if l.isEmpty then [] else indent level ++ l) = fun l : List Char => !l.isEmpty := by
    funext l
    cases l <;> simp
  have hfind : (rows s level).find? (fun r => !r.isEmpty) = some (indent level ++ c :: cs) := by
    rw [rows, List.find?_append, List.find?_map, hsame, hl]
    rfl
  rw [depth?, hfind]
  exact congrArg some (Block.length_takeWhile_blanks (2 * level) hblank cs)

theorem says?_indented (level : Nat) (l : List Char) :
    says? (2 * level) (if l.isEmpty then [] else indent level ++ l) = some l := by
  cases l with
  | nil => rfl
  | cons c l =>
    have htake : (indent level ++ c :: l).take (2 * level) = blanks (2 * level) :=
      List.take_left' (by simp [indent])
    have hdrop : (indent level ++ c :: l).drop (2 * level) = c :: l :=
      List.drop_left' (by simp [indent])
    rw [if_neg (by simp), says?, if_neg (by simp), if_pos htake, hdrop]

/-- **The lines of a written block** say the lines of its text. -/
theorem mapM_says?_rows (s : List Char) (level : Nat) :
    (rows s level).mapM (says? (2 * level)) =
      some ((body s).splitOn '\n' ++ List.replicate (closing s - 1) []) := by
  have hlines : ∀ ls : List (List Char), (ls.map fun l =>
      if l.isEmpty then [] else indent level ++ l).mapM (says? (2 * level)) = some ls := by
    intro ls
    induction ls with
    | nil => rfl
    | cons l ls ih => rw [List.map_cons, List.mapM_cons, says?_indented, ih]; rfl
  have hblank : ∀ n, (List.replicate n []).mapM (says? (2 * level)) =
      some (List.replicate n []) := by
    intro n
    induction n with
    | zero => rfl
    | succ n ih => rw [List.replicate_succ, List.mapM_cons, ih]; rfl
  rw [rows, List.mapM_append, hlines, hblank]
  rfl

theorem unlines_replicate (n : Nat) : unlines (List.replicate n []) = List.replicate n '\n' := by
  induction n with
  | zero => rfl
  | succ n ih => rw [List.replicate_succ, unlines_cons, ih]; rfl

theorem rdropWhile_body (s : List Char) (n : Nat) :
    (body s ++ List.replicate n '\n').rdropWhile (· = '\n') = body s := by
  induction n with
  | zero =>
    rw [List.replicate_zero, List.append_nil, List.rdropWhile_eq_self_iff]
    intro hne hlast
    have hfeed : (body s).getLast hne = '\n' := by simpa using hlast
    exact Block.getLast?_body s (by rw [List.getLast?_eq_some_getLast hne, hfeed])
  | succ n ih =>
    rw [List.replicate_succ', ← List.append_assoc, List.rdropWhile_concat_pos _ _ _ (by simp), ih]

/-- **The newlines at the end** are those that the mark of the block keeps. -/
theorem chomped?_closed (hne : body s ≠ []) :
    chomped? (blockMark (closing s)) (body s ++ '\n' :: List.replicate (closing s - 1) '\n') =
      some s := by
  have happend := Block.body_append s
  have hstripped : (body s ++ '\n' :: List.replicate (closing s - 1) '\n').rdropWhile (· = '\n') =
      body s := by
    rw [← List.replicate_succ]
    exact rdropWhile_body s _
  unfold chomped?
  rw [hstripped]
  match hclosing : closing s with
  | 0 =>
    rw [hclosing] at happend
    simpa [blockMark] using happend
  | 1 =>
    rw [hclosing] at happend
    simpa [blockMark, hne] using happend
  | n + 2 =>
    rw [hclosing, List.replicate_succ] at happend
    simpa [blockMark] using happend

/-- **A written block** is read as its text, and as deep as its level. -/
theorem read?_written (h : isBlock s = true) (level : Nat) :
    read? (Block.written s level) = some (2 * level, s) := by
  have hlines : ∀ l ∈ blockMark (closing s) :: rows s level, '\n' ∉ l := by
    intro l hl
    rcases List.mem_cons.mp hl with rfl | hl
    · exact newline_notMem_blockMark _
    · exact newline_notMem_rows hl
  have htext : unlines ((body s).splitOn '\n' ++ List.replicate (closing s - 1) []) =
      body s ++ '\n' :: List.replicate (closing s - 1) '\n' := by
    rw [unlines_append, Block.unlines_splitOn, unlines_replicate, List.append_assoc]
    rfl
  obtain ⟨w, hw, -⟩ := Block.exists_word h
  rw [read?, written_eq_unlines, splitOn_unlines hlines, List.cons_append]
  simp only [List.dropLast_concat, depth?_rows h, mapM_says?_rows, htext,
    chomped?_closed (List.ne_nil_of_mem hw), Option.bind_eq_bind, Option.bind_some]
  rfl

/-- **Literal blocks are invertible.** Behind whatever stands in front of it, a block that is
written at a level is read by the rules of literal blocks as the text that was written, and the
depth that its lines show is two blanks for each level. -/
theorem read?_blockLines (h : isBlock s = true) (front : List Char) (level : Nat) :
    ∃ text, unlines (blockLines front s level) = front ++ text ∧
      read? text = some (2 * level, s) :=
  ⟨Block.written s level, Block.unlines_blockLines front s level, read?_written h level⟩

/-- A text that begins with empty lines, has lines of blanks and with a tab in front, and ends with
three newlines. -/
def spacious : List Char :=
  "\n\nfirst\n   \n\tdeeper\n\n\n".toList

/-- It is written with its empty lines empty and all of its newlines kept, and so it is read. -/
theorem read?_blockLines_spacious : isBlock spacious = true ∧
    unlines (blockLines "k: ".toList spacious 1) =
      "k: |+\n\n\n  first\n     \n  \tdeeper\n\n\n".toList ∧
    read? "|+\n\n\n  first\n     \n  \tdeeper\n\n\n".toList = some (2, spacious) := by
  have hblock : isBlock spacious = true := by decide
  have hwritten : unlines (blockLines "k: ".toList spacious 1) =
      "k: |+\n\n\n  first\n     \n  \tdeeper\n\n\n".toList := by decide
  obtain ⟨text, htext, hread⟩ := read?_blockLines hblock "k: ".toList 1
  have hcut : "k: ".toList ++ text = "k: ".toList ++
      "|+\n\n\n  first\n     \n  \tdeeper\n\n\n".toList := htext.symm.trans hwritten
  rw [List.append_cancel_left hcut] at hread
  exact ⟨hblock, hwritten, hread⟩

end OntologyCompiler.Yaml.Literal
