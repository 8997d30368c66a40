import Mathlib.Data.List.TakeWhile
import OntologyCompiler.Proofs.Yaml.Cursor
import OntologyCompiler.Proofs.Yaml.Gap
import OntologyCompiler.Yaml.Block

/-!
# Reading a literal block

A literal block is read line by line. Its lines are those that were written, without the blanks in
front of them; the mark says how many line ends close the text.

* `rowsOf`: a text cut behind each of its line ends.
* `rows_shown`: the lines of a block are those of the text that was written.
* `text_keep`, `text_snoc`: what the lines say.
* `read_written`: a literal block.
-/

namespace OntologyCompiler.Yaml.Block

/-! ## Lines of a text -/

/-- What a line says with its line end. -/
def Row.chars (r : Row) : List Char :=
  r.text ++ r.ending

/-- A text cut behind each line end. -/
def rowsOf : List Char → List Row
  | [] => []
  | c :: cs =>
    if isBreak c then ⟨[], [c]⟩ :: rowsOf cs
    else
      match rowsOf cs with
      | [] => [⟨[c], []⟩]
      | r :: rs => ⟨c :: r.text, r.ending⟩ :: rs

theorem rowsOf_break {c : Char} (h : isBreak c = true) (cs : List Char) :
    rowsOf (c :: cs) = ⟨[], [c]⟩ :: rowsOf cs := by
  rw [rowsOf, if_pos h]

/-- Up to a line end there is one line. -/
theorem rowsOf_line {b : Char} (hb : isBreak b = true) (cs : List Char) : ∀ {t : List Char},
    (∀ c ∈ t, isBreak c = false) → rowsOf (t ++ b :: cs) = ⟨t, [b]⟩ :: rowsOf cs
  | [], _ => rowsOf_break hb cs
  | c :: t, h => by
    have ht : ∀ d ∈ t, isBreak d = false := fun d hd => h d (List.mem_cons_of_mem _ hd)
    rw [List.cons_append, rowsOf, if_neg (by simp [h c List.mem_cons_self]), rowsOf_line hb cs ht]

/-- No character of a text is lost in its lines. -/
theorem flatMap_rowsOf : ∀ cs : List Char, (rowsOf cs).flatMap Row.chars = cs
  | [] => rfl
  | c :: cs => by
    have ih := flatMap_rowsOf cs
    rw [rowsOf]
    split
    · simp [Row.chars, ih]
    · split <;> rename_i heq <;> rw [heq] at ih
      · simp [Row.chars, ← ih]
      · simpa [Row.chars] using ih

theorem rowsOf_append (cs : List Char) : ∀ l : List Char,
    rowsOf (l ++ '\n' :: cs) = rowsOf (l ++ ['\n']) ++ rowsOf cs
  | [] => rfl
  | c :: l => by
    have ih := rowsOf_append cs l
    rw [List.cons_append, List.cons_append, rowsOf, rowsOf, ih]
    split
    · rfl
    · cases heq : rowsOf (l ++ ['\n']) with
      | nil =>
        have hchars := flatMap_rowsOf (l ++ ['\n'])
        rw [heq] at hchars
        simp at hchars
      | cons r rs => rfl

/-! ## Lines of a block -/

/-- A line that has separators at its end alone. -/
structure IsClosed (l : List Char) : Prop where
  line : '\n' ∉ l
  ends : l.IsChain fun a b => isSeparator a = true → isBreak b = true

/-- Such a line is words and then separators. -/
theorem IsClosed.exists_split : ∀ {l : List Char}, IsClosed l →
    ∃ t seps, l = t ++ seps ∧ (∀ c ∈ t, isBreak c = false) ∧ ∀ c ∈ seps, isBreak c = true
  | [], _ => ⟨[], [], rfl, by simp, by simp⟩
  | c :: l, h => by
    have hline : '\n' ∉ l := fun hmem => h.line (List.mem_cons_of_mem _ hmem)
    obtain ⟨t, seps, rfl, ht, hseps⟩ := IsClosed.exists_split ⟨hline, h.ends.tail⟩
    by_cases hc : isBreak c = true
    · -- behind a separator there are only separators
      have hsep : isSeparator c = true := by
        refine (isBreak_iff.mp hc).resolve_left ?_
        rintro rfl
        exact h.line List.mem_cons_self
      rcases t with _ | ⟨d, t⟩
      · refine ⟨[], c :: seps, rfl, by simp, fun d hd => ?_⟩
        exact (List.mem_cons.mp hd).elim (fun heq => heq ▸ hc) (hseps d)
      · have hd := (List.isChain_cons_cons.mp h.ends).1 hsep
        rw [ht d List.mem_cons_self] at hd
        exact absurd hd (by decide)
    · refine ⟨c :: t, seps, rfl, fun d hd => ?_, hseps⟩
      exact (List.mem_cons.mp hd).elim (fun heq => by simpa [heq] using hc) (ht d)

/-- A line of a block that is indented by `depth`. -/
def shown (depth : Nat) (l : List Char) : List Char :=
  (if l.isEmpty then [] else blanks depth ++ l) ++ ['\n']

theorem takeWhile_blanks (depth : Nat) (cs : List Char) :
    (blanks depth ++ cs).takeWhile (· = ' ') = blanks depth ++ cs.takeWhile (· = ' ') := by
  rw [List.takeWhile_append_of_pos]
  intro c hc
  simp [List.eq_of_mem_replicate hc]

theorem ne_blank_of_break {c : Char} (h : isBreak c = true) : c ≠ ' ' := by
  rintro rfl
  exact absurd h (by decide)

section Step

variable {depth line pad : Nat} {cs : List Char} {c : Char} {rest : List Char}

/-- At a line end there is a blank line. -/
theorem rows_of_break (hpad : min depth (cs.takeWhile (· = ' ')).length = pad)
    (hdrop : cs.drop pad = c :: rest) (hbreak : isBreak c = true) :
    rows depth line cs =
      (rows depth (line + 1) rest).map fun r => (⟨[], [c]⟩ :: r.1, r.2) := by
  rw [rows]
  simp only [hpad]
  split <;> rename_i heq <;> rw [hpad, hdrop] at heq <;> cases heq
  rw [if_pos hbreak]
  cases rows depth (line + 1) rest <;> rfl

/-- A line that is indented less is not read. -/
theorem rows_of_low (hpad : min depth (cs.takeWhile (· = ' ')).length = pad)
    (hdrop : cs.drop pad = c :: rest) (hbreak : isBreak c = false) (htab : c ≠ '\t')
    (hlow : pad < depth) : rows depth line cs = some ([], Cursor.landing (c :: rest) line pad) := by
  rw [rows]
  simp only [hpad]
  split <;> rename_i heq <;> rw [hpad, hdrop] at heq <;> cases heq
  rw [if_neg (by simp [hbreak]), if_pos hlow, if_neg htab]
  rfl

/-- A line with text is read up to its end. -/
theorem rows_of_text (hpad : min depth (cs.takeWhile (· = ' ')).length = depth)
    (hdrop : cs.drop depth = c :: rest) (hbreak : isBreak c = false) {b : Char} {below : List Char}
    (hbelow : rest.dropWhile (!isBreak ·) = b :: below) :
    rows depth line cs = (rows depth (line + 1) below).map fun r =>
      (⟨(c :: rest).takeWhile (!isBreak ·), [b]⟩ :: r.1, r.2) := by
  rw [rows]
  simp only [hpad]
  split <;> rename_i heq <;> rw [hpad, hdrop] at heq <;> cases heq
  rw [if_neg (by simp [hbreak]), if_neg (Nat.lt_irrefl depth)]
  split <;> rename_i heq <;> rw [hbelow] at heq <;> cases heq
  cases rows depth (line + 1) below <;> rfl

end Step

/-- What stands behind blanks. -/
theorem drop_blanks (depth : Nat) (cs : List Char) : (blanks depth ++ cs).drop depth = cs := by
  rw [List.drop_append_of_le_length (by simp [blanks]), blanks, List.drop_replicate]
  simp

theorem dropWhile_blanks (depth : Nat) {c : Char} (h : c ≠ ' ') (cs : List Char) :
    (blanks depth ++ c :: cs).dropWhile (· = ' ') = c :: cs := by
  rw [List.dropWhile_append_of_pos (fun d hd => by simp [List.eq_of_mem_replicate hd]),
    List.dropWhile_cons_of_neg (by simp [h])]

theorem length_takeWhile_blanks (depth : Nat) {c : Char} (h : c ≠ ' ') (cs : List Char) :
    ((blanks depth ++ c :: cs).takeWhile (· = ' ')).length = depth := by
  rw [takeWhile_blanks, List.takeWhile_cons_of_neg (by simp [h])]
  simp [blanks]

theorem rows_break {c : Char} (h : isBreak c = true) (depth line : Nat) (rest : List Char) :
    rows depth line (c :: rest) =
      (rows depth (line + 1) rest).map fun r => (⟨[], [c]⟩ :: r.1, r.2) := by
  have hpad : min depth ((c :: rest).takeWhile (· = ' ')).length = 0 := by
    rw [List.takeWhile_cons_of_neg (by simpa using ne_blank_of_break h)]
    simp
  exact rows_of_break hpad rfl h

/-- So there are at several line ends. -/
theorem rows_breaks (depth : Nat) (rest : List Char) : ∀ {bs : List Char} (line : Nat),
    (∀ c ∈ bs, isBreak c = true) → ∃ line', rows depth line (bs ++ rest) =
      (rows depth line' rest).map fun r => (rowsOf bs ++ r.1, r.2)
  | [], line, _ => ⟨line, by cases h : rows depth line rest <;> simp [rowsOf, h]⟩
  | c :: bs, line, h => by
    have hc := h c List.mem_cons_self
    obtain ⟨line', ih⟩ := rows_breaks depth rest (line + 1)
      fun d hd => h d (List.mem_cons_of_mem c hd)
    refine ⟨line', ?_⟩
    rw [List.cons_append, rows_break hc, ih, rowsOf_break hc, Option.map_map]
    rfl

/-- Behind the indentation of a block stands its text, or a line end. -/
theorem rows_indented {b : Char} (hb : isBreak b = true) (depth line : Nat) (rest : List Char)
    {t : List Char} (ht : ∀ c ∈ t, isBreak c = false) :
    rows depth line (blanks depth ++ (t ++ b :: rest)) =
      (rows depth (line + 1) rest).map fun r => (⟨t, [b]⟩ :: r.1, r.2) := by
  have hpad :
      min depth ((blanks depth ++ (t ++ b :: rest)).takeWhile (· = ' ')).length = depth := by
    rw [takeWhile_blanks, List.length_append, blanks, List.length_replicate]
    omega
  have hdrop := drop_blanks depth (t ++ b :: rest)
  rcases t with _ | ⟨c, t⟩
  · exact rows_of_break hpad hdrop hb
  rw [List.cons_append] at hpad hdrop ⊢
  have htext : (c :: (t ++ b :: rest)).takeWhile (!isBreak ·) = c :: t := by
    rw [← List.cons_append, List.takeWhile_append_of_pos (by simpa using ht),
      List.takeWhile_cons_of_neg (by simp [hb]), List.append_nil]
  have hbelow : (t ++ b :: rest).dropWhile (!isBreak ·) = b :: rest := by
    rw [List.dropWhile_append_of_pos
      (fun e he => by simpa using ht e (List.mem_cons_of_mem _ he)),
      List.dropWhile_cons_of_neg (by simp [hb])]
  rw [rows_of_text hpad hdrop (ht c List.mem_cons_self) hbelow, htext]

/-- A written line is read as it was. -/
theorem rows_line {l : List Char} (h : IsClosed l) (depth line : Nat) (rest : List Char) :
    ∃ line', rows depth line (shown depth l ++ rest) =
      (rows depth line' rest).map fun r => (rowsOf (l ++ ['\n']) ++ r.1, r.2) := by
  have hfeed : isBreak '\n' = true := by decide
  obtain ⟨t, seps, rfl, ht, hseps⟩ := h.exists_split
  by_cases hempty : (t ++ seps).isEmpty = true
  · obtain ⟨rfl, rfl⟩ := List.append_eq_nil_iff.mp (List.isEmpty_iff.mp hempty)
    refine ⟨line + 1, ?_⟩
    rw [shown, if_pos hempty, List.nil_append, List.singleton_append,
      rows_break hfeed]
    rfl
  rw [shown, if_neg hempty]
  -- the first line end belongs to the words, the others stand alone
  obtain ⟨b, bs, hbs⟩ : ∃ b bs, seps ++ ['\n'] = b :: bs :=
    List.exists_cons_of_ne_nil (by simp)
  have hall : ∀ c ∈ b :: bs, isBreak c = true := by
    intro c hc
    rw [← hbs, List.mem_append, List.mem_singleton] at hc
    exact hc.elim (hseps c) fun heq => heq ▸ hfeed
  have hb := hall b List.mem_cons_self
  obtain ⟨line', hrows⟩ := rows_breaks depth rest (line + 1)
    fun c hc => hall c (List.mem_cons_of_mem b hc)
  refine ⟨line', ?_⟩
  have hform : blanks depth ++ (t ++ seps) ++ ['\n'] ++ rest =
      blanks depth ++ (t ++ b :: (bs ++ rest)) := by
    rw [← List.cons_append, ← hbs]
    simp
  rw [hform, rows_indented hb depth line _ ht, hrows, List.append_assoc, hbs, rowsOf_line hb bs ht,
    Option.map_map]
  rfl

/-- **The lines of a block** are those of the text that was written. -/
theorem rows_shown (depth : Nat) (rest : List Char) : ∀ {ls : List (List Char)} (line : Nat),
    (∀ l ∈ ls, IsClosed l) → ∃ line', rows depth line (ls.flatMap (shown depth) ++ rest) =
      (rows depth line' rest).map fun r => (rowsOf (unlines ls) ++ r.1, r.2)
  | [], line, _ => ⟨line, by cases h : rows depth line rest <;> simp [rowsOf, unlines, h]⟩
  | l :: ls, line, h => by
    obtain ⟨line₁, hline⟩ := rows_line (h l List.mem_cons_self) depth line
      (ls.flatMap (shown depth) ++ rest)
    obtain ⟨line₂, ih⟩ := rows_shown depth rest line₁ fun m hm => h m (List.mem_cons_of_mem l hm)
    refine ⟨line₂, ?_⟩
    have hrows : rowsOf (unlines (l :: ls)) = rowsOf (l ++ ['\n']) ++ rowsOf (unlines ls) := by
      rw [← rowsOf_append]
      simp [unlines]
    rw [List.flatMap_cons, List.append_assoc, hline, ih, hrows, Option.map_map]
    cases rows depth line₂ rest <;> simp

/-- A block ends before a line that is indented less, and with the document. -/
theorem rows_landing {depth count : Nat} {t : List Char} (h : Standing count t)
    (hlow : t ≠ [] → count < depth) (line : Nat) :
    rows depth line (blanks count ++ t) = some ([], Cursor.landing t line count) := by
  cases h with
  | ended =>
    rw [show blanks 0 ++ [] = ([] : List Char) from rfl, rows]
    split <;> rename_i heq
    · simp [Cursor.landing]
    · simp at heq
  | @entry _ c rest hspacing hbreak hcomment hmark =>
    have hcount := hlow (by simp)
    have hblank : c ≠ ' ' := fun h => by simp [h, isSpacing] at hspacing
    have htab : c ≠ '\t' := fun h => by simp [h, isSpacing] at hspacing
    have hpad : min depth ((blanks count ++ c :: rest).takeWhile (· = ' ')).length = count := by
      rw [length_takeWhile_blanks count hblank, Nat.min_eq_right hcount.le]
    exact rows_of_low hpad (drop_blanks count _) hbreak htab hcount

/-! ## How deep a block is indented -/

theorem deepest_break {c : Char} (h : isBreak c = true) {rest : List Char} {depth : Nat}
    (hrest : deepest rest = some depth) {pad : Nat} (hpad : pad ≤ depth) :
    deepest (blanks pad ++ c :: rest) = some depth := by
  have hblank := ne_blank_of_break h
  rw [deepest]
  split <;> rename_i heq <;> rw [dropWhile_blanks pad hblank] at heq <;> cases heq
  rw [if_pos h, hrest, length_takeWhile_blanks pad hblank]
  simp [hpad]

theorem deepest_breaks {rest : List Char} {depth : Nat} (hrest : deepest rest = some depth) :
    ∀ {bs : List Char}, (∀ c ∈ bs, isBreak c = true) → deepest (bs ++ rest) = some depth
  | [], _ => hrest
  | c :: bs, h => by
    have ih := deepest_breaks hrest fun d hd => h d (List.mem_cons_of_mem c hd)
    exact deepest_break (h c List.mem_cons_self) ih (Nat.zero_le depth)

/-- The first line with text says how deep the block is indented. -/
theorem deepest_text {c : Char} (hbreak : isBreak c = false) (hspacing : isSpacing c = false)
    (depth : Nat) (rest : List Char) : deepest (blanks depth ++ c :: rest) = some depth := by
  have hblank : c ≠ ' ' := fun h => by simp [h, isSpacing] at hspacing
  have htab : c ≠ '\t' := fun h => by simp [h, isSpacing] at hspacing
  rw [deepest]
  split <;> rename_i heq <;> rw [dropWhile_blanks depth hblank] at heq <;> cases heq
  rw [if_neg (by simp [hbreak]), if_neg htab, length_takeWhile_blanks depth hblank]

/-- **A written block** shows how deep it is indented. -/
theorem deepest_shown (depth : Nat) (rest : List Char) : ∀ {ls : List (List Char)},
    (∀ l ∈ ls, IsClosed l) →
    (∃ c, ((unlines ls).dropWhile isBreak).head? = some c ∧ isSpacing c = false) →
    deepest (ls.flatMap (shown depth) ++ rest) = some depth
  | [], _, h => by simp [unlines] at h
  | l :: ls, hclosed, ⟨c, hc, hspacing⟩ => by
    have hfeed : isBreak '\n' = true := by decide
    obtain ⟨t, seps, rfl, ht, hseps⟩ := (hclosed l List.mem_cons_self).exists_split
    have hform : unlines ((t ++ seps) :: ls) = t ++ (seps ++ '\n' :: unlines ls) := by
      simp [unlines]
    rw [hform] at hc
    rcases t with _ | ⟨d, t⟩
    · -- a blank line
      have hall : ∀ e ∈ seps ++ ['\n'], isBreak e = true := by
        intro e he
        rw [List.mem_append, List.mem_singleton] at he
        exact he.elim (hseps e) fun heq => heq ▸ hfeed
      rw [List.nil_append, ← List.singleton_append, ← List.append_assoc,
        List.dropWhile_append_of_pos hall] at hc
      have ih := deepest_shown depth rest (fun m hm => hclosed m (List.mem_cons_of_mem _ hm))
        ⟨c, hc, hspacing⟩
      rw [List.flatMap_cons, List.append_assoc, List.nil_append, shown]
      rcases seps with _ | ⟨b, seps⟩
      · exact deepest_break hfeed ih (Nat.zero_le depth)
      · have hbelow : deepest ((seps ++ ['\n']) ++ (ls.flatMap (shown depth) ++ rest)) =
            some depth := deepest_breaks ih fun e he => hall e (List.mem_cons_of_mem b he)
        rw [List.append_assoc] at hbelow
        rw [if_neg (by simp), List.append_assoc, List.append_assoc, List.cons_append]
        exact deepest_break (hseps b List.mem_cons_self) hbelow le_rfl
    · have hd := ht d List.mem_cons_self
      rw [List.cons_append, List.dropWhile_cons_of_neg (by simp [hd])] at hc
      cases hc
      rw [List.flatMap_cons, shown, if_neg (by simp), List.cons_append, List.append_assoc,
        List.append_assoc, List.append_assoc, List.cons_append]
      exact deepest_text hd hspacing depth _

/-! ## What the lines say -/

/-- Lines that are kept with all their line ends say what they were cut from. -/
theorem text_keep : ∀ (last : Option Row) (more : List Char) (rs : List Row),
    text false .keep last more rs =
      (last.map Row.ending).getD [] ++ more ++ rs.flatMap Row.chars
  | last, more, [] => by simp [text, Chomping.apply]
  | last, more, r :: rs => by
    rw [text]
    split
    · rename_i hempty
      rw [text_keep last (more ++ r.ending) rs]
      simp [Row.chars, List.isEmpty_iff.mp hempty]
    · rw [text_keep (some r) [] rs]
      simp [Row.chars, joint]

/-- The end of the last line with text counts as the mark says. -/
theorem text_snoc (chomping : Chomping) {r : Row} (hr : r.text ≠ []) :
    ∀ (last : Option Row) (more : List Char) (rs : List Row),
    text false chomping last more (rs ++ [r]) =
      (last.map Row.ending).getD [] ++ more ++ rs.flatMap Row.chars ++ r.text ++
        chomping.apply r.ending []
  | last, more, [] => by simp [text, joint, hr]
  | last, more, q :: rs => by
    rw [List.cons_append, text]
    split
    · rename_i hempty
      rw [text_snoc chomping hr last (more ++ q.ending) rs]
      simp [Row.chars, List.isEmpty_iff.mp hempty]
    · rw [text_snoc chomping hr (some q) [] rs]
      simp [Row.chars, joint]

/-! ## A text and its line ends -/

theorem unlines_splitOn (s : List Char) : unlines (s.splitOn '\n') = s ++ ['\n'] := by
  induction s with
  | nil => rfl
  | cons c s ih =>
    rw [List.splitOn_cons_eq_if_modifyHead]
    split
    · rename_i heq
      rw [beq_iff_eq] at heq
      simpa [unlines, heq] using ih
    · obtain ⟨l, ls, hls⟩ := List.exists_cons_of_ne_nil (List.splitOn_ne_nil '\n' s)
      rw [hls] at ih ⊢
      simpa [unlines] using ih

theorem not_mem_of_mem_splitOn {s : List Char} :
    ∀ {l : List Char}, l ∈ s.splitOn '\n' → '\n' ∉ l := by
  induction s with
  | nil => simp
  | cons c s ih =>
    intro l hl
    rw [List.splitOn_cons_eq_if_modifyHead] at hl
    split at hl
    · exact (List.mem_cons.mp hl).elim (fun heq => by simp [heq]) ih
    · rename_i hne
      obtain ⟨m, ls, hls⟩ := List.exists_cons_of_ne_nil (List.splitOn_ne_nil '\n' s)
      rw [hls, List.modifyHead_cons, List.mem_cons] at hl
      rcases hl with rfl | hl
      · have hm := ih (hls ▸ List.mem_cons_self)
        rw [beq_iff_eq] at hne
        exact fun hmem => (List.mem_cons.mp hmem).elim (fun heq => hne heq.symm) hm
      · exact ih (hls ▸ List.mem_cons_of_mem m hl)

/-- A text is its body and the line ends that close it. -/
theorem body_append (s : List Char) : body s ++ List.replicate (closing s) '\n' = s := by
  have hsplit : s.reverse.takeWhile (· == '\n') ++ s.reverse.dropWhile (· == '\n') = s.reverse :=
    List.takeWhile_append_dropWhile
  have hends : s.reverse.takeWhile (· == '\n') =
      List.replicate (s.reverse.takeWhile (· == '\n')).length '\n' :=
    List.eq_replicate_of_mem fun c hc => by simpa using List.mem_takeWhile_imp hc
  have hlength : closing s = (s.reverse.takeWhile (· == '\n')).length := by
    have := congrArg List.length hsplit
    rw [List.length_append, List.length_reverse] at this
    rw [closing, body, List.length_reverse]
    omega
  rw [hlength, body, ← List.reverse_replicate, ← hends, ← List.reverse_append, hsplit,
    List.reverse_reverse]

theorem getLast?_body (s : List Char) : (body s).getLast? ≠ some '\n' := by
  intro h
  have hhead := List.head?_dropWhile_not (· == '\n') s.reverse
  rw [body, List.getLast?_reverse] at h
  rw [h] at hhead
  simp at hhead

/-- The last line of a text that does not end with a line end has words. -/
theorem rowsOf_snoc : ∀ {s : List Char}, s ≠ [] → (∀ c, s.getLast? = some c → isBreak c = false) →
    ∃ rs t, rowsOf (s ++ ['\n']) = rs ++ [⟨t, ['\n']⟩] ∧ t ≠ []
  | [], h, _ => absurd rfl h
  | [c], _, hlast => by
    have hline : ∀ d ∈ [c], isBreak d = false := by simpa using hlast c rfl
    exact ⟨[], [c], rowsOf_line (by decide) [] hline, by simp⟩
  | c :: d :: s, _, hlast => by
    obtain ⟨rs, t, hrows, hne⟩ := rowsOf_snoc (List.cons_ne_nil d s)
      (by simpa [List.getLast?_cons_cons] using hlast)
    rw [List.cons_append, rowsOf, hrows]
    split
    · exact ⟨⟨[], [c]⟩ :: rs, t, rfl, hne⟩
    · rcases rs with _ | ⟨r, rs⟩
      · exact ⟨[], c :: t, rfl, by simp⟩
      · exact ⟨⟨c :: r.text, r.ending⟩ :: rs, t, rfl, hne⟩

/-! ## Written blocks -/

/-- A literal block behind its front, up to its last line end. -/
def written (s : List Char) (level : Nat) : List Char :=
  blockMark (closing s) ++ '\n' :: (((body s).splitOn '\n').flatMap (shown (2 * level))
    ++ List.replicate (closing s - 1) '\n')

theorem unlines_blockLines (front s : List Char) (level : Nat) :
    unlines (blockLines front s level) = front ++ written s level := by
  have hshown : ∀ ls : List (List Char),
      unlines (ls.map fun l => if l.isEmpty then [] else indent level ++ l) =
        ls.flatMap (shown (2 * level)) := by
    intro ls
    rw [unlines, List.flatMap_map]
    rfl
  have hblank : ∀ n, unlines (List.replicate n []) = List.replicate n '\n' := by
    intro n
    induction n with
    | zero => rfl
    | succ n ih => rw [List.replicate_succ, List.replicate_succ, ← ih]; rfl
  have happend : ∀ ls ms, unlines (ls ++ ms) = unlines ls ++ unlines ms := fun ls ms =>
    List.flatMap_append
  rw [blockLines, happend, hblank, ← List.singleton_append, happend, hshown]
  simp [written, unlines]

/-- The mark of a block says how its text is closed. -/
def chompingOf : Nat → Chomping
  | 0 => .strip
  | 1 => .clip
  | _ => .keep

theorem header_blockMark (n : Nat) (cs : List Char) :
    header ((blockMark n).drop 1 ++ '\n' :: cs) = (⟨chompingOf n, none⟩, '\n' :: cs) := by
  match n with
  | 0 | 1 | _ + 2 => rfl

theorem lineRest?_line (cs : List Char) : lineRest? ('\n' :: cs) = some cs := rfl

/-- A block has a character that ends no line. -/
theorem exists_word {s : List Char} (h : isBlock s = true) : ∃ c ∈ body s, isBreak c = false := by
  have hword : s.all Text.isBlank = false := by
    simp only [isBlock, Bool.and_eq_true, Bool.not_eq_true'] at h
    exact h.1.2
  obtain ⟨c, hc, hblank⟩ := List.all_eq_false.mp hword
  have hbreak : isBreak c = false := by
    rw [Bool.eq_false_iff]
    intro hbreak
    simp only [isBreak, Bool.or_eq_true, decide_eq_true_eq] at hbreak
    rcases hbreak with (rfl | hn) | hn
    · exact hblank (by decide)
    · exact hblank (by simp [Text.isBlank, Text.within, Text.blankRanges, hn])
    · exact hblank (by simp [Text.isBlank, Text.within, Text.blankRanges, hn])
  refine ⟨c, ?_, hbreak⟩
  rw [← body_append s, List.mem_append] at hc
  refine hc.resolve_right fun hends => ?_
  rw [List.eq_of_mem_replicate hends] at hbreak
  exact absurd hbreak (by decide)

variable {s : List Char}

/-- The lines of a legible block have separators at their end alone. -/
theorem isClosed_of_mem (h : BlockLegible s) {l : List Char} (hl : l ∈ (body s).splitOn '\n') :
    IsClosed l := by
  refine ⟨not_mem_of_mem_splitOn hl, ?_⟩
  have hbody : (body s ++ ['\n']).IsChain fun a b => isSeparator a = true → isBreak b = true := by
    refine List.isChain_append.mpr ⟨?_, List.isChain_singleton _, ?_⟩
    · exact List.IsChain.infix h.ends ⟨[], List.replicate (closing s) '\n', by simp [body_append]⟩
    · simp [isBreak]
  have hinfix : l ++ ['\n'] <:+: body s ++ ['\n'] := by
    rw [← unlines_splitOn (body s), unlines, List.flatMap_def]
    exact List.infix_of_mem_flatten (List.mem_map_of_mem hl)
  have hline : (l ++ ['\n']).IsChain fun a b => isSeparator a = true → isBreak b = true :=
    List.IsChain.infix hbody hinfix
  exact List.IsChain.infix hline ⟨[], ['\n'], rfl⟩

theorem exists_shown (h : BlockLegible s) (hblock : isBlock s = true) :
    ∃ c, ((unlines ((body s).splitOn '\n')).dropWhile isBreak).head? = some c ∧
      isSpacing c = false := by
  obtain ⟨d, hd, hbreak⟩ := exists_word hblock
  have hne : (body s).dropWhile isBreak ≠ [] := by
    intro hnil
    rw [List.dropWhile_eq_nil_iff] at hnil
    rw [hnil d hd] at hbreak
    exact absurd hbreak (by decide)
  obtain ⟨c, cs, hcs⟩ := List.exists_cons_of_ne_nil hne
  have hdrop : ∀ more, (body s ++ more).dropWhile isBreak = c :: cs ++ more := by
    intro more
    rw [List.dropWhile_append, hcs]
    rfl
  refine ⟨c, by rw [unlines_splitOn, hdrop]; rfl, h.shown c ?_⟩
  rw [← body_append s, hdrop]
  rfl

/-- **The lines of a written block** say its text. -/
theorem text_written (h : BlockLegible s) (hblock : isBlock s = true) :
    text false (chompingOf (closing s)) none []
      (rowsOf (body s ++ ['\n'] ++ List.replicate (closing s - 1) '\n')) = s := by
  have happend := body_append s
  obtain ⟨d, hd, -⟩ := exists_word hblock
  have hbody : body s ≠ [] := List.ne_nil_of_mem hd
  by_cases hmany : 2 ≤ closing s
  · obtain ⟨n, hn⟩ : ∃ n, closing s = n + 2 := ⟨closing s - 2, by omega⟩
    rw [hn, show chompingOf (n + 2) = .keep from rfl, text_keep, flatMap_rowsOf]
    rw [hn, List.replicate_succ] at happend
    simpa using happend
  have hlast : ∀ c, (body s).getLast? = some c → isBreak c = false := by
    intro c hc
    refine isBreak_eq_false_iff.mpr ⟨?_, ?_⟩
    · rintro rfl
      exact getLast?_body s hc
    · exact Bool.eq_false_iff.mpr fun hsep => hmany (h.last c hc hsep)
  obtain ⟨rs, t, hrows, hne⟩ := rowsOf_snoc hbody hlast
  have hchars : rs.flatMap Row.chars ++ t = body s := by
    have hall := flatMap_rowsOf (body s ++ ['\n'])
    rw [hrows, List.flatMap_append, List.flatMap_singleton, Row.chars, ← List.append_assoc] at hall
    exact List.append_cancel_right hall
  have hnone : closing s - 1 = 0 := by omega
  rw [hnone, List.replicate_zero, List.append_nil, hrows, text_snoc _ (by exact hne)]
  rcases Nat.eq_zero_or_pos (closing s) with hzero | hpos
  · rw [hzero] at happend ⊢
    simpa [chompingOf, Chomping.apply, hchars] using happend
  · have hone : closing s = 1 := by omega
    rw [hone] at happend ⊢
    simpa [chompingOf, Chomping.apply, hchars] using happend

/-- **A literal block** is read as it was before it was written. -/
theorem read_written (h : BlockLegible s) (hblock : isBlock s = true) {floor level count : Nat}
    (hlevel : 0 < level) (hfloor : floor ≤ 2 * level) {t : List Char} (ht : Standing count t)
    (hlow : t ≠ [] → count < 2 * level) (line column : Nat) (fresh : Bool) :
    ∃ line', Block.read false floor
        ⟨written s level ++ (blanks count ++ t), line, column, fresh, 0⟩ =
      some (String.ofList s, Cursor.landing t line' count) := by
  have hclosed : ∀ l ∈ (body s).splitOn '\n', IsClosed l := fun l => isClosed_of_mem h
  have hends : ∀ c ∈ List.replicate (closing s - 1) '\n', isBreak c = true := by
    intro c hc
    rw [List.eq_of_mem_replicate hc]
    decide
  obtain ⟨line₁, hlines⟩ := rows_shown (2 * level)
    (List.replicate (closing s - 1) '\n' ++ (blanks count ++ t)) (line + 1) hclosed
  obtain ⟨line₂, hclosing⟩ := rows_breaks (2 * level) (blanks count ++ t) line₁ hends
  have hrows : rowsOf (body s ++ ['\n']) ++ rowsOf (List.replicate (closing s - 1) '\n') =
      rowsOf (body s ++ ['\n'] ++ List.replicate (closing s - 1) '\n') := by
    rw [← rowsOf_append]
    simp
  rw [hclosing, rows_landing ht hlow, unlines_splitOn, Option.map_some, Option.map_some,
    List.append_nil, hrows] at hlines
  have hdepth := deepest_shown (2 * level)
    (List.replicate (closing s - 1) '\n' ++ (blanks count ++ t)) hclosed (exists_shown h hblock)
  have hmark : (written s level ++ (blanks count ++ t)).drop 1 =
      (blockMark (closing s)).drop 1 ++ '\n' :: (((body s).splitOn '\n').flatMap
        (shown (2 * level)) ++ (List.replicate (closing s - 1) '\n' ++ (blanks count ++ t))) := by
    rw [written, List.append_assoc, List.drop_append_of_le_length]
    · simp
    · match closing s with
      | 0 | 1 | _ + 2 => simp [blockMark]
  refine ⟨line₂, ?_⟩
  have hmax : max (2 * level) (max floor 1) = 2 * level := by omega
  simp only [Block.read, hmark, header_blockMark, lineRest?_line, hdepth, hmax, hlines,
    text_written h hblock, Option.map_eq_map, Option.map_some, Option.bind_eq_bind,
    Option.bind_some, pure]

end OntologyCompiler.Yaml.Block
