import OntologyCompiler.Proofs.Yaml.Gap

/-!
# Reading a text in double quotes

What the writer puts in quotes is read back: a character that it escapes comes back from its escape,
and a gap comes back if it is made of blanks alone or of separators alone.

* `double_break`, `double_blank`, `double_quote`, `double_escaped`, `double_plain`: what one
  character does.
* `double_written`: the rest of a text in quotes, after a gap.
* `read_written`: a text in quotes.
-/

namespace OntologyCompiler.Yaml

/-! ## Lines and columns -/

/-- Line and column behind characters. -/
def passed : Nat → Nat → List Char → Nat × Nat
  | line, column, [] => (line, column)
  | line, column, c :: cs =>
    if isBreak c then passed (line + 1) 0 cs else passed line (column + 1) cs

theorem passed_append : ∀ (line column : Nat) (cs ds : List Char),
    passed line column (cs ++ ds) =
      passed (passed line column cs).1 (passed line column cs).2 ds
  | _, _, [], _ => rfl
  | line, column, c :: cs, ds => by
    rw [List.cons_append, passed, passed]
    split
    · exact passed_append (line + 1) 0 cs ds
    · exact passed_append line (column + 1) cs ds

theorem passed_line (line : Nat) : ∀ {cs : List Char} (column : Nat),
    (∀ c ∈ cs, isBreak c = false) → passed line column cs = (line, column + cs.length)
  | [], column, _ => rfl
  | c :: cs, column, h => by
    have hrest : ∀ d ∈ cs, isBreak d = false := fun d hd => h d (List.mem_cons_of_mem _ hd)
    rw [passed, if_neg (by simp [h c List.mem_cons_self]), passed_line line (column + 1) hrest,
      List.length_cons]
    congr 1
    omega

/-! ## Quotes -/

namespace Quoted

/-- The characters that the writer escapes, and what it writes behind a backslash. -/
def letters : List (Char × Char) :=
  [('\\', '\\'), ('"', '"'), ('\n', 'n'), ('\r', 'r'), ('\t', 't')]

theorem escapedChar_cases (c : Char) :
    (∃ l, (c, l) ∈ letters ∧ escapedChar c = ['\\', l]) ∨
    (c ∉ letters.map Prod.fst ∧ escapedChar c = [c]) := by
  unfold escapedChar
  split
  · exact Or.inl ⟨'\\', by simp [letters, *]⟩
  split
  · exact Or.inl ⟨'"', by simp [letters, *]⟩
  split
  · exact Or.inl ⟨'n', by simp [letters, *]⟩
  split
  · exact Or.inl ⟨'r', by simp [letters, *]⟩
  split
  · exact Or.inl ⟨'t', by simp [letters, *]⟩
  · exact Or.inr ⟨by simp [letters, *], rfl⟩

theorem letters_line {c l : Char} (h : (c, l) ∈ letters) : isBreak l = false := by
  simp only [letters, List.mem_cons, Prod.mk.injEq, List.not_mem_nil, or_false] at h
  rcases h with ⟨-, rfl⟩ | ⟨-, rfl⟩ | ⟨-, rfl⟩ | ⟨-, rfl⟩ | ⟨-, rfl⟩ <;> decide

/-- Only a separator is written as the end of a line. -/
theorem escapedChar_line {c d : Char} (hc : isSeparator c = false) (hd : d ∈ escapedChar c) :
    isBreak d = false := by
  rcases escapedChar_cases c with ⟨l, hl, hesc⟩ | ⟨hplain, hesc⟩
  · rw [hesc] at hd
    simp only [List.mem_cons, List.not_mem_nil, or_false] at hd
    rcases hd with rfl | rfl
    · decide
    · exact letters_line hl
  · rw [hesc, List.mem_singleton] at hd
    have hfeed : c ≠ '\n' := by
      rintro rfl
      exact hplain (by decide)
    exact hd ▸ isBreak_eq_false_iff.mpr ⟨hfeed, hc⟩

/-- An escape is read as the character that it was written for. -/
theorem double_escape {c l : Char} (h : (c, l) ∈ letters) (line column : Nat) (rest : List Char) :
    double 0 .escape line column (l :: rest) =
      (double 0 (.text [] false) line (column + 1) rest).map fun r => (c :: r.1, r.2) := by
  simp only [letters, List.mem_cons, Prod.mk.injEq, List.not_mem_nil, or_false] at h
  rcases h with ⟨rfl, rfl⟩ | ⟨rfl, rfl⟩ | ⟨rfl, rfl⟩ | ⟨rfl, rfl⟩ | ⟨rfl, rfl⟩ <;>
    rw [double, if_neg (by decide)] <;>
    cases double 0 (.text [] false) line (column + 1) rest <;> rfl

/-- A mark of documents opens neither with a quote nor with a backslash. -/
theorem isCutOff_of_ne {c : Char} (hc : c ≠ '-') (hc' : c ≠ '.') (column : Nat) (rest : List Char) :
    isCutOff column (c :: rest) = false := by
  rw [isCutOff, ← isDocumentMark, isDocumentMark_of_ne hc hc', Bool.and_false]

/-! ## One character of a text -/

section Step

variable {gap : List Char} {c : Char} (line column : Nat) (cs : List Char)

theorem gapText_uniform (hgap : Uniform gap) : gapText gap false = gap.reverse :=
  Gap.folded_uniform hgap.reverse

/-- The end of a line goes to the gap. -/
theorem double_break (hc : isBreak c = true) : double 0 (.text gap false) line column (c :: cs) =
    double 0 (.text (c :: gap) false) (line + 1) 0 cs := by
  rw [double, if_pos hc]

/-- A blank goes to the gap. -/
theorem double_blank : double 0 (.text gap false) line column (' ' :: cs) =
    double 0 (.text (' ' :: gap) false) line (column + 1) cs := by
  rw [double, if_neg (by decide), if_pos (by decide)]

/-- A quote ends the text with the gap in front of it. -/
theorem double_quote (hgap : Uniform gap) : double 0 (.text gap false) line column ('"' :: cs) =
    some (gap.reverse, ⟨cs, line, column + 1, false, 0⟩) := by
  rw [double, if_neg (by decide), if_neg (by decide), isCutOff_of_ne (by decide) (by decide),
    if_neg (by decide), if_pos rfl, gapText_uniform hgap]

/-- An escape ends the gap. -/
theorem double_escaped (hgap : Uniform gap) {l : Char} (hl : (c, l) ∈ letters) :
    double 0 (.text gap false) line column ('\\' :: l :: cs) =
      (double 0 (.text [] false) line (column + 1 + 1) cs).map fun r =>
        (gap.reverse ++ c :: r.1, r.2) := by
  rw [double, if_neg (by decide), if_neg (by decide), isCutOff_of_ne (by decide) (by decide),
    if_neg (by decide), if_neg (by decide), if_pos rfl, double_escape hl, gapText_uniform hgap]
  cases double 0 (.text [] false) line (column + 1 + 1) cs <;> rfl

/-- A character that is written as it is and belongs to no gap ends the gap. -/
theorem double_plain (hgap : Uniform gap) (hplain : c ∉ letters.map Prod.fst)
    (hbreak : isBreak c = false) (hblank : c ≠ ' ')
    (hcut : column = 0 → isDocumentMark (c :: cs) = false) :
    double 0 (.text gap false) line column (c :: cs) =
      (double 0 (.text [] false) line (column + 1) cs).map fun r =>
        (gap.reverse ++ c :: r.1, r.2) := by
  simp only [letters, List.map_cons, List.map_nil, List.mem_cons, List.not_mem_nil, or_false,
    not_or] at hplain
  obtain ⟨hslash, hquote, -, -, htab⟩ := hplain
  have hspacing : isSpacing c = false := by simp [isSpacing, hblank, htab]
  have hcutoff : isCutOff column (c :: cs) = false := by
    rw [isCutOff, ← isDocumentMark]
    by_cases hcol : column = 0
    · simp [hcut hcol]
    · simp [hcol]
  rw [double, if_neg (by simp [hbreak]), if_neg (by simp [hspacing]), hcutoff, if_neg (by decide),
    if_neg hquote, if_neg hslash, gapText_uniform hgap]
  cases double 0 (.text [] false) line (column + 1) cs <;> rfl

end Step

/-! ## A written text -/

/-- The cursor behind the rest of a text in quotes. -/
def behind (rest : List Char) (line column : Nat) (s : List Char) : Cursor :=
  let place := passed line column (s.flatMap escapedChar ++ ['"'])
  ⟨rest, place.1, place.2, false, 0⟩

theorem behind_cons (rest : List Char) (line column : Nat) (c : Char) (s : List Char) :
    behind rest line column (c :: s) =
      let place := passed line column (escapedChar c)
      behind rest place.1 place.2 s := by
  rw [behind, List.flatMap_cons, List.append_assoc, passed_append]
  rfl

/-- **The rest of a written text** is read after a uniform gap. -/
theorem double_written (rest : List Char) : ∀ (s gap : List Char) (line column : Nat),
    Uniform gap → (gap.head?.toList ++ s).IsChain Apart →
    (column = 0 → isDocumentMark (s.flatMap escapedChar ++ ['"']) = false) →
    isCut (s.flatMap escapedChar ++ ['"']) = false →
    double 0 (.text gap false) line column (s.flatMap escapedChar ++ '"' :: rest) =
      some (gap.reverse ++ s, behind rest line column s)
  | [], gap, line, column, hgap, _, _, _ => by
    rw [List.flatMap_nil, List.nil_append, double_quote _ _ _ hgap, List.append_nil]
    simp [behind, passed, isBreak]
  | c :: s, gap, line, column, hgap, hapart, hstart, hcut => by
    have hafter : ([c] ++ s).IsChain Apart := (List.isChain_append.mp hapart).2.1
    rw [List.flatMap_cons, List.append_assoc] at hstart hcut ⊢
    have hcut' := isCut_append _ hcut
    rw [behind_cons]
    rcases escapedChar_cases c with ⟨l, hl, hesc⟩ | ⟨hplain, hesc⟩
    · have hline : isBreak '\\' = false ∧ isBreak l = false := ⟨by decide, letters_line hl⟩
      rw [hesc, List.cons_append, List.cons_append, List.nil_append, double_escaped _ _ _ hgap hl,
        double_written rest s [] line (column + 1 + 1) uniform_nil hafter.tail (by simp) hcut']
      simp [passed, hline]
    rw [hesc, List.singleton_append] at hstart hcut ⊢
    have hfeed : c ≠ '\n' := by
      rintro rfl
      exact hplain (by decide)
    by_cases hsep : isSeparator c = true
    · have hbreak : isBreak c = true := isBreak_iff.mpr (Or.inr hsep)
      rw [double_break _ _ _ hbreak,
        double_written rest s (c :: gap) (line + 1) 0 (hgap.extend hapart (Or.inr hsep)) hafter
          (fun _ => isDocumentMark_of_isCut hcut hsep) hcut']
      simp [passed, hbreak]
    have hbreak : isBreak c = false := isBreak_eq_false_iff.mpr ⟨hfeed, by simpa using hsep⟩
    by_cases hblank : c = ' '
    · subst hblank
      rw [double_blank, double_written rest s (' ' :: gap) line (column + 1)
        (hgap.extend hapart (Or.inl rfl)) hafter (by simp) hcut']
      simp [passed, isBreak]
    · have hmark : column = 0 →
          isDocumentMark (c :: (s.flatMap escapedChar ++ '"' :: rest)) = false := fun hcol => by
        rw [← List.cons_append, isDocumentMark_append (by decide) (by decide)]
        exact hstart hcol
      rw [double_plain _ _ _ hgap hplain hbreak hblank hmark,
        double_written rest s [] line (column + 1) uniform_nil hafter.tail (by simp) hcut']
      simp [passed, hbreak]

/-- **A text in quotes** is read as it was before it was written. -/
theorem read_written {s : List Char} (h : QuotedLegible s) (rest : List Char) (line column : Nat)
    (fresh : Bool) :
    Quoted.read ⟨'"' :: (s.flatMap escapedChar ++ '"' :: rest), line, column, fresh, 0⟩ =
      some (String.ofList s, behind rest line (column + 1) s) := by
  have hdouble := double_written rest s [] line (column + 1) uniform_nil (by simpa using h.apart)
    (by simp) h.whole
  simp [Quoted.read, hdouble]

/-- Behind a text without separators the line is the same. -/
theorem behind_line {s : List Char} (h : ∀ c ∈ s, isSeparator c = false) (rest : List Char)
    (line column : Nat) : behind rest line column s =
      ⟨rest, line, column + (s.flatMap escapedChar).length + 1, false, 0⟩ := by
  have hline : ∀ c ∈ s.flatMap escapedChar ++ ['"'], isBreak c = false := by
    intro c hc
    rcases List.mem_append.mp hc with hc | hc
    · obtain ⟨d, hd, hc⟩ := List.mem_flatMap.mp hc
      exact escapedChar_line (h d hd) hc
    · rw [List.mem_singleton.mp hc]
      decide
  rw [behind, passed_line line column hline, List.length_append]
  rfl

end Quoted
end OntologyCompiler.Yaml
