import OntologyCompiler.Proofs.Yaml.Cursor
import OntologyCompiler.Proofs.Yaml.Gap

/-!
# Reading a plain text on one line

A plain text without colons, comments and line ends is read as it stands, up to the colon behind a
key or up to the line below, if that is indented less than the text has to be.

* `tail_break`, `tail_blank`, `tail_kept`: what one character does.
* `tail_inner`: the characters of the text are kept, with the blanks between them.
* `read_key`, `read_value`: the text of a key, and one that is followed by a line end.
* `read_root`: a text that is the whole document, which may have separators within.
-/

namespace OntologyCompiler.Yaml.Plain

/-- A character that ends no plain text outside of brackets, and no line. -/
def isInner (c : Char) : Bool :=
  !isBreak c && c != '\t' && c != ':' && c != '#'

theorem isInner_iff {c : Char} : isInner c = true ↔
    isBreak c = false ∧ c ≠ '\t' ∧ c ≠ ':' ∧ c ≠ '#' := by
  simp [isInner, and_assoc]

theorem folded_blanks (count : Nat) : Gap.folded (blanks count).reverse = blanks count := by
  rw [blanks, List.reverse_replicate]
  refine Gap.folded_of_inline (List.filter_eq_nil_iff.mpr fun c hc => ?_)
  rw [List.eq_of_mem_replicate hc]
  decide

theorem not_any_isBreak_blanks (count : Nat) : (blanks count).any isBreak = false := by
  rw [List.any_eq_false]
  intro c hc
  rw [List.eq_of_mem_replicate hc]
  decide

/-- A character within a line does not end the text. -/
theorem ends_inner {c : Char} (h : isInner c = true) (floor count column : Nat)
    (rest : List Char) : ends false floor (blanks count) column (c :: rest) = false := by
  obtain ⟨-, -, hcolon, hcomment⟩ := isInner_iff.mp h
  simp [ends, hcolon, hcomment, not_any_isBreak_blanks]

/-! ## One character of a text -/

section Step

variable {floor : Nat} {gap : List Char} {c : Char} (line column : Nat) (cs : List Char)

/-- The end of a line goes to the gap. -/
theorem tail_break (hc : isBreak c = true) : tail 0 floor gap line column (c :: cs) =
    tail 0 floor (c :: gap) (line + 1) 0 cs := by
  rw [tail, if_pos hc]

/-- A blank goes to the gap. -/
theorem tail_blank : tail 0 floor gap line column (' ' :: cs) =
    tail 0 floor (' ' :: gap) line (column + 1) cs := by
  rw [tail, if_neg (by decide), if_pos (by decide), if_neg (by simp)]

/-- A character that belongs to no gap and does not end the text is kept, with the gap in front. -/
theorem tail_kept (hbreak : isBreak c = false) (hspacing : isSpacing c = false)
    (hends : ends false floor gap column (c :: cs) = false) :
    tail 0 floor gap line column (c :: cs) =
      (tail 0 floor [] line (column + 1) cs).map fun r =>
        (Gap.folded gap.reverse ++ c :: r.1, r.2) := by
  rw [tail, if_neg (by simp [hbreak]), if_neg (by simp [hspacing]),
    show decide (0 < 0) = false from rfl, hends, if_neg (by decide), if_neg (by simp)]
  cases tail 0 floor [] line (column + 1) cs <;> rfl

end Step

/-! ## A text on one line -/

/-- **The characters of the text are kept**, with the blanks between them. -/
theorem tail_inner (floor line : Nat) (rest : List Char) : ∀ {s : List Char} (count column : Nat),
    (∀ c ∈ s, isInner c = true) → s ≠ [] → s.getLast? ≠ some ' ' →
    tail 0 floor (blanks count) line column (s ++ rest) =
      (tail 0 floor [] line (column + s.length) rest).map fun r =>
        (blanks count ++ s ++ r.1, r.2)
  | [], _, _, _, hne, _ => absurd rfl hne
  | c :: s, count, column, hs, _, hlast => by
    have hc := hs c List.mem_cons_self
    have hs' : ∀ d ∈ s, isInner d = true := fun d hd => hs d (List.mem_cons_of_mem _ hd)
    obtain ⟨hbreak, htab, -, -⟩ := isInner_iff.mp hc
    have hlast' : s ≠ [] → s.getLast? ≠ some ' ' := by
      intro hne h
      obtain ⟨d, s, rfl⟩ := List.exists_cons_of_ne_nil hne
      exact hlast (by rw [List.getLast?_cons_cons]; exact h)
    have hcol : column + 1 + s.length = column + (c :: s).length := by
      rw [List.length_cons]
      omega
    rw [List.cons_append]
    by_cases hblank : c = ' '
    · -- a blank waits for the next character
      subst hblank
      have hne : s ≠ [] := by
        rintro rfl
        exact hlast rfl
      rw [tail_blank, ← blanks_succ,
        tail_inner floor line rest (count + 1) (column + 1) hs' hne (hlast' hne), hcol,
        ← blanks_append_cons]
    · have hspacing : isSpacing c = false := by simp [isSpacing, hblank, htab]
      rw [tail_kept _ _ _ hbreak hspacing (ends_inner hc _ _ _ _), folded_blanks]
      by_cases hne : s = []
      · subst hne
        rw [List.nil_append, List.length_singleton]
        cases tail 0 floor [] line (column + 1) rest <;> simp
      · have ih := tail_inner floor line rest 0 (column + 1) hs' hne (hlast' hne)
        rw [show blanks 0 = [] from rfl, hcol] at ih
        rw [ih]
        cases tail 0 floor [] line (column + (c :: s).length) rest <;> simp

/-- The text ends before the colon behind a key. -/
theorem tail_colon (floor line column : Nat) {t : List Char} (h : opensGap t = true) :
    tail 0 floor [] line column (':' :: t) = some ([], ⟨':' :: t, line, column, false, 0⟩) := by
  rw [tail, if_neg (by decide), if_neg (by decide), if_pos (by simp [ends, h])]
  rfl

theorem tail_blanks (floor line : Nat) (t : List Char) (hlow : ∀ c ∈ t.head?, isSpacing c = false) :
    ∀ (count column : Nat) (gap : List Char),
    tail 0 floor gap line column (blanks count ++ t) =
      tail 0 floor (blanks count ++ gap) line (column + count) t
  | 0, _, _ => rfl
  | count + 1, column, gap => by
    rw [blanks_succ, List.cons_append, tail_blank, tail_blanks floor line t hlow count,
      blanks_append_cons, blanks_succ]
    congr 1
    omega

/-- The text ends before a line that is indented less than it has to be, and with the document. -/
theorem tail_line {floor count : Nat} {t : List Char} (h : Standing count t)
    (hlow : t ≠ [] → count < floor) (line column : Nat) :
    tail 0 floor [] line column ('\n' :: (blanks count ++ t)) =
      some ([], Cursor.landing t (line + 1) count) := by
  rw [tail, if_pos (by decide)]
  cases h with
  | ended => simp [tail, blanks, Cursor.landing]; decide
  | @entry _ c rest hspacing hbreak hcomment hmark =>
    rw [tail_blanks _ _ _ (by simpa using hspacing), tail, if_neg (by simp [hbreak]),
      if_neg (by simp [hspacing])]
    have hgap : (blanks count ++ ['\n']).any isBreak = true := by simp [isBreak]
    have hends : ends (decide (0 < 0)) floor (blanks count ++ ['\n']) (0 + count) (c :: rest) =
        true := by
      have := hlow (by simp)
      simp [ends, hgap, this]
    rw [if_pos hends, hgap, Nat.zero_add]
    rfl

/-- A plain text on one line. -/
structure IsLine (s : List Char) : Prop where
  ne_nil : s ≠ []
  inner : ∀ c ∈ s, isInner c = true
  last : s.getLast? ≠ some ' '

/-- **The text of a key** is read up to its colon. -/
theorem read_key {s t : List Char} (hs : IsLine s) (ht : opensGap t = true)
    (floor line column : Nat) (fresh : Bool) (hstarts : starts false (s ++ ':' :: t) = true) :
    Plain.read floor ⟨s ++ ':' :: t, line, column, fresh, 0⟩ =
      some (String.ofList s, ⟨':' :: t, line, column + s.length, false, 0⟩) := by
  have htail := tail_inner floor line (':' :: t) 0 column hs.inner hs.ne_nil hs.last
  rw [tail_colon _ _ _ ht] at htail
  unfold Plain.read
  rw [if_neg (by simpa [Cursor.isEnclosed] using hstarts)]
  show (tail 0 floor [] line column (s ++ ':' :: t)).bind _ = _
  rw [show ([] : List Char) = blanks 0 from rfl, htail]
  simp [blanks]

/-- **A text that is followed by a line end** is read up to it. -/
theorem read_value {s t : List Char} {floor count : Nat} (hs : IsLine s) (h : Standing count t)
    (hlow : t ≠ [] → count < floor) (line column : Nat) (fresh : Bool)
    (hstarts : starts false (s ++ '\n' :: (blanks count ++ t)) = true) :
    Plain.read floor ⟨s ++ '\n' :: (blanks count ++ t), line, column, fresh, 0⟩ =
      some (String.ofList s, Cursor.landing t (line + 1) count) := by
  have htail := tail_inner floor line ('\n' :: (blanks count ++ t)) 0 column hs.inner hs.ne_nil
    hs.last
  rw [tail_line h hlow] at htail
  unfold Plain.read
  rw [if_neg (by simpa [Cursor.isEnclosed] using hstarts)]
  show (tail 0 floor [] line column (s ++ '\n' :: (blanks count ++ t))).bind _ = _
  rw [show ([] : List Char) = blanks 0 from rfl, htail]
  simp [blanks]

/-! ## A document that is a plain text -/

/-- A character that ends no plain text outside of brackets, be it the end of a line. -/
def isWithin (c : Char) : Bool :=
  c != '\n' && c != '\t' && c != ':' && c != '#'

theorem isWithin_iff {c : Char} : isWithin c = true ↔ c ≠ '\n' ∧ c ≠ '\t' ∧ c ≠ ':' ∧ c ≠ '#' := by
  simp [isWithin, and_assoc]

/-- A plain text of several lines that separators end. -/
structure IsParagraph (s : List Char) : Prop where
  ne_nil : s ≠ []
  within : ∀ c ∈ s, isWithin c = true
  blank : s.getLast? ≠ some ' '
  last : ∀ c, s.getLast? = some c → isSeparator c = false
  apart : s.IsChain Apart
  whole : isCut s = false

theorem IsParagraph.tail {c : Char} {s : List Char} (h : IsParagraph (c :: s)) (hne : s ≠ []) :
    IsParagraph s := by
  obtain ⟨d, s, rfl⟩ := List.exists_cons_of_ne_nil hne
  have hlast : (c :: d :: s).getLast? = (d :: s).getLast? := List.getLast?_cons_cons
  exact {
    ne_nil := hne
    within := fun e he => h.within e (List.mem_cons_of_mem _ he)
    blank := hlast ▸ h.blank
    last := hlast ▸ h.last
    apart := h.apart.tail
    whole := isCut_append [c] h.whole
  }

/-- A character within the document ends it nowhere but at a mark of documents. -/
theorem ends_within {c : Char} (h : isWithin c = true) {gap : List Char} {column : Nat}
    {rest : List Char}
    (hmark : gap.any isBreak = true → column = 0 → isDocumentMark (c :: rest) = false) :
    ends false 0 gap column (c :: rest) = false := by
  obtain ⟨-, -, hcolon, hcomment⟩ := isWithin_iff.mp h
  rw [ends, ← isDocumentMark]
  by_cases hany : gap.any isBreak = true
  · by_cases hcol : column = 0
    · simp [hcolon, hcomment, hmark hany hcol]
    · simp [hcolon, hcomment, hcol]
  · simp [hcolon, hcomment, hany]

/-- **The lines of the document are kept** behind a uniform gap. -/
theorem tail_paragraph : ∀ {s : List Char} (gap : List Char) (line column : Nat), IsParagraph s →
    Uniform gap → (gap.head?.toList ++ s).IsChain Apart →
    (gap.any isBreak = true → column = 0 → isDocumentMark s = false) →
    ∃ line', tail 0 0 gap line column (s ++ ['\n']) =
      some (gap.reverse ++ s, Cursor.landing [] line' 0)
  | [], _, _, _, h, _, _, _ => absurd rfl h.ne_nil
  | c :: s, gap, line, column, h, hgap, hapart, hstart => by
    have hwithin := h.within c List.mem_cons_self
    obtain ⟨hfeed, htab, -, -⟩ := isWithin_iff.mp hwithin
    have hafter : ([c] ++ s).IsChain Apart := (List.isChain_append.mp hapart).2.1
    -- a gap is never at the end
    have hmore : c = ' ' ∨ isSeparator c = true → s ≠ [] := by
      rintro hc rfl
      rcases hc with rfl | hc
      · exact h.blank rfl
      · rw [h.last c rfl] at hc
        exact absurd hc (by decide)
    rw [List.cons_append]
    by_cases hsep : isSeparator c = true
    · obtain ⟨line', ih⟩ := tail_paragraph (c :: gap) (line + 1) 0 (h.tail (hmore (Or.inr hsep)))
        (hgap.extend hapart (Or.inr hsep)) hafter fun _ _ => isDocumentMark_of_isCut h.whole hsep
      exact ⟨line', by rw [tail_break _ _ _ (isBreak_iff.mpr (Or.inr hsep)), ih]; simp⟩
    have hbreak : isBreak c = false := isBreak_eq_false_iff.mpr ⟨hfeed, by simpa using hsep⟩
    by_cases hblank : c = ' '
    · subst hblank
      obtain ⟨line', ih⟩ := tail_paragraph (' ' :: gap) line (column + 1)
        (h.tail (hmore (Or.inl rfl))) (hgap.extend hapart (Or.inl rfl)) hafter (by simp)
      exact ⟨line', by rw [tail_blank, ih]; simp⟩
    · have hspacing : isSpacing c = false := by simp [isSpacing, hblank, htab]
      have hends : ends false 0 gap column (c :: (s ++ ['\n'])) = false :=
        ends_within hwithin fun hany hcol => by
          rw [← List.cons_append, isDocumentMark_line]
          exact hstart hany hcol
      rw [tail_kept _ _ _ hbreak hspacing hends, Gap.folded_uniform hgap.reverse]
      rcases eq_or_ne s [] with rfl | hne
      · have hend : tail 0 0 [] line (column + 1) ['\n'] =
            some ([], Cursor.landing [] (line + 1) 0) :=
          tail_line Standing.ended (by simp) line (column + 1)
        exact ⟨line + 1, by rw [List.nil_append, hend]; rfl⟩
      · obtain ⟨line', ih⟩ := tail_paragraph [] line (column + 1) (h.tail hne) uniform_nil
          h.apart.tail (by simp)
        exact ⟨line', by rw [ih]; rfl⟩

/-- **A text that is the whole document** is read to its end. -/
theorem read_root {s : List Char} (h : IsParagraph s) (line column : Nat) (fresh : Bool)
    (hstarts : starts false (s ++ ['\n']) = true) :
    ∃ line', Plain.read 0 ⟨s ++ ['\n'], line, column, fresh, 0⟩ =
      some (String.ofList s, Cursor.landing [] line' 0) := by
  obtain ⟨line', htail⟩ := tail_paragraph [] line column h uniform_nil h.apart (by simp)
  refine ⟨line', ?_⟩
  unfold Plain.read
  rw [if_neg (by simpa [Cursor.isEnclosed] using hstarts)]
  show (tail 0 0 [] line column (s ++ ['\n'])).bind _ = _
  rw [htail]
  simp

end OntologyCompiler.Yaml.Plain
