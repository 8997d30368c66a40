import Mathlib.Data.List.Chain
import OntologyCompiler.Proofs.Yaml.Legible
import OntologyCompiler.Yaml.Quoted

/-!
# Gaps that are kept

Blanks and line ends within a text are folded when it is read. They come back as they were written
if they are blanks alone or separators alone, and if no mark of documents stands behind them.

* `Uniform`: gaps of blanks alone or of separators alone.
* `folded_uniform`: a uniform gap is kept as it is.
* `isDocumentMark_append`: what stands behind the end of a word does not make it a mark.
-/

namespace OntologyCompiler.Yaml

theorem isBreak_iff {c : Char} : isBreak c = true ↔ c = '\n' ∨ isSeparator c = true := by
  simp [isBreak, isSeparator, or_assoc]

theorem isBreak_eq_false_iff {c : Char} :
    isBreak c = false ↔ c ≠ '\n' ∧ isSeparator c = false := by
  rw [Bool.eq_false_iff, Ne, isBreak_iff, not_or, Bool.not_eq_true]

/-- A gap of blanks alone or of separators alone. -/
def Uniform (gap : List Char) : Prop :=
  (∀ c ∈ gap, c = ' ') ∨ ∀ c ∈ gap, isSeparator c = true

theorem uniform_nil : Uniform [] := Or.inl fun _ h => absurd h List.not_mem_nil

/-- A uniform gap is kept as it is. -/
theorem Gap.folded_uniform {gap : List Char} (h : Uniform gap) : Gap.folded gap = gap := by
  rcases h with hblank | hsep
  · refine Gap.folded_of_inline (List.filter_eq_nil_iff.mpr fun c hc => ?_)
    rw [hblank c hc]
    decide
  · have hfilter : gap.filter isBreak = gap :=
      List.filter_eq_self.mpr fun c hc => isBreak_iff.mpr (Or.inr (hsep c hc))
    have hfeed : ∀ rest, gap ≠ '\n' :: rest := by
      rintro rest rfl
      exact absurd (hsep '\n' List.mem_cons_self) (by decide)
    unfold Gap.folded
    rw [hfilter]
    split
    · rfl
    · exact absurd rfl (hfeed _)
    · exact absurd rfl (hfeed _)
    · rfl

theorem Uniform.reverse {gap : List Char} (h : Uniform gap) : Uniform gap.reverse := by
  simpa [Uniform] using h

/-- A gap stays uniform as long as its neighbours stand apart. -/
theorem Uniform.cons {gap : List Char} {c : Char} (h : Uniform gap)
    (hc : c = ' ' ∨ isSeparator c = true) (hapart : ∀ a, gap.head? = some a → Apart a c) :
    Uniform (c :: gap) := by
  rcases gap with _ | ⟨a, gap⟩
  · rcases hc with rfl | hc
    · exact Or.inl (by simp)
    · exact Or.inr (by simpa using hc)
  have ha := hapart a rfl
  rcases hc with rfl | hc
  · have hnot : ¬ isSeparator a = true := fun hs => ha.1 ⟨hs, rfl⟩
    have hblank := h.resolve_right fun hall => hnot (hall a List.mem_cons_self)
    exact Or.inl fun d hd => (List.mem_cons.mp hd).elim id (hblank d)
  · have hnot : ¬ a = ' ' := fun hs => ha.2 ⟨hs, hc⟩
    have hsep := h.resolve_left fun hall => hnot (hall a List.mem_cons_self)
    exact Or.inr fun d hd => (List.mem_cons.mp hd).elim (fun heq => heq ▸ hc) (hsep d)

/-- So it does with the next character of a text that stands apart from it. -/
theorem Uniform.extend {gap s : List Char} {c : Char} (h : Uniform gap)
    (hapart : (gap.head?.toList ++ c :: s).IsChain Apart) (hc : c = ' ' ∨ isSeparator c = true) :
    Uniform (c :: gap) :=
  h.cons hc fun a ha => by
    rw [ha] at hapart
    exact (List.isChain_cons_cons.mp hapart).1

/-! ## Marks of documents -/

theorem isCut_append (cs : List Char) {ds : List Char} (h : isCut (cs ++ ds) = false) :
    isCut ds = false := by
  induction cs with
  | nil => exact h
  | cons c cs ih =>
    simp only [List.cons_append, isCut, Bool.or_eq_false_iff] at h
    exact ih h.2

/-- Behind a separator no mark of documents stands. -/
theorem isDocumentMark_of_isCut {c : Char} {cs : List Char} (h : isCut (c :: cs) = false)
    (hc : isSeparator c = true) : isDocumentMark cs = false := by
  simp only [isCut, hc, Bool.true_and, Bool.or_eq_false_iff] at h
  exact h.1

theorem isCut_of_line : ∀ {cs : List Char}, (∀ c ∈ cs, isSeparator c = false) → isCut cs = false
  | [], _ => rfl
  | c :: cs, h => by
    rw [isCut, h c List.mem_cons_self, isCut_of_line fun d hd => h d (List.mem_cons_of_mem c hd)]
    rfl

/-- Whether a text starts with three of a character and a gap. -/
def opensMark (m : Char) : List Char → Bool
  | a :: b :: c :: rest => a = m && b = m && c = m && opensGap rest
  | _ => false

theorem opensDocument_eq : ∀ cs : List Char, opensDocument cs = opensMark '-' cs
  | [] | [_] | [_, _] => by simp [opensDocument, opensMark]
  | a :: b :: c :: rest => by
    by_cases h : a = '-' ∧ b = '-' ∧ c = '-'
    · obtain ⟨rfl, rfl, rfl⟩ := h
      rfl
    · unfold opensDocument
      split <;> simp_all [opensMark]

theorem closesDocument_eq : ∀ cs : List Char, closesDocument cs = opensMark '.' cs
  | [] | [_] | [_, _] => by simp [closesDocument, opensMark]
  | a :: b :: c :: rest => by
    by_cases h : a = '.' ∧ b = '.' ∧ c = '.'
    · obtain ⟨rfl, rfl, rfl⟩ := h
      rfl
    · unfold closesDocument
      split <;> simp_all [opensMark]

theorem isDocumentMark_eq (cs : List Char) :
    isDocumentMark cs = (opensMark '-' cs || opensMark '.' cs) := by
  rw [isDocumentMark, opensDocument_eq, closesDocument_eq]

theorem opensMark_of_ne {m c : Char} (hc : c ≠ m) (rest : List Char) :
    opensMark m (c :: rest) = false := by
  unfold opensMark
  split <;> simp_all

/-- What stands behind another character does not matter. -/
theorem opensMark_append {m d : Char} (hd : d ≠ m) : ∀ cs rest : List Char,
    opensMark m (cs ++ d :: rest) = opensMark m (cs ++ [d])
  | [], rest => by simp [opensMark_of_ne hd]
  | [a], rest => by rcases rest with _ | ⟨b, _⟩ <;> simp [opensMark, hd]
  | [a, b], rest => by simp [opensMark, hd]
  | a :: b :: c :: cs, rest => by
    have hgap : opensGap (cs ++ d :: rest) = opensGap (cs ++ [d]) := by cases cs <;> rfl
    simp [opensMark, hgap]

/-- The end of a line is a gap as the end of the text is one. -/
theorem opensMark_line {m : Char} (hm : '\n' ≠ m) : ∀ cs : List Char,
    opensMark m (cs ++ ['\n']) = opensMark m cs
  | [] | [_] => rfl
  | [_, _] => by simp [opensMark, hm]
  | a :: b :: c :: cs => by
    have hgap : opensGap (cs ++ ['\n']) = opensGap cs := by cases cs <;> rfl
    simp [opensMark, hgap]

theorem isDocumentMark_of_ne {c : Char} (hc : c ≠ '-') (hc' : c ≠ '.') (rest : List Char) :
    isDocumentMark (c :: rest) = false := by
  rw [isDocumentMark_eq, opensMark_of_ne hc, opensMark_of_ne hc']
  rfl

theorem isDocumentMark_append {d : Char} (hd : d ≠ '-') (hd' : d ≠ '.') (cs rest : List Char) :
    isDocumentMark (cs ++ d :: rest) = isDocumentMark (cs ++ [d]) := by
  rw [isDocumentMark_eq, isDocumentMark_eq, opensMark_append hd, opensMark_append hd']

theorem isDocumentMark_line (cs : List Char) :
    isDocumentMark (cs ++ ['\n']) = isDocumentMark cs := by
  rw [isDocumentMark_eq, isDocumentMark_eq, opensMark_line (by decide), opensMark_line (by decide)]

end OntologyCompiler.Yaml
