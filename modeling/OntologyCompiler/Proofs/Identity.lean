import Mathlib.Data.List.TakeWhile
import OntologyCompiler.Identifier.Derive
import OntologyCompiler.Proofs.Letters

/-!
# The shape of derived identifiers

Whatever a name is written in, its operation identifier is made of small letters, digits and
underscores and has a letter or digit among them, and its stem is made of letters and digits and is
not empty. A name may leave something in one of the two and nothing in the other, as letters beyond
ASCII do whose lower case is in ASCII and whose capital is not; then the stem is that of the
identifier. Of letter case no more is used than what it does to ASCII.

* `lowerChars_ascii`: lower case of a text of ASCII.
* `identifierChars_self`: an operation identifier is the identifier of itself.
* `stemChars_ne_nil`: a letter or digit of an identifier is in its stem too.
* `Identity.derive_operationId`: a well-formed operation identifier is derived from itself.
* `Identity.derive_shape`: all that is derived, with a number or without, is well formed.
-/

namespace OntologyCompiler

namespace Text

/-! ## Texts that nothing is done to -/

theorem lowerFrom_ascii : ∀ (before : List Char) {cs : List Char},
    (∀ c ∈ cs, c.toNat < 128) → lowerFrom before cs = cs.map Char.toLower
  | _, [], _ => rfl
  | before, c :: cs, h => by
    obtain ⟨hc, hcs⟩ := List.forall_mem_cons.mp h
    have hsigma : c ≠ 'Σ' := by
      rintro rfl
      exact absurd hc (by decide)
    rw [lowerFrom, if_neg hsigma, lowerLetter_ascii hc, lowerFrom_ascii _ hcs]
    rfl

/-- **Lower case of ASCII** goes letter by letter. -/
theorem lowerChars_ascii {cs : List Char} (h : ∀ c ∈ cs, c.toNat < 128) :
    lowerChars cs = cs.map Char.toLower :=
  lowerFrom_ascii [] h

/-- What is shown of ASCII is not blank. -/
theorem isBlank_eq_false {c : Char} (hlow : 32 < c.toNat) (hhigh : c.toNat < 128) :
    isBlank c = false := by
  rw [← Bool.not_eq_true]
  simp [isBlank, within, blankRanges]
  omega

theorem dropWhile_of_forall {p : Char → Bool} {cs : List Char} (h : ∀ c ∈ cs, p c = false) :
    cs.dropWhile p = cs :=
  List.dropWhile_eq_self_iff.mpr fun hlength => by simp [h _ (List.getElem_mem hlength)]

/-- A text without blanks is stripped of nothing. -/
theorem stripChars_of_forall {cs : List Char} (h : ∀ c ∈ cs, isBlank c = false) :
    stripChars cs = cs := by
  have hback : ∀ c ∈ cs.reverse, isBlank c = false := fun c hc => h c (List.mem_reverse.mp hc)
  rw [stripChars, stripFront, dropWhile_of_forall h, stripBack, dropWhile_of_forall hback,
    List.reverse_reverse]

end Text

theorem collapseFrom_of_forall {p : Char → Bool} {mark : Char} : ∀ (inRun : Bool) {cs : List Char},
    (∀ c ∈ cs, p c = false) → collapseFrom p mark inRun cs = cs
  | _, [], _ => rfl
  | inRun, c :: cs, h => by
    obtain ⟨hc, hcs⟩ := List.forall_mem_cons.mp h
    rw [collapseFrom, if_neg (by simp [hc]), collapseFrom_of_forall false hcs]

/-! ## Operation identifiers -/

theorem isIdentifierChar_iff {c : Char} :
    isIdentifierChar c = true ↔ c.isLower = true ∨ c.isDigit = true ∨ c = '_' := by
  simp [isIdentifierChar, or_assoc]

/-- An identifier is in ASCII, has no gaps and no capitals. -/
theorem identifierChar_plain {c : Char} (h : isIdentifierChar c = true) :
    c.toNat < 128 ∧ isGap c = false ∧ c.toLower = c := by
  rw [isIdentifierChar_iff] at h
  have hnotGap : 48 ≤ c.toNat → c.toNat < 128 → isGap c = false := by
    intro hlow hhigh
    have hne : c ≠ '-' := by
      rintro rfl
      exact absurd hlow (by decide)
    simp [isGap, Text.isBlank_eq_false (by omega) hhigh, hne]
  rcases h with h | h | rfl
  · have hrange := Text.isLower_iff.mp h
    exact ⟨by omega, hnotGap (by omega) (by omega), Text.toLower_of_isLower h⟩
  · have hrange := Text.toNat_of_isDigit h
    exact ⟨by omega, hnotGap (by omega) (by omega), Text.toLower_of_isDigit h⟩
  · decide

theorem isBlank_of_isGap_eq_false {c : Char} (h : isGap c = false) : Text.isBlank c = false :=
  (Bool.or_eq_false_iff.mp h).1

/-- **An operation identifier** is the identifier of itself. -/
theorem identifierChars_self {cs : List Char} (h : ∀ c ∈ cs, isIdentifierChar c = true) :
    identifierChars cs = cs := by
  have hplain := fun c hc => identifierChar_plain (h c hc)
  have hlower : cs.map Char.toLower = cs :=
    (List.map_congr_left fun c hc => (hplain c hc).2.2).trans (List.map_id cs)
  unfold identifierChars collapse
  rw [Text.stripChars_of_forall fun c hc => isBlank_of_isGap_eq_false (hplain c hc).2.1,
    Text.lowerChars_ascii fun c hc => (hplain c hc).1, hlower,
    collapseFrom_of_forall false fun c hc => (hplain c hc).2.1, List.filter_eq_self.mpr h]

/-! ## Stems -/

/-- Cutting a text at some characters leaves all the others. -/
theorem flatten_splitOnP (p : Char → Bool) : ∀ cs : List Char,
    (cs.splitOnP p).flatten = cs.filter fun c => !p c
  | [] => rfl
  | c :: cs => by
    rw [List.splitOnP_cons_eq_if_modifyHead]
    have ih := flatten_splitOnP p cs
    cases hc : p c with
    | true => simp [hc, ih]
    | false =>
      cases hsplit : cs.splitOnP p with
      | nil => exact absurd hsplit (List.splitOnP_ne_nil p cs)
      | cons w ws =>
        rw [hsplit] at ih
        simpa [hc] using ih

/-- A letter or digit of a word is in the word with a capital, maybe as a capital. -/
theorem exists_mem_capitalised {w : List Char} {c : Char} (hc : c ∈ w) (hascii : c.toNat < 128)
    (halnum : c.isAlphanum = true) : ∃ d ∈ capitalised w, d.isAlphanum = true := by
  cases w with
  | nil => exact absurd hc List.not_mem_nil
  | cons e w =>
    rw [capitalised]
    rcases List.mem_cons.mp hc with rfl | hw
    · refine ⟨c.toUpper, ?_, Text.isAlphanum_toUpper halnum⟩
      rw [Text.capitalAscii_lower hascii]
      exact List.mem_cons_self
    · exact ⟨c, List.mem_append_right _ hw, halnum⟩

theorem isAlphanum_iff_of_isIdentifierChar {c : Char} (h : isIdentifierChar c = true) :
    c.isAlphanum = true ↔ c ≠ '_' := by
  constructor
  · rintro halnum rfl
    exact absurd halnum (by decide)
  · intro hne
    rcases isIdentifierChar_iff.mp h with h | h | h
    · simp [Char.isAlphanum, Text.isAlpha_eq, h]
    · simp [Char.isAlphanum, h]
    · exact absurd h hne

/-- **A letter or digit** of an identifier leaves something in its stem. -/
theorem stemChars_ne_nil {cs : List Char} (h : ∀ c ∈ cs, isIdentifierChar c = true)
    (halnum : ∃ c ∈ cs, c.isAlphanum = true) : stemChars cs ≠ [] := by
  obtain ⟨c, hc, halnum⟩ := halnum
  obtain ⟨hascii, hgap, -⟩ := identifierChar_plain (h c hc)
  have hunder : c ≠ '_' := (isAlphanum_iff_of_isIdentifierChar (h c hc)).mp halnum
  have hwords : c ∈ (words cs).flatten := by
    rw [words, List.flatten_filter_not_isEmpty, flatten_splitOnP]
    exact List.mem_filter.mpr ⟨hc, by simp [hgap, hunder]⟩
  obtain ⟨w, hw, hcw⟩ := List.mem_flatten.mp hwords
  obtain ⟨d, hd, hdalnum⟩ := exists_mem_capitalised hcw hascii halnum
  have hmem : d ∈ stemChars cs :=
    List.mem_filter.mpr ⟨List.mem_flatMap.mpr ⟨w, hw, hd⟩, hdalnum⟩
  exact List.ne_nil_of_mem hmem

/-! ## Both together -/

namespace Identity

/-- What identifiers look like. -/
structure IsWellFormed (i : Identity) : Prop where
  /-- The operation has small letters, digits and underscores. -/
  operation : ∀ c ∈ i.operationId.toList, c.isLower = true ∨ c.isDigit = true ∨ c = '_'
  /-- One of them at least is a letter or digit. -/
  operation_named : ∃ c ∈ i.operationId.toList, c.isAlphanum = true
  /-- The stem has letters and digits. -/
  stem : ∀ c ∈ i.stem.toList, c.isAlphanum = true
  stem_named : i.stem ≠ ""

variable {i : Identity}

theorem IsWellFormed.isIdentifierChar (h : i.IsWellFormed) :
    ∀ c ∈ i.operationId.toList, isIdentifierChar c = true :=
  fun c hc => isIdentifierChar_iff.mpr (h.operation c hc)

theorem isWellFormed_fallback : fallback.IsWellFormed where
  operation := by simp [fallback]
  operation_named := ⟨'a', by simp [fallback], rfl⟩
  stem := by simp [fallback]
  stem_named := by simp [fallback]

/-- **What is derived is well formed**, be it from the name, from what is left of it, or a fixed
one. -/
theorem isWellFormed_derive (name : String) : (derive name).IsWellFormed := by
  have hshape : ∀ c ∈ (identifierOf name).toList, OntologyCompiler.isIdentifierChar c = true := by
    rw [identifierOf, String.toList_ofList]
    exact identifierChars_shape
  have hstem : ∀ t : String, ∀ c ∈ (stemOf t).toList, c.isAlphanum = true := by
    intro t
    rw [stemOf, String.toList_ofList]
    exact stemChars_shape
  unfold derive
  dsimp only
  split
  · exact isWellFormed_fallback
  · rename_i hall
    have hnamed : ∃ c ∈ (identifierOf name).toList, c.isAlphanum = true := by
      obtain ⟨c, hc, hne⟩ : ∃ c ∈ (identifierOf name).toList, c ≠ '_' := by
        simpa using hall
      exact ⟨c, hc, (isAlphanum_iff_of_isIdentifierChar (hshape c hc)).mpr hne⟩
    have hoperation := fun c hc => isIdentifierChar_iff.mp (hshape c hc)
    split
    · refine ⟨hoperation, hnamed, hstem _, fun hempty => stemChars_ne_nil hshape hnamed ?_⟩
      rw [stemOf, ← String.toList_eq_nil_iff, String.toList_ofList] at hempty
      exact hempty
    · rename_i hne
      exact ⟨hoperation, hnamed, hstem _, fun hempty => hne (String.isEmpty_iff.mpr hempty)⟩

/-- **A number** keeps identifiers well formed. -/
theorem IsWellFormed.suffixed (h : i.IsWellFormed) (n : Nat) : (i.suffixed n).IsWellFormed := by
  have hdigit := Text.isDigit_toString n
  refine ⟨fun c hc => ?_, ?_, fun c hc => ?_, fun hempty => h.stem_named ?_⟩
  · rw [Identity.suffixed, String.toList_append, String.toList_append, List.mem_append,
      List.mem_append] at hc
    rcases hc with (hc | hc) | hc
    · exact h.operation c hc
    · exact .inr (.inr (by simpa using hc))
    · exact .inr (.inl (hdigit c hc))
  · obtain ⟨c, hc, halnum⟩ := h.operation_named
    refine ⟨c, ?_, halnum⟩
    rw [Identity.suffixed, String.toList_append, String.toList_append]
    exact List.mem_append_left _ (List.mem_append_left _ hc)
  · rw [Identity.suffixed, String.toList_append, List.mem_append] at hc
    rcases hc with hc | hc
    · exact h.stem c hc
    · simp [Char.isAlphanum, hdigit c hc]
  · rw [Identity.suffixed, ← String.toList_eq_nil_iff, String.toList_append,
      List.append_eq_nil_iff] at hempty
    exact String.toList_eq_nil_iff.mp hempty.1

/-- **A well-formed operation identifier** is derived from itself. -/
theorem derive_operationId (h : i.IsWellFormed) :
    (derive i.operationId).operationId = i.operationId := by
  have hself : identifierOf i.operationId = i.operationId := by
    rw [identifierOf, identifierChars_self h.isIdentifierChar, String.ofList_toList]
  have hnamed : ¬ (i.operationId.toList.all (· == '_') = true) := by
    obtain ⟨c, hc, halnum⟩ := h.operation_named
    intro hall
    have hunder : c = '_' := by simpa using List.all_eq_true.mp hall c hc
    exact (isAlphanum_iff_of_isIdentifierChar (h.isIdentifierChar c hc)).mp halnum hunder
  unfold derive
  dsimp only
  rw [hself, if_neg hnamed]
  split <;> rfl

/-- **Derived identifiers are well formed** for every name, and so they are with a number. Deriving
from an operation identifier gives it back. -/
theorem derive_shape (name : String) :
    (derive name).IsWellFormed ∧
      (derive (derive name).operationId).operationId = (derive name).operationId ∧
      ∀ n, ((derive name).suffixed n).IsWellFormed ∧
        (derive ((derive name).suffixed n).operationId).operationId =
          ((derive name).suffixed n).operationId := by
  have h := isWellFormed_derive name
  exact ⟨h, derive_operationId h, fun n => ⟨h.suffixed n, derive_operationId (h.suffixed n)⟩⟩

/-- The Kelvin sign has a small letter of ASCII and no capital there; a name of symbols has
neither. -/
example : derive "\u212A!" = ⟨"k", "K"⟩ ∧ derive "!!!" = ⟨"action", "Action"⟩ := by
  decide +kernel

end Identity
end OntologyCompiler
