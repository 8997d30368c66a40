import OntologyCompiler.Proofs.Double.Literal
import OntologyCompiler.Yaml.Core
import OntologyCompiler.Yaml.Quoting

/-!
# What written numbers stand for

A number that is written stands for itself: its digits are read as no word, and as the number that
they spell.

* `isNull_of_digit`, `truth?_of_digit`, `isBeyond_of_digit`: a text with a digit is none of the
  words.
* `whole?_written`: a number with a point or a power is no whole number.
* `value?_wholeDigits`, `value?_digits`: written numbers stand for themselves.
-/

namespace OntologyCompiler

open DecimalLiteral

/-! ## Numerals -/

namespace Text

theorem digitValue?_of_isDigit {c : Char} (h : c.isDigit = true) :
    digitValue? 10 c = some (c.toNat - 48) := by
  obtain ⟨hlow, hhigh⟩ := toNat_of_isDigit h
  have hrank : rank? c = some (c.toNat - 48) := by
    unfold rank?
    rw [if_pos ⟨hlow, hhigh⟩]
  have hlt : c.toNat - 48 < 10 := by omega
  simp [digitValue?, hrank, hlt]

theorem spelled?_digits : ∀ {cs : List Char} (n : Nat), AllDigits cs →
    spelled? 10 n cs = some (Nat.ofDigitChars 10 cs n)
  | [], n, _ => by simp [spelled?]
  | c :: cs, n, h => by
    have hrest : AllDigits cs := fun d hd => h d (List.mem_cons_of_mem _ hd)
    simp only [spelled?, digitValue?_of_isDigit (h c List.mem_cons_self), Option.bind_eq_bind,
      Option.bind_some, spelled?_digits _ hrest, Nat.ofDigitChars_cons, Nat.mul_comm n]
    rfl

/-- Digits are read as the number that they spell. -/
theorem numeral?_digits {cs : List Char} (hne : cs ≠ []) (h : AllDigits cs) :
    numeral? 10 cs = some (spelled cs) := by
  rw [numeral?, if_neg (by simpa using hne), spelled?_digits 0 h, spelled_eq]

theorem spelled?_eq_none {base : Nat} : ∀ {cs : List Char} (n : Nat),
    (∃ c ∈ cs, digitValue? base c = none) → spelled? base n cs = none
  | [], _, h => by simp at h
  | c :: cs, n, h => by
    cases hc : digitValue? base c with
    | none => simp [spelled?, hc]
    | some d =>
      obtain ⟨e, he, hnone⟩ := h
      have hrest : ∃ e ∈ cs, digitValue? base e = none := by
        rcases List.mem_cons.mp he with rfl | he
        · rw [hc] at hnone
          exact absurd hnone (by simp)
        · exact ⟨e, he, hnone⟩
      simp [spelled?, hc, spelled?_eq_none _ hrest]

theorem digitValue?_of_numeral? {base n : Nat} {cs : List Char} (h : numeral? base cs = some n) :
    cs ≠ [] ∧ ∀ c ∈ cs, (digitValue? base c).isSome = true := by
  unfold numeral? at h
  split at h
  · exact absurd h (by simp)
  · refine ⟨by simpa using ‹¬ cs.isEmpty = true›, fun c hc => ?_⟩
    by_contra hnone
    rw [spelled?_eq_none 0 ⟨c, hc, by simpa using hnone⟩] at h
    exact absurd h (by simp)

end Text

namespace Yaml.Core

open Text

/-- A numeral of digits has no mark of a base. -/
theorem magnitude?_digits {cs : List Char} (hne : cs ≠ []) (h : AllDigits cs) :
    magnitude? cs = some (spelled cs) := by
  have hdigit : ∀ c ds, cs = '0' :: c :: ds → c.isDigit = true := by
    rintro c ds rfl
    exact h c (by simp)
  unfold magnitude?
  split
  · exact absurd (hdigit _ _ rfl) (by decide)
  · exact absurd (hdigit _ _ rfl) (by decide)
  · exact absurd (hdigit _ _ rfl) (by decide)
  · exact numeral?_digits hne h

/-! ## Words -/

/-- A text of some words, none of which has a digit, has no digit. -/
theorem not_isDigit_of_mem {words : List String} {cs : List Char}
    (hwords : ∀ w ∈ words, w.toList.all (!Char.isDigit ·) = true) (h : String.ofList cs ∈ words) :
    ∀ c ∈ cs, c.isDigit = false := by
  have hall := hwords _ h
  rw [String.toList_ofList, List.all_eq_true] at hall
  exact fun c hc => by simpa using hall c hc

variable {cs : List Char}

theorem isNull_of_digit {c : Char} (hc : c ∈ cs) (h : c.isDigit = true) : isNull cs = false := by
  by_contra hnull
  rw [Bool.not_eq_false, isNull, List.contains_iff_mem] at hnull
  exact absurd (not_isDigit_of_mem (by decide) hnull c hc) (by simp [h])

theorem isBeyond_of_digit {c : Char} (hc : c ∈ cs) (h : c.isDigit = true) :
    isBeyond cs = false := by
  by_contra hbeyond
  rw [Bool.not_eq_false, isBeyond, List.contains_iff_mem] at hbeyond
  exact absurd (not_isDigit_of_mem (by decide) hbeyond c hc) (by simp [h])

theorem truth?_of_digit {c : Char} (hc : c ∈ cs) (h : c.isDigit = true) : truth? cs = none := by
  unfold truth?
  rw [List.lookup_eq_none_iff]
  intro p hp
  rw [bne_iff_ne]
  intro heq
  have hmem : String.ofList cs ∈ ["true", "True", "TRUE", "false", "False", "FALSE"] := by
    rw [heq]
    exact List.mem_map_of_mem (f := Prod.fst) hp
  exact absurd (not_isDigit_of_mem (by decide) hmem c hc) (by simp [h])

/-! ## Whole numbers -/

theorem toDigits_head (n : Nat) : ∃ c rest, Nat.toDigits 10 n = c :: rest ∧ c.isDigit = true := by
  obtain ⟨c, rest, hcons⟩ := List.exists_cons_of_ne_nil (Nat.toDigits_ne_nil (n := n) (b := 10))
  exact ⟨c, rest, hcons, allDigits_toDigits n c (by rw [hcons]; exact List.mem_cons_self)⟩

/-- A number above nine does not begin with zero. -/
theorem toDigits_not_padded {n : Nat} {d : Char} {ds : List Char} :
    Nat.toDigits 10 n ≠ '0' :: d :: ds := by
  induction n using Nat.strong_induction_on generalizing d ds with
  | _ n ih =>
    intro h
    rw [Nat.toDigits_eq_if (by decide)] at h
    split at h
    · exact absurd (List.cons.inj h).2 (by simp)
    · rcases hfront : Nat.toDigits 10 (n / 10) with _ | ⟨c, _ | ⟨e, front⟩⟩
      · exact Nat.toDigits_ne_nil hfront
      · -- a front of one digit is that digit, which is not zero
        rw [hfront] at h
        obtain ⟨rfl, -⟩ := List.cons.inj h
        have hvalue := spelled_toDigits (n / 10)
        rw [hfront] at hvalue
        have : spelled ['0'] = 0 := rfl
        omega
      · rw [hfront] at h
        obtain ⟨rfl, -⟩ := List.cons.inj h
        exact ih (n / 10) (by omega) hfront

theorem unsigned_sign (negative : Bool) {c : Char} {rest : List Char} (h : c.isDigit = true) :
    unsigned (sign negative ++ c :: rest) = c :: rest := by
  cases negative with
  | true => rfl
  | false =>
    simp only [sign, Bool.false_eq_true, if_false, List.nil_append]
    unfold unsigned
    split
    · rename_i heq
      rw [(List.cons.inj heq).1] at h
      exact absurd h (by decide)
    · rename_i heq
      rw [(List.cons.inj heq).1] at h
      exact absurd h (by decide)
    · rfl

/-- The whole number behind a sign. -/
theorem whole?_sign {negative : Bool} {c : Char} {rest : List Char} (h : c.isDigit = true)
    (hpadded : isPadded (sign negative ++ c :: rest) = false) :
    whole? (sign negative ++ c :: rest) =
      (magnitude? (c :: rest)).map fun n : Nat => if negative then -(n : Int) else (n : Int) := by
  unfold whole?
  rw [if_neg (by simp [hpadded])]
  cases negative with
  | true =>
    simp only [sign, if_true, List.singleton_append]
    cases magnitude? (c :: rest) <;> rfl
  | false =>
    have hunsigned : unsigned (c :: rest) = c :: rest := unsigned_sign false h
    simp only [sign, Bool.false_eq_true, if_false, List.nil_append]
    split
    · rename_i heq
      rw [(List.cons.inj heq).1] at h
      exact absurd h (by decide)
    · rw [hunsigned]
      cases magnitude? (c :: rest) <;> rfl

theorem wholeDigits_eq (n : Int) :
    Number.wholeDigits n = sign (decide (n < 0)) ++ Nat.toDigits 10 n.natAbs := by
  by_cases h : n < 0 <;> simp [Number.wholeDigits, sign, h]

/-- **A whole number that is written stands for itself.** -/
theorem value?_wholeDigits {n : Int} (h : Number.InRange n) :
    value? (Number.wholeDigits n) = some (.num (.whole n)) := by
  obtain ⟨c, rest, hcons, hc⟩ := toDigits_head n.natAbs
  have hmem : c ∈ Number.wholeDigits n := by rw [wholeDigits_eq, hcons]; simp
  have hpadded : isPadded (Number.wholeDigits n) = false := by
    unfold isPadded
    rw [wholeDigits_eq, hcons, unsigned_sign _ hc, ← hcons]
    split
    · exact absurd ‹_› toDigits_not_padded
    · rfl
  have hwhole : whole? (Number.wholeDigits n) = some n := by
    rw [wholeDigits_eq, hcons] at hpadded ⊢
    rw [whole?_sign hc hpadded, ← hcons,
      magnitude?_digits Nat.toDigits_ne_nil (allDigits_toDigits _), spelled_toDigits,
      Option.map_some, Option.some.injEq]
    simp only [decide_eq_true_eq]
    split <;> omega
  have hknown : IsKnown n := by
    obtain ⟨hlow, hhigh⟩ := h
    constructor <;> omega
  have hkept : (some n).filter (fun n => decide (IsKnown n)) = some n := by
    simp [Option.filter, hknown]
  unfold value?
  rw [truth?_of_digit hmem hc, hwhole, isNull_of_digit hmem hc, hkept]
  have hne : Number.wholeDigits n ≠ [] := List.ne_nil_of_mem hmem
  simp [hne, wholeValue?, h]

/-! ## Doubles -/

/-- Every character of a written decimal number is a digit or one of its marks. -/
theorem written_chars {cs : List Char} {d : Decimal} (h : Written cs d) :
    ∀ c ∈ cs, c.isDigit = true ∨ c ∈ ['.', 'e', '+', '-'] := by
  have hpointed : ∀ {fraction : List Char}, AllDigits fraction → ∀ c ∈ pointed fraction,
      c.isDigit = true ∨ c ∈ ['.', 'e', '+', '-'] := by
    intro fraction hf c hc
    unfold pointed at hc
    split at hc
    · exact absurd hc List.not_mem_nil
    · rcases List.mem_cons.mp hc with rfl | hc
      · exact Or.inr (by decide)
      · exact Or.inl (hf c hc)
  cases h with
  | @point whole fraction hw hwhole hf hfraction =>
    intro c hc
    rcases List.mem_append.mp hc with hc | hc
    · exact Or.inl (hwhole c hc)
    · rcases List.mem_cons.mp hc with rfl | hc
      · exact Or.inr (by decide)
      · exact Or.inl (hfraction c hc)
  | @power whole fraction ds hw hwhole hfraction negative hd hds =>
    intro c hc
    rcases List.mem_append.mp hc with hc | hc
    · rcases List.mem_append.mp hc with hc | hc
      · exact Or.inl (hwhole c hc)
      · exact hpointed hfraction c hc
    · rcases List.mem_cons.mp hc with rfl | hc
      · exact Or.inr (by decide)
      · rcases List.mem_cons.mp hc with rfl | hc
        · exact Or.inr (by cases negative <;> decide)
        · exact Or.inl (hds c hc)

/-- A written decimal number is not made of digits alone. -/
theorem written_mark {cs : List Char} {d : Decimal} (h : Written cs d) :
    ∃ c ∈ cs, c.isDigit = false ∧ digitValue? 10 c = none := by
  cases h with
  | point => exact ⟨'.', by simp, by decide, by decide⟩
  | power => exact ⟨'e', by simp, by decide, by decide⟩

section Written

variable {c : Char} {rest : List Char} {d : Decimal} (h : Written (c :: rest) d)

include h

/-- A written decimal number begins with a digit, and the mark of it stands behind that. -/
theorem written_tail : c.isDigit = true ∧
    ∃ mark ∈ rest, mark.isDigit = false ∧ digitValue? 10 mark = none := by
  obtain ⟨c', rest', heq, hc⟩ := h.head
  obtain ⟨rfl, rfl⟩ := List.cons.inj heq
  obtain ⟨mark, hmark, hnot, hnone⟩ := written_mark h
  rcases List.mem_cons.mp hmark with rfl | hmem
  · exact absurd (hc.symm.trans hnot) (by decide)
  · exact ⟨hc, mark, hmem, hnot, hnone⟩

theorem isPadded_written (negative : Bool) : isPadded (sign negative ++ c :: rest) = false := by
  obtain ⟨hc, mark, hmem, hnot, -⟩ := written_tail h
  unfold isPadded
  rw [unsigned_sign _ hc]
  split
  · rename_i heq
    obtain ⟨-, rfl⟩ := List.cons.inj heq
    rw [List.all_eq_false]
    exact ⟨mark, hmem, by simp [hnot]⟩
  · rfl

/-- Its second character is no mark of a base. -/
theorem written_second {e : Char} {ds : List Char} (heq : c :: rest = '0' :: e :: ds) :
    e ∉ ['x', 'o', 'b'] := by
  have hchar := written_chars h e (by rw [heq]; simp)
  intro hbase
  simp only [List.mem_cons, List.not_mem_nil, or_false] at hbase
  rcases hbase with rfl | rfl | rfl <;> revert hchar <;> decide

/-- It is no whole number. -/
theorem whole?_written (negative : Bool) : whole? (sign negative ++ c :: rest) = none := by
  obtain ⟨hc, mark, hmem, -, hnone⟩ := written_tail h
  rw [whole?_sign hc (isPadded_written h negative), Option.map_eq_none_iff]
  unfold magnitude?
  split
  · rename_i heq
    exact absurd (by simp) (written_second h heq)
  · rename_i heq
    exact absurd (by simp) (written_second h heq)
  · rename_i heq
    exact absurd (by simp) (written_second h heq)
  · rw [numeral?, if_neg (by simp),
      spelled?_eq_none 0 ⟨mark, List.mem_cons_of_mem c hmem, hnone⟩]

end Written

/-- **A double that is written stands for itself.** -/
theorem value?_digits (x : Double) : value? x.digits = some (.num (.real x)) := by
  obtain ⟨cs, d, hcs, hwritten, -⟩ := x.exists_written
  obtain ⟨c, rest, rfl, hc⟩ := hwritten.head
  have hmem : c ∈ x.digits := by rw [hcs]; simp
  have hne : x.digits ≠ [] := List.ne_nil_of_mem hmem
  have hpadded : isPadded x.digits = false := hcs ▸ isPadded_written hwritten x.negative
  have hwhole : whole? x.digits = none := hcs ▸ whole?_written hwritten x.negative
  unfold value?
  rw [truth?_of_digit hmem hc, hwhole, isNull_of_digit hmem hc, hpadded]
  simp [hne, real?, isBeyond_of_digit hmem hc, x.double?_digits]

end Yaml.Core
end OntologyCompiler
