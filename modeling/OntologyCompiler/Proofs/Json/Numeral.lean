import OntologyCompiler.Json.Text.Raw
import OntologyCompiler.Proofs.Yaml.Core

/-!
# Numbers are read back

The written form of a number follows the grammar of JSON: its whole digits do not begin with a zero
that stands for nothing. So it is read as one literal, whatever follows that does not belong to it.

* `not_padded_digits`: no zero is put in front of the digits of a double.
* `numberLiteral_form`: a literal is read in its parts.
* `exists_numberLiteral`: the written form of a number is one literal.
* `number_digits`: a number is read alike wherever it stands.
-/

namespace OntologyCompiler

open DecimalLiteral

/-- Digits with a zero in front. -/
def IsPadded (cs : List Char) : Prop :=
  ∃ c rest, cs = '0' :: c :: rest ∧ c.isDigit = true

theorem not_padded_of_head {c : Char} (h : c ≠ '0') (rest : List Char) :
    ¬ IsPadded (c :: rest) := by
  rintro ⟨_, _, heq, -⟩
  exact h (List.cons.inj heq).1

theorem not_padded_toDigits (n : Nat) : ¬ IsPadded (Nat.toDigits 10 n) :=
  fun ⟨_, _, heq, _⟩ => Yaml.Core.toDigits_not_padded heq

namespace Double

/-- The digits of a decimal number begin with one that is not zero. -/
theorem digitsAndPlace_head {d : Decimal} (hd : d.significand ≠ 0) :
    ∃ c rest, (digitsAndPlace d).1 = c :: rest ∧ c ≠ '0' := by
  obtain ⟨count, hcount⟩ := kept_append_zeros (Nat.toDigits 10 d.significand)
  obtain ⟨hne, -, -⟩ := digitsAndPlace_spec hd (Prod.eta (digitsAndPlace d)).symm
  obtain ⟨c, rest, hcons⟩ := List.exists_cons_of_ne_nil hne
  refine ⟨c, rest, hcons, ?_⟩
  rintro rfl
  -- the kept digits are in front of the zeros that were dropped
  have hkept : Nat.toDigits 10 d.significand = (digitsAndPlace d).1 ++ List.replicate count '0' :=
    hcount
  have hfront : Nat.toDigits 10 d.significand = '0' :: (rest ++ List.replicate count '0') := by
    rw [hkept, hcons]
    rfl
  cases htail : rest ++ List.replicate count '0' with
  | nil =>
    rw [htail] at hfront
    have hvalue := spelled_toDigits d.significand
    rw [hfront] at hvalue
    exact hd hvalue.symm
  | cons e es =>
    rw [htail] at hfront
    exact Yaml.Core.toDigits_not_padded hfront

/-- **A double is written without a zero in front** that stands for nothing. -/
theorem not_padded_digits (x : Double) :
    ∃ cs, x.digits = sign x.negative ++ cs ∧ ¬ IsPadded cs := by
  have hpoint : ∀ cs, ¬ IsPadded ('0' :: '.' :: cs) := by
    rintro cs ⟨_, _, heq, hdigit⟩
    obtain ⟨rfl, -⟩ := List.cons.inj (List.cons.inj heq).2
    exact absurd hdigit (by decide)
  by_cases hzero : x.mantissa = 0
  · exact ⟨['0', '.', '0'], by simp [digits, isZero, hzero, sign], hpoint _⟩
  obtain ⟨c, rest, hds, hc⟩ := digitsAndPlace_head (shortest_significand_ne_zero hzero)
  rcases hplace : digitsAndPlace x.shortest with ⟨ds, place⟩
  rw [hplace] at hds
  obtain rfl : ds = c :: rest := hds
  have hz : x.isZero = false := by simpa [isZero] using hzero
  unfold digits
  simp only [hz, Bool.false_eq_true, if_false, hplace]
  split
  · exact ⟨_, by simp only [List.append_assoc]; rfl, not_padded_of_head hc _⟩
  · split
    · exact ⟨_, by simp only [List.append_assoc]; rfl, hpoint _⟩
    · split
      · exact ⟨_, by simp only [List.append_assoc]; rfl, not_padded_of_head hc _⟩
      · have htake : (c :: rest).take place.toNat = c :: rest.take (place.toNat - 1) := by
          rw [List.take_cons (by omega)]
        rw [htake]
        exact ⟨_, by simp only [List.append_assoc]; rfl, not_padded_of_head hc _⟩

end Double

namespace Json

/-- What may stand behind a number: nothing that would belong to it. -/
def EndsNumber (rest : List Char) : Prop :=
  ∀ c, rest.head? = some c → c.isDigit = false ∧ c ≠ '.' ∧ c ≠ 'e' ∧ c ≠ 'E'

theorem endsNumber_nil : EndsNumber [] :=
  fun _ hc => absurd hc (by simp)

/-! ## Runs of digits -/

section Runs

variable {ds rest : List Char} (hds : AllDigits ds)
  (hrest : ∀ c, rest.head? = some c → c.isDigit = false)

include hds hrest

theorem digitRun_append : digitRun (ds ++ rest) = (ds.map digitOf, rest) := by
  obtain ⟨htake, hdrop⟩ := List.takeWhile_append_of_head rest hds hrest
  rw [digitRun, htake, hdrop]

theorem wholeRun_append (hne : ds ≠ []) (hpad : ¬ IsPadded ds) :
    wholeRun (ds ++ rest) = some (ds.map digitOf, rest) := by
  rw [wholeRun, digitRun_append hds hrest]
  split
  · rename_i heq
    exact absurd (List.map_eq_nil_iff.mp (Prod.mk.inj heq).1) hne
  · rename_i heq
    -- a first digit of no value is a zero
    obtain ⟨c, cs, rfl, hc, hcs⟩ := List.map_eq_cons_iff.mp (Prod.mk.inj heq).1
    obtain ⟨d, es, rfl, -, -⟩ := List.map_eq_cons_iff.mp hcs
    obtain ⟨hlow, hhigh⟩ := Text.toNat_of_isDigit (hds c List.mem_cons_self)
    unfold digitOf at hc
    obtain rfl : c = '0' := Char.toNat_inj.mp (by show c.toNat = 48; omega)
    exact absurd ⟨d, es, rfl, hds d (by simp)⟩ hpad
  · rename_i heq
    obtain ⟨h1, h2⟩ := Prod.mk.inj heq
    rw [h1, h2]

theorem powerDigits_append (down : Bool) (hne : ds ≠ []) :
    powerDigits down (ds ++ rest) = some (some (down, ds.map digitOf), rest) := by
  rw [powerDigits, digitRun_append hds hrest]
  split
  · rename_i heq
    exact absurd (List.map_eq_nil_iff.mp (Prod.mk.inj heq).1) hne
  · rename_i heq
    obtain ⟨h1, h2⟩ := Prod.mk.inj heq
    rw [h1, h2]

end Runs

/-! ## Literals -/

theorem fractionRun_append {fraction tail : List Char} (hfraction : AllDigits fraction)
    (htail : ∀ c, tail.head? = some c → c.isDigit = false ∧ c ≠ '.') :
    fractionRun (pointed fraction ++ tail) =
      some (if fraction = [] then none else some (fraction.map digitOf), tail) := by
  by_cases hf : fraction = []
  · rw [pointed, if_pos hf, if_pos hf, List.nil_append]
    unfold fractionRun
    split
    · exact absurd rfl (htail '.' rfl).2
    · rfl
  · rw [pointed, if_neg hf, if_neg hf, List.cons_append, fractionRun,
      digitRun_append hfraction fun c hc => (htail c hc).1]
    split
    · rename_i heq
      exact absurd (List.map_eq_nil_iff.mp (Prod.mk.inj heq).1) hf
    · rename_i heq
      obtain ⟨h1, h2⟩ := Prod.mk.inj heq
      rw [h1, h2]

/-- A literal behind its sign. -/
def unsignedLiteral (negative : Bool) (cs : List Char) : Option (NumberLiteral × List Char) := do
  let (whole, cs) ← wholeRun cs
  let (fraction, cs) ← fractionRun cs
  let (power, cs) ← powerRun cs
  return (⟨negative, whole, fraction, power⟩, cs)

theorem numberLiteral_sign (negative : Bool) {cs : List Char} (h : cs.head? ≠ some '-') :
    numberLiteral (sign negative ++ cs) = unsignedLiteral negative cs := by
  cases negative with
  | true => rfl
  | false =>
    unfold numberLiteral
    rw [sign, if_neg (by decide), List.nil_append]
    split
    rename_i heq
    split at heq
    · exact absurd rfl h
    · obtain ⟨rfl, rfl⟩ := Prod.mk.inj heq
      rfl

/-- **A literal in its parts**: a sign, whole digits, digits behind a point, and what comes of the
text behind them. -/
theorem numberLiteral_form (negative : Bool) {whole fraction tail : List Char}
    (hw : whole ≠ []) (hwhole : AllDigits whole) (hpad : ¬ IsPadded whole)
    (hfraction : AllDigits fraction)
    (htail : ∀ c, tail.head? = some c → c.isDigit = false ∧ c ≠ '.') :
    numberLiteral (sign negative ++ (whole ++ (pointed fraction ++ tail))) =
      (powerRun tail).map fun p => (⟨negative, whole.map digitOf,
        if fraction = [] then none else some (fraction.map digitOf), p.1⟩, p.2) := by
  have hpoint : ∀ c, (pointed fraction ++ tail).head? = some c → c.isDigit = false := by
    intro c hc
    unfold pointed at hc
    split at hc
    · exact (htail c hc).1
    · obtain rfl := Option.some.inj hc
      decide
  have hminus : (whole ++ (pointed fraction ++ tail)).head? ≠ some '-' := by
    obtain ⟨c, rest, rfl⟩ := List.exists_cons_of_ne_nil hw
    intro heq
    have hdigit := hwhole c List.mem_cons_self
    rw [Option.some.inj heq] at hdigit
    exact absurd hdigit (by decide)
  rw [numberLiteral_sign negative hminus, unsignedLiteral, wholeRun_append hwhole hpoint hw hpad]
  simp only [Option.bind_eq_bind, Option.bind_some, fractionRun_append hfraction htail]
  cases powerRun tail <;> rfl

theorem powerRun_none {rest : List Char} (h : EndsNumber rest) :
    powerRun rest = some (none, rest) := by
  cases rest with
  | nil => rfl
  | cons c rest =>
    obtain ⟨-, -, he, hE⟩ := h c rfl
    unfold powerRun
    exact if_neg (not_or.mpr ⟨he, hE⟩)

theorem powerRun_mark (negative : Bool) {ds rest : List Char} (hne : ds ≠ [])
    (hds : AllDigits ds) (h : EndsNumber rest) :
    powerRun ('e' :: (if negative then '-' else '+') :: (ds ++ rest)) =
      some (some (negative, ds.map digitOf), rest) := by
  have hrun := powerDigits_append hds (fun c hc => (h c hc).1) negative hne
  cases negative <;> simpa [powerRun] using hrun

/-- **A written decimal number is one literal**, unless a zero is put in front of it. -/
theorem exists_numberLiteral_written {cs : List Char} {d : Decimal} (h : Written cs d)
    (hpad : ¬ IsPadded cs) (negative : Bool) : ∃ l, ∀ rest, EndsNumber rest →
      numberLiteral (sign negative ++ cs ++ rest) = some (l, rest) := by
  have hpart : ∀ {whole tail : List Char}, cs = whole ++ tail → ¬ IsPadded whole := by
    rintro whole tail rfl ⟨c, rest, rfl, hc⟩
    exact hpad ⟨c, rest ++ tail, rfl, hc⟩
  cases h with
  | @point whole fraction hw hwhole hf hfraction =>
    refine ⟨⟨negative, whole.map digitOf, some (fraction.map digitOf), none⟩, fun rest hrest => ?_⟩
    have hform := numberLiteral_form negative hw hwhole (hpart rfl) hfraction
      fun c hc => ⟨(hrest c hc).1, (hrest c hc).2.1⟩
    rw [powerRun_none hrest, pointed, if_neg hf, if_neg hf] at hform
    simpa [List.append_assoc] using hform
  | @power whole fraction ds hw hwhole hfraction down hd hds =>
    refine ⟨⟨negative, whole.map digitOf, if fraction = [] then none else
      some (fraction.map digitOf), some (down, ds.map digitOf)⟩, fun rest hrest => ?_⟩
    have hmark : ∀ c, ('e' :: (if down then '-' else '+') :: (ds ++ rest)).head? = some c →
        c.isDigit = false ∧ c ≠ '.' := by
      intro c hc
      obtain rfl := Option.some.inj hc
      decide
    have hform := numberLiteral_form negative hw hwhole (hpart (List.append_assoc ..)) hfraction
      hmark
    rw [powerRun_mark down hd hds hrest] at hform
    simpa [List.append_assoc] using hform

/-- A whole number is one literal: its sign and its digits. -/
theorem numberLiteral_whole (n : Int) {rest : List Char} (h : EndsNumber rest) :
    numberLiteral (Number.wholeDigits n ++ rest) = some (⟨decide (n < 0),
      (Nat.toDigits 10 n.natAbs).map digitOf, none, none⟩, rest) := by
  have hnone : AllDigits [] := by decide
  have hform := numberLiteral_form (decide (n < 0)) Nat.toDigits_ne_nil
    (allDigits_toDigits n.natAbs) (not_padded_toDigits _) hnone
    fun c hc => ⟨(h c hc).1, (h c hc).2.1⟩
  rw [powerRun_none h] at hform
  rw [Yaml.Core.wholeDigits_eq, List.append_assoc]
  exact hform

/-- **The written form of a number is one literal**, whatever follows that does not belong to
it. -/
theorem exists_numberLiteral (n : Number) : ∃ l, ∀ rest, EndsNumber rest →
    numberLiteral (n.digits ++ rest) = some (l, rest) := by
  cases n with
  | whole n => exact ⟨_, fun rest hrest => numberLiteral_whole n hrest⟩
  | real x =>
    obtain ⟨cs, d, hcs, hwritten, -⟩ := x.exists_written
    obtain ⟨cs', hcs', hpad⟩ := x.not_padded_digits
    obtain rfl : cs = cs' := List.append_cancel_left (hcs.symm.trans hcs')
    rw [Number.digits, hcs]
    exact exists_numberLiteral_written hwritten hpad x.negative

namespace Raw

/-- What is read of the written form of a number. -/
def ofNumber (n : Number) : Raw :=
  (number n.digits).1

/-- **A number is read alike** wherever it stands. -/
theorem number_digits (n : Number) {rest : List Char} (h : EndsNumber rest) :
    number (n.digits ++ rest) = (ofNumber n, some rest) := by
  obtain ⟨l, hl⟩ := exists_numberLiteral n
  have hend := hl [] endsNumber_nil
  rw [List.append_nil] at hend
  rw [ofNumber, number, number, hl rest h, hend]
  simp only
  cases l.value? <;> rfl

end Raw
end Json
end OntologyCompiler
