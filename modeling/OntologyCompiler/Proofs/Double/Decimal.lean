import Mathlib.Tactic.Positivity
import Mathlib.Tactic.Ring
import OntologyCompiler.Double.Decimal

/-!
# Decimal numbers and the doubles they read as

Which double a decimal number reads as depends on its value alone, not on how many zeros stand at
the end of its significand. The exact decimal number of a double reads as that double, so the
shortest one does, wherever it comes from.

* `nearest?_scale`: a quotient may be expanded.
* `nearest?_numerator`: a magnitude is the nearest one to itself.
* `ofDecimal?_shift`: zeros may move from the significand to the exponent.
* `ofDecimal?_shortest`: the shortest decimal number of a double reads as the double.
-/

namespace OntologyCompiler.Double

/-! ## Quotients -/

theorem halfEven_scale (num den : Nat) {k : Nat} (hk : 0 < k) :
    halfEven (num * k) (den * k) = halfEven num den := by
  unfold halfEven
  rw [Nat.mul_div_mul_right _ _ hk, Nat.mul_mod_mul_right]
  have hlt : 2 * (num % den * k) < den * k ↔ 2 * (num % den) < den := by
    rw [← Nat.mul_assoc, Nat.mul_lt_mul_right hk]
  have hgt : den * k < 2 * (num % den * k) ↔ den < 2 * (num % den) := by
    rw [← Nat.mul_assoc, Nat.mul_lt_mul_right hk]
  simp only [hlt, hgt]

/-- **A quotient may be expanded.** -/
theorem nearest?_scale (num den : Nat) {k : Nat} (hk : 0 < k) :
    nearest? (num * k) (den * k) = nearest? num den := by
  unfold nearest?
  have hnum : num * k * unit = num * unit * k := by ring
  have hden : ∀ e, den * k * 2 ^ e = den * 2 ^ e * k := fun e => by ring
  simp only [hnum, hden, Nat.mul_div_mul_right _ _ hk, halfEven_scale _ _ hk]

theorem unit_pos : 0 < unit := by
  unfold unit
  positivity

/-- The exponent of a magnitude can be told from its numerator. -/
theorem log2_numerator {x : Double} (h : x.mantissa ≠ 0) :
    (x.numerator.log2 + 1) - 53 = x.exponent := by
  obtain ⟨hlt, -, hnormal⟩ := x.fits
  unfold numerator
  have hhigh : (x.mantissa * 2 ^ x.exponent).log2 < 53 + x.exponent := by
    rw [Nat.log2_lt (Nat.mul_ne_zero h (Nat.two_pow_pos _).ne'), Nat.pow_add]
    exact Nat.mul_lt_mul_of_pos_right hlt (Nat.two_pow_pos _)
  rcases hnormal with hzero | hlow
  · rw [hzero] at hhigh ⊢
    omega
  · have hle : 52 + x.exponent ≤ (x.mantissa * 2 ^ x.exponent).log2 := by
      rw [Nat.le_log2 (Nat.mul_ne_zero h (Nat.two_pow_pos _).ne'), Nat.pow_add]
      exact Nat.mul_le_mul_right _ hlow
    omega

/-- **A magnitude is the nearest one to itself.** -/
theorem nearest?_numerator {x : Double} (h : x.mantissa ≠ 0) :
    nearest? x.numerator unit = some (x.withSign false) := by
  unfold nearest?
  have hexp : ((x.numerator * unit / unit).log2 + 1) - 53 = x.exponent := by
    rw [Nat.mul_div_cancel _ unit_pos, log2_numerator h]
  have hmant : halfEven (x.numerator * unit) (unit * 2 ^ x.exponent) = x.mantissa := by
    have hnum : x.numerator * unit = x.mantissa * (unit * 2 ^ x.exponent) := by
      unfold numerator
      ring
    rw [hnum, halfEven_exact (Nat.mul_pos unit_pos (Nat.two_pow_pos _))]
  simp only [hexp, hmant, x.fits, dite_true, withSign]

/-! ## Decimal numbers -/

theorem digitCount_le_iff {n k : Nat} (hk : 0 < k) : digitCount n ≤ k ↔ n < 10 ^ k :=
  Nat.length_toDigits_le_iff (by decide) hk

/-- Zeros at the end of a number. -/
theorem toDigits_shift {n : Nat} (hn : n ≠ 0) : ∀ count : Nat,
    Nat.toDigits 10 (n * 10 ^ count) = Nat.toDigits 10 n ++ List.replicate count '0'
  | 0 => by simp
  | count + 1 => by
    have hpos : 0 < n * 10 ^ count := by positivity
    have hnum : n * 10 ^ (count + 1) = 10 * (n * 10 ^ count) + 0 := by ring
    rw [hnum, ← Nat.toDigits_append_toDigits (by decide) hpos (by decide), toDigits_shift hn count,
      Nat.toDigits_zero, List.replicate_succ', List.append_assoc]

theorem digitCount_shift {n : Nat} (hn : n ≠ 0) (count : Nat) :
    digitCount (n * 10 ^ count) = digitCount n + count := by
  unfold digitCount
  rw [toDigits_shift hn, List.length_append, List.length_replicate]

/-- **Zeros may move** from the end of the significand to the exponent. -/
theorem ofDecimal?_shift (s count : Nat) (e : Int) :
    ofDecimal? ⟨s * 10 ^ count, e⟩ = ofDecimal? ⟨s, e + count⟩ := by
  by_cases hs : s = 0
  · simp [ofDecimal?, hs]
  have hs' : s * 10 ^ count ≠ 0 := by positivity
  have htop : (digitCount (s * 10 ^ count) : Int) + e = digitCount s + (e + count) := by
    rw [digitCount_shift hs]
    push_cast
    ring
  unfold ofDecimal?
  simp only [hs, hs', if_false, htop]
  congr 2
  by_cases he : 0 ≤ e
  · -- both are whole numbers
    have hpow : s * 10 ^ count * 10 ^ e.toNat = s * 10 ^ (e + count).toNat := by
      rw [show (e + count).toNat = count + e.toNat by omega, pow_add, Nat.mul_assoc]
    rw [if_pos he, if_pos (by omega), hpow]
  · by_cases hec : 0 ≤ e + count
    · -- the zeros outweigh the exponent
      have hpow : s * 10 ^ count = s * 10 ^ (e + count).toNat * 10 ^ (-e).toNat := by
        rw [Nat.mul_assoc, ← pow_add, show (e + count).toNat + (-e).toNat = count by omega]
      rw [if_neg he, if_pos hec, hpow]
      have hscale : 0 < 10 ^ (-e).toNat := by positivity
      simpa using nearest?_scale (s * 10 ^ (e + count).toNat) 1 hscale
    · have hpow : 10 ^ (-e).toNat = 10 ^ (-(e + count)).toNat * 10 ^ count := by
        rw [← pow_add, show (-(e + (count : Int))).toNat + count = (-e).toNat by omega]
      rw [if_neg he, if_neg hec, hpow, nearest?_scale _ _ (by positivity)]

/-! ## The shortest decimal number -/

/-- The exact decimal number of a double is neither too large nor too small to be looked at. -/
theorem exact_inside {x : Double} (h : x.mantissa ≠ 0) :
    10 ^ 673 ≤ x.exact.significand ∧ x.exact.significand < 10 ^ 1474 := by
  have hpos : 1 ≤ x.numerator := Nat.mul_pos (Nat.pos_of_ne_zero h) (Nat.two_pow_pos _)
  have hlt : x.numerator < 2 ^ 2098 := by
    have hexp : 2 ^ x.exponent ≤ 2 ^ 2045 :=
      (Nat.pow_le_pow_iff_right (by decide)).mpr x.fits.2.1
    calc x.numerator < 2 ^ 53 * 2 ^ x.exponent :=
          Nat.mul_lt_mul_of_pos_right x.fits.1 (Nat.two_pow_pos _)
      _ ≤ 2 ^ 53 * 2 ^ 2045 := Nat.mul_le_mul_left _ hexp
      _ = 2 ^ 2098 := by decide +kernel
  constructor
  · calc 10 ^ 673 ≤ fives := by decide +kernel
      _ ≤ x.numerator * fives := Nat.le_mul_of_pos_left _ hpos
  · calc x.numerator * fives < 2 ^ 2098 * fives :=
          Nat.mul_lt_mul_of_pos_right hlt (by decide +kernel)
      _ ≤ 10 ^ 1474 := by decide +kernel

/-- The exact decimal number of a double reads as the double. -/
theorem ofDecimal?_exact {x : Double} (h : x.mantissa ≠ 0) :
    ofDecimal? x.exact = some (x.withSign false) := by
  obtain ⟨hlow, hhigh⟩ := exact_inside h
  have hcount : digitCount x.exact.significand ≤ 1474 := (digitCount_le_iff (by decide)).mpr hhigh
  have hcount' : 673 < digitCount x.exact.significand := by
    rw [← not_le, digitCount_le_iff (by decide), not_lt]
    exact hlow
  have hsig : x.exact.significand ≠ 0 := by
    intro hz
    rw [hz] at hlow
    exact absurd hlow (by decide +kernel)
  have hexp : x.exact.exponent = -1074 := rfl
  have hten : 10 ^ 1074 = unit * fives := by decide +kernel
  unfold ofDecimal?
  simp only [hsig, if_false, hexp]
  rw [if_neg (by omega), if_neg (by omega), if_neg (by omega)]
  rw [show (-(-1074 : Int)).toNat = 1074 from rfl, exact, hten,
    nearest?_scale _ _ (by decide +kernel), nearest?_numerator h]

/-- **The shortest decimal number** of a double reads as the double, up to its sign. -/
theorem ofDecimal?_shortest {x : Double} (h : x.mantissa ≠ 0) :
    ofDecimal? x.shortest = some (x.withSign false) := by
  unfold shortest
  cases hf : x.fewest? with
  | none => exact ofDecimal?_exact h
  | some d => exact fewest?_reads hf

/-- Its significand is not zero. -/
theorem shortest_significand_ne_zero {x : Double} (h : x.mantissa ≠ 0) :
    x.shortest.significand ≠ 0 := by
  intro hz
  have hread := ofDecimal?_shortest h
  rw [ofDecimal?, if_pos hz, Option.some.injEq] at hread
  exact h (congrArg mantissa hread).symm

end OntologyCompiler.Double
