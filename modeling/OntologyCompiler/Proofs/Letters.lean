/-!
# Letters and digits of ASCII

Where the letters and digits stand, and what putting a character in lower case makes of it.

* `isUpper_iff`, `isLower_iff`, `isAlpha_eq`: the letters.
* `toNat_toLower`: a capital moves by 32, and everything else stays.
* `eq_of_toLower_eq`: what is no letter comes of itself only.
* `isLower_toLower`: a capital becomes a small letter.
* `isAlphanum_toUpper`: a letter or digit stays one when it is made a capital.
* `isDigit_toString`: numerals are made of digits.
-/

namespace OntologyCompiler.Text

/-! ## Where they stand -/

theorem toNat_of_isDigit {c : Char} (h : c.isDigit = true) : 48 ≤ c.toNat ∧ c.toNat ≤ 57 := by
  simpa [Char.isDigit, UInt32.le_iff_toNat_le] using h

theorem isUpper_iff {c : Char} : c.isUpper = true ↔ 65 ≤ c.toNat ∧ c.toNat ≤ 90 := by
  show decide (c.val ≥ 'A'.val ∧ c.val ≤ 'Z'.val) = true ↔ _
  simp [UInt32.le_iff_toNat_le]

theorem isLower_iff {c : Char} : c.isLower = true ↔ 97 ≤ c.toNat ∧ c.toNat ≤ 122 := by
  show (decide (c.val ≥ 'a'.val) && decide (c.val ≤ 'z'.val)) = true ↔ _
  simp [UInt32.le_iff_toNat_le]

/-- A letter is a capital or a small one. -/
theorem isAlpha_eq (c : Char) : c.isAlpha = (c.isUpper || c.isLower) :=
  rfl

theorem le_iff_toNat_le {a b : Char} : a ≤ b ↔ a.toNat ≤ b.toNat := by
  rw [Char.le_def, UInt32.le_iff_toNat_le]
  rfl

/-! ## Lower case -/

theorem toNat_toLower (c : Char) :
    c.toLower.toNat = if 65 ≤ c.toNat ∧ c.toNat ≤ 90 then c.toNat + 32 else c.toNat := by
  unfold Char.toLower
  by_cases h : c.val ≥ 'A'.val ∧ c.val ≤ 'Z'.val
  · have h' : 65 ≤ c.toNat ∧ c.toNat ≤ 90 := by simpa [UInt32.le_iff_toNat_le] using h
    rw [dif_pos h, if_pos h']
    show (c.val + ('a'.val - 'A'.val)).toNat = c.toNat + 32
    rw [UInt32.toNat_add]
    have : ('a'.val - 'A'.val).toNat = 32 := rfl
    have : c.val.toNat = c.toNat := rfl
    omega
  · have h' : ¬ (65 ≤ c.toNat ∧ c.toNat ≤ 90) := by simpa [UInt32.le_iff_toNat_le] using h
    rw [dif_neg h, if_neg h']

theorem toLower_toLower (c : Char) : c.toLower.toLower = c.toLower := by
  apply Char.toNat_inj.mp
  rw [toNat_toLower c.toLower, toNat_toLower c]
  by_cases h : 65 ≤ c.toNat ∧ c.toNat ≤ 90
  · rw [if_pos h, if_neg (by omega)]
  · rw [if_neg h, if_neg h]

/-- What is no letter comes of itself only. -/
theorem eq_of_toLower_eq {c d : Char} (h : c.toLower = d) (hd : d.toNat < 97) : c = d := by
  subst h
  apply Char.toNat_inj.mp
  have := toNat_toLower c
  split at this <;> omega

/-- A digit is its own lower case. -/
theorem toLower_of_isDigit {c : Char} (h : c.isDigit = true) : c.toLower = c := by
  simp only [Char.isDigit, Bool.and_eq_true, decide_eq_true_eq] at h
  have hnot : ¬ (c.val ≥ 'A'.val ∧ c.val ≤ 'Z'.val) := by
    rintro ⟨hA, -⟩
    exact absurd (UInt32.le_trans hA h.2) (by decide)
  unfold Char.toLower
  rw [dif_neg hnot]

/-- A small letter is its own lower case. -/
theorem toLower_of_isLower {c : Char} (h : c.isLower = true) : c.toLower = c := by
  rw [isLower_iff] at h
  apply Char.toNat_inj.mp
  rw [toNat_toLower, if_neg (by omega)]

theorem isDigit_toLower (c : Char) : c.toLower.isDigit = c.isDigit := by
  rw [Bool.eq_iff_iff]
  constructor
  · intro h
    have hlow := toNat_of_isDigit h
    rwa [← eq_of_toLower_eq (c := c) rfl (by omega)] at h
  · intro h
    rwa [toLower_of_isDigit h]

theorem isLower_toLower {c : Char} (h : c.isUpper = true) : c.toLower.isLower = true := by
  rw [isUpper_iff] at h
  rw [isLower_iff, toNat_toLower, if_pos h]
  omega

/-! ## Capitals -/

theorem toNat_toUpper (c : Char) :
    c.toUpper.toNat = if 97 ≤ c.toNat ∧ c.toNat ≤ 122 then c.toNat - 32 else c.toNat := by
  unfold Char.toUpper
  by_cases h : 'a'.val ≤ c.val ∧ c.val ≤ 'z'.val
  · have h' : 97 ≤ c.toNat ∧ c.toNat ≤ 122 := by simpa [UInt32.le_iff_toNat_le] using h
    rw [dif_pos h, if_pos h']
    show (c.val + ('A'.val - 'a'.val)).toNat = c.toNat - 32
    rw [UInt32.toNat_add]
    have : ('A'.val - 'a'.val).toNat = 2 ^ 32 - 32 := rfl
    have : c.val.toNat = c.toNat := rfl
    omega
  · have h' : ¬ (97 ≤ c.toNat ∧ c.toNat ≤ 122) := by simpa [UInt32.le_iff_toNat_le] using h
    rw [dif_neg h, if_neg h']

/-- A letter or digit stays one when it is made a capital. -/
theorem isAlphanum_toUpper {c : Char} (h : c.isAlphanum = true) : c.toUpper.isAlphanum = true := by
  by_cases hlower : c.isLower = true
  · have hupper : c.toUpper.isUpper = true := by
      rw [isLower_iff] at hlower
      rw [isUpper_iff, toNat_toUpper, if_pos hlower]
      omega
    rw [Char.isAlphanum, isAlpha_eq, hupper]
    rfl
  · have hself : c.toUpper = c := by
      rw [isLower_iff] at hlower
      exact Char.toNat_inj.mp (by rw [toNat_toUpper, if_neg hlower])
    rwa [hself]

/-! ## Numerals -/

theorem isDigit_toString (n : Nat) : ∀ c ∈ (toString n).toList, c.isDigit = true := by
  intro c hc
  rw [Nat.toString_eq_repr, Nat.toList_repr] at hc
  exact Nat.isDigit_of_mem_toDigits (by decide) (by decide) hc

end OntologyCompiler.Text
