import Mathlib.Data.List.TakeWhile
import OntologyCompiler.Double.Literal
import OntologyCompiler.Proofs.Double.Decimal
import OntologyCompiler.Proofs.Letters

/-!
# The written form of a double is a literal for it

Doubles are written with a point or with a power of ten, never as digits alone. Whatever the form,
the literal has the value of the shortest decimal number, and so it is read as the double.

* `Written`: the forms in which decimal numbers are written.
* `exists_written`: a double is written in one of them, for a decimal number that reads as it.
* `double?_digits`: the written form of a double is read as the double.
-/

namespace OntologyCompiler

theorem List.takeWhile_append_of_head {α : Type} {p : α → Bool} {xs : List α} (ys : List α)
    (hx : ∀ x ∈ xs, p x = true) (hy : ∀ y, ys.head? = some y → p y = false) :
    (xs ++ ys).takeWhile p = xs ∧ (xs ++ ys).dropWhile p = ys := by
  rw [List.takeWhile_append_of_pos hx, List.dropWhile_append_of_pos hx]
  cases ys with
  | nil => simp
  | cons y ys => simp [hy y rfl]

namespace DecimalLiteral

/-- Nothing but digits. -/
def AllDigits (cs : List Char) : Prop :=
  ∀ c ∈ cs, c.isDigit = true

instance (cs : List Char) : Decidable (AllDigits cs) :=
  List.decidableBAll _ cs

theorem allDigits_toDigits (n : Nat) : AllDigits (Nat.toDigits 10 n) :=
  fun _ hc => Nat.isDigit_of_mem_toDigits (by decide) (by decide) hc

theorem AllDigits.append {cs ds : List Char} (hc : AllDigits cs) (hd : AllDigits ds) :
    AllDigits (cs ++ ds) :=
  fun c h => (List.mem_append.mp h).elim (hc c) (hd c)

theorem allDigits_zeros (count : Nat) : AllDigits (List.replicate count '0') := by
  intro c hc
  rw [List.eq_of_mem_replicate hc]
  decide

theorem spelled_eq (cs : List Char) : spelled cs = Nat.ofDigitChars 10 cs 0 := by
  unfold spelled Nat.ofDigitChars
  simp only [Nat.mul_comm]
  rfl

theorem spelled_toDigits (n : Nat) : spelled (Nat.toDigits 10 n) = n := by
  rw [spelled_eq, Nat.ofDigitChars_ten_toDigits]

theorem spelled_append_zeros (cs : List Char) (count : Nat) :
    spelled (cs ++ List.replicate count '0') = spelled cs * 10 ^ count := by
  rw [spelled_eq, spelled_eq, Nat.ofDigitChars_append, Nat.ofDigitChars_replicate_zero,
    Nat.mul_comm]

theorem spelled_zeros_append (cs : List Char) (count : Nat) :
    spelled (List.replicate count '0' ++ cs) = spelled cs := by
  rw [spelled_eq, spelled_eq, Nat.ofDigitChars_append, Nat.ofDigitChars_replicate_zero,
    Nat.mul_zero]

/-! ## Written forms -/

/-- The fraction behind a point, if there is one. -/
def pointed (fraction : List Char) : List Char :=
  if fraction = [] then [] else '.' :: fraction

/-- The ways in which decimal numbers are written: with a point, or with a power of ten. -/
inductive Written : List Char → Decimal → Prop
  | point {whole fraction : List Char} (hw : whole ≠ []) (hwhole : AllDigits whole)
      (hf : fraction ≠ []) (hfraction : AllDigits fraction) :
      Written (whole ++ '.' :: fraction) ⟨spelled (whole ++ fraction), 0 - fraction.length⟩
  | power {whole fraction ds : List Char} (hw : whole ≠ []) (hwhole : AllDigits whole)
      (hfraction : AllDigits fraction) (negative : Bool) (hd : ds ≠ []) (hds : AllDigits ds) :
      Written (whole ++ pointed fraction ++ 'e' :: (if negative then '-' else '+') :: ds)
        ⟨spelled (whole ++ fraction),
          (if negative then -(spelled ds : Int) else spelled ds) - fraction.length⟩

theorem power?_mark {ds : List Char} (negative : Bool) (hd : ds ≠ []) (hds : AllDigits ds) :
    power? ('e' :: (if negative then '-' else '+') :: ds) =
      some (if negative then -(spelled ds : Int) else spelled ds) := by
  have hall : ds.all Char.isDigit = true := List.all_eq_true.mpr hds
  cases negative <;> simp [power?, hd, hall]

/-- **What is written is read.** -/
theorem magnitude?_written {cs : List Char} {d : Decimal} (h : Written cs d) :
    magnitude? cs = some d := by
  cases h with
  | @point whole fraction hw hwhole hf hfraction =>
    obtain ⟨htake, hdrop⟩ := List.takeWhile_append_of_head ('.' :: fraction) hwhole
      (by simp)
    obtain ⟨htake', hdrop'⟩ := List.takeWhile_append_of_head [] hfraction (by simp)
    rw [List.append_nil] at htake' hdrop'
    simp [magnitude?, htake, hdrop, htake', hdrop', hw, power?]
  | @power whole fraction ds hw hwhole hfraction negative hd hds =>
    have hpow := power?_mark negative hd hds
    generalize hmark : (if negative then '-' else '+') = mark at hpow ⊢
    rw [List.append_assoc]
    by_cases hf : fraction = []
    · obtain ⟨htake, hdrop⟩ := List.takeWhile_append_of_head ('e' :: mark :: ds) hwhole
        (by simp)
      simp [magnitude?, pointed, hf, htake, hdrop, hw, hpow]
    · obtain ⟨htake, hdrop⟩ := List.takeWhile_append_of_head
        ('.' :: (fraction ++ 'e' :: mark :: ds)) hwhole (by simp)
      obtain ⟨htake', hdrop'⟩ := List.takeWhile_append_of_head ('e' :: mark :: ds) hfraction
        (by simp)
      simp [magnitude?, pointed, hf, htake, hdrop, htake', hdrop', hw, hpow]

/-- The first character is a digit. -/
theorem Written.head {cs : List Char} {d : Decimal} (h : Written cs d) :
    ∃ c rest, cs = c :: rest ∧ c.isDigit = true := by
  cases h with
  | @point whole _ hw hwhole =>
    obtain ⟨c, rest, rfl⟩ := List.exists_cons_of_ne_nil hw
    exact ⟨c, _, rfl, hwhole c List.mem_cons_self⟩
  | @power whole _ _ hw hwhole =>
    obtain ⟨c, rest, rfl⟩ := List.exists_cons_of_ne_nil hw
    exact ⟨c, _, rfl, hwhole c List.mem_cons_self⟩

/-- What does not begin like a word is a number or nothing. -/
theorem unsigned?_of_head {c : Char} (hi : c.toLower ≠ 'i') (hn : c.toLower ≠ 'n')
    (rest : List Char) (negative : Bool) :
    unsigned? negative (c :: rest) = (magnitude? (c :: rest)).map (.finite negative) := by
  have hne : ∀ {word : String} {d : Char}, word.toList.head? = some d → c.toLower ≠ d →
      String.ofList ((c :: rest).map Char.toLower) ≠ word := by
    rintro word d hword hd rfl
    rw [String.toList_ofList] at hword
    exact hd (Option.some.inj hword)
  unfold unsigned?
  rw [if_neg (not_or.mpr ⟨hne (by decide) hi, hne (by decide) hi⟩), if_neg (hne (by decide) hn)]

/-- No word starts with a digit. -/
theorem unsigned?_of_digit {c : Char} (h : c.isDigit = true) (rest : List Char)
    (negative : Bool) :
    unsigned? negative (c :: rest) = (magnitude? (c :: rest)).map (.finite negative) := by
  have hne : ∀ d : Char, d.isDigit = false → c.toLower ≠ d := by
    rintro d hd rfl
    rw [Text.toLower_of_isDigit h, h] at hd
    exact absurd hd (by decide)
  exact unsigned?_of_head (hne 'i' (by decide)) (hne 'n' (by decide)) rest negative

/-- The sign of a number. -/
def sign (negative : Bool) : List Char :=
  if negative then ['-'] else []

/-- A number after its sign is read with the sign. -/
theorem parse?_written {cs : List Char} {d : Decimal} (h : Written cs d) (negative : Bool) :
    parse? (sign negative ++ cs) = some (.finite negative d) := by
  obtain ⟨c, rest, rfl, hc⟩ := h.head
  have hread : unsigned? negative (c :: rest) = some (.finite negative d) := by
    rw [unsigned?_of_digit hc, magnitude?_written h, Option.map_some]
  cases negative with
  | true => exact hread
  | false =>
    have hminus : c ≠ '-' := fun heq => by simp [heq] at hc
    have hplus : c ≠ '+' := fun heq => by simp [heq] at hc
    simp only [sign, Bool.false_eq_true, if_false, List.nil_append]
    rw [parse?.eq_def]
    split
    · exact absurd (List.cons.inj ‹_›).1 hminus
    · exact absurd (List.cons.inj ‹_›).1 hplus
    · exact hread

end DecimalLiteral

namespace Double

open DecimalLiteral

/-- Digits are those that are kept and zeros. -/
theorem kept_append_zeros (ds : List Char) : ∃ count,
    ds = (ds.reverse.dropWhile (· == '0')).reverse ++ List.replicate count '0' := by
  refine ⟨(ds.reverse.takeWhile (· == '0')).length, ?_⟩
  have hzeros : ds.reverse.takeWhile (· == '0') =
      List.replicate (ds.reverse.takeWhile (· == '0')).length '0' :=
    List.eq_replicate_of_mem fun c hc => by simpa using List.mem_takeWhile_imp hc
  calc ds = (ds.reverse.takeWhile (· == '0') ++ ds.reverse.dropWhile (· == '0')).reverse := by
        rw [List.takeWhile_append_dropWhile, List.reverse_reverse]
    _ = _ := by
        rw [List.reverse_append]
        conv_lhs => rw [hzeros]
        rw [List.reverse_replicate]

/-- What `digitsAndPlace` gives has the value of the decimal number. -/
theorem digitsAndPlace_spec {d : Decimal} (hd : d.significand ≠ 0) {ds : List Char} {place : Int}
    (h : digitsAndPlace d = (ds, place)) :
    ds ≠ [] ∧ AllDigits ds ∧ ofDecimal? ⟨spelled ds, place - ds.length⟩ = ofDecimal? d := by
  obtain ⟨count, hcount⟩ := kept_append_zeros (Nat.toDigits 10 d.significand)
  unfold digitsAndPlace at h
  obtain ⟨hkept, hplace⟩ := Prod.mk.inj h
  rw [hkept] at hcount
  have hvalue : d.significand = spelled ds * 10 ^ count := by
    rw [← spelled_append_zeros, ← hcount, spelled_toDigits]
  refine ⟨?_, fun c hc => allDigits_toDigits d.significand c ?_, ?_⟩
  · rintro rfl
    rw [show spelled [] = 0 from rfl, Nat.zero_mul] at hvalue
    exact hd hvalue
  · rw [hcount]
    exact List.mem_append_left _ hc
  · have hlength := congrArg List.length hcount
    rw [List.length_append, List.length_replicate] at hlength
    obtain ⟨significand, exponent⟩ := d
    simp only at hvalue hplace hlength
    rw [hvalue, ofDecimal?_shift]
    congr 2
    omega

/-- Zero is written as zero. -/
theorem withSign_of_zero {x : Double} (h : x.mantissa = 0) : x.withSign false = zero false := by
  obtain ⟨negative, mantissa, exponent, fits⟩ := x
  simp only at h
  subst h
  have hexp : exponent = 0 := fits.2.2.resolve_right (by decide)
  subst hexp
  rfl

/-! The four ways in which the digits `ds` of a number `0.ds * 10 ^ place` are written. -/

section Forms

variable {ds : List Char} {place : Int}

theorem written_power (place : Int) (hne : ds ≠ []) (hds : AllDigits ds) :
    ∃ d, Written (ds.take 1 ++ pointed (ds.drop 1) ++
        'e' :: (if decide (place - 1 < 0) then '-' else '+') ::
          Nat.toDigits 10 (place - 1).natAbs) d ∧
      d = ⟨spelled ds, place - ds.length⟩ := by
  obtain ⟨c, rest, rfl⟩ := List.exists_cons_of_ne_nil hne
  refine ⟨_, .power (List.cons_ne_nil c []) (fun d hd => hds d ?_) (fun d hd => hds d ?_) _
    Nat.toDigits_ne_nil (allDigits_toDigits _), ?_⟩
  · rw [List.mem_singleton.mp hd]
    exact List.mem_cons_self
  · exact List.mem_cons_of_mem _ hd
  · rw [spelled_toDigits]
    simp only [List.drop_succ_cons, List.drop_zero, List.singleton_append, Decimal.mk.injEq,
      true_and, List.length_cons, decide_eq_true_eq]
    split <;> omega

theorem written_below_one (hne : ds ≠ []) (hds : AllDigits ds) (hplace : place ≤ 0) :
    ∃ d, Written (['0'] ++ '.' :: (List.replicate (-place).toNat '0' ++ ds)) d ∧
      d = ⟨spelled ds, place - ds.length⟩ := by
  refine ⟨_, .point (List.cons_ne_nil '0' []) (by decide) (by simp [hne])
    ((allDigits_zeros _).append hds), ?_⟩
  have hzeros : ['0'] ++ (List.replicate (-place).toNat '0' ++ ds) =
      List.replicate ((-place).toNat + 1) '0' ++ ds := by
    simp [List.replicate_succ]
  rw [hzeros, spelled_zeros_append]
  simp only [Decimal.mk.injEq, true_and, List.length_append, List.length_replicate]
  omega

theorem written_whole (hne : ds ≠ []) (hds : AllDigits ds) (hplace : (ds.length : Int) ≤ place) :
    ∃ d, Written (ds ++ List.replicate (place.toNat - ds.length) '0' ++ '.' :: ['0']) d ∧
      ofDecimal? d = ofDecimal? ⟨spelled ds, place - ds.length⟩ := by
  refine ⟨_, .point (by simp [hne]) (hds.append (allDigits_zeros _)) (List.cons_ne_nil '0' [])
    (by decide), ?_⟩
  have hzeros : ds ++ List.replicate (place.toNat - ds.length) '0' ++ ['0'] =
      ds ++ List.replicate (place.toNat - ds.length + 1) '0' := by
    simp [List.replicate_succ']
  rw [hzeros, spelled_append_zeros, ofDecimal?_shift]
  congr 2
  simp only [List.length_singleton]
  omega

theorem written_between (hds : AllDigits ds) (hlow : 0 < place)
    (hhigh : place < (ds.length : Int)) :
    ∃ d, Written (ds.take place.toNat ++ '.' :: ds.drop place.toNat) d ∧
      d = ⟨spelled ds, place - ds.length⟩ := by
  refine ⟨_, .point ?_ (fun c hc => hds c (List.mem_of_mem_take hc)) ?_
    (fun c hc => hds c (List.mem_of_mem_drop hc)), ?_⟩
  · rw [ne_eq, List.take_eq_nil_iff, not_or]
    exact ⟨by omega, fun h => by simp [h] at hhigh; omega⟩
  · rw [ne_eq, List.drop_eq_nil_iff]
    omega
  · rw [List.take_append_drop]
    simp only [Decimal.mk.injEq, true_and, List.length_drop]
    omega

end Forms

/-- **A double is written** as its sign and a decimal number that reads as its magnitude. -/
theorem exists_written (x : Double) : ∃ cs d, x.digits = sign x.negative ++ cs ∧ Written cs d ∧
    ofDecimal? d = some (x.withSign false) := by
  by_cases hzero : x.mantissa = 0
  · refine ⟨['0', '.', '0'], _, ?_, .point (List.cons_ne_nil '0' []) (by decide)
      (List.cons_ne_nil '0' []) (by decide), ?_⟩
    · simp [digits, isZero, hzero, sign]
    · rw [withSign_of_zero hzero]
      rfl
  have hread := ofDecimal?_shortest hzero
  rcases hplace : digitsAndPlace x.shortest with ⟨ds, place⟩
  obtain ⟨hne, hds, hvalue⟩ := digitsAndPlace_spec (shortest_significand_ne_zero hzero) hplace
  rw [hread] at hvalue
  have hz : x.isZero = false := by simpa [isZero] using hzero
  unfold digits
  simp only [hz, Bool.false_eq_true, if_false, hplace]
  split
  · obtain ⟨d, hd, rfl⟩ := written_power place hne hds
    refine ⟨_, _, ?_, hd, hvalue⟩
    have hpoint : (if ds.length ≤ 1 then [] else '.' :: ds.drop 1) = pointed (ds.drop 1) := by
      simp only [pointed, List.drop_eq_nil_iff]
    rw [hpoint]
    by_cases hneg : place - 1 < 0 <;> simp [sign, hneg]
  · split
    · obtain ⟨d, hd, rfl⟩ := written_below_one hne hds ‹_›
      exact ⟨_, _, by simp [sign], hd, hvalue⟩
    · split
      · obtain ⟨d, hd, heq⟩ := written_whole hne hds ‹_›
        exact ⟨_, d, by simp [sign], hd, heq.trans hvalue⟩
      · obtain ⟨d, hd, rfl⟩ := written_between hds (Int.not_le.mp ‹¬ place ≤ 0›) (by omega)
        exact ⟨_, _, by simp [sign], hd, hvalue⟩

/-- **The written form of a double is read as the double.** -/
theorem double?_digits (x : Double) : (parse? x.digits).bind double? = some x := by
  obtain ⟨cs, d, hcs, hwritten, hread⟩ := x.exists_written
  rw [hcs, parse?_written hwritten, Option.bind_some, double?, hread, Option.map_some]
  rfl

end Double
end OntologyCompiler
