import OntologyCompiler.Proofs.Yaml.Core

/-!
# Texts without quotes

The writer leaves out the quotes only where a reader takes the text for itself: whatever is read as
nothing, as a truth value or as a number is quoted.

* `looksNumeric_of_isBeyond`, `looksNumeric_of_whole?`, `looksNumeric_of_isLiteral`: what is read as
  a number looks like one.
* `isNull_unquoted`, `truth?_unquoted`, `whole?_unquoted`, `real?_unquoted`: a text without quotes
  is nothing of the kind.
* `value?_unquoted`: a text without quotes stands for itself.
-/

namespace OntologyCompiler

open DecimalLiteral Text

/-! ## Literals in lower case -/

namespace DecimalLiteral

/-- A text in lower case. -/
def lowered (cs : List Char) : List Char :=
  cs.map Char.toLower

theorem lowered_lowered (cs : List Char) : lowered (lowered cs) = lowered cs := by
  simp only [lowered, List.map_map]
  exact List.map_congr_left fun c _ => toLower_toLower c

theorem allDigits_lowered {cs : List Char} : AllDigits (lowered cs) ↔ AllDigits cs := by
  simp [AllDigits, lowered, isDigit_toLower]

theorem isSome_powerDigits_iff {ds : List Char} {n : Int} :
    (if ds.isEmpty || !ds.all Char.isDigit then none else some n).isSome = true ↔
      ds ≠ [] ∧ AllDigits ds := by
  simp [AllDigits]

/-- The forms of a power of ten at the end of a literal. -/
theorem isSome_power?_iff {cs : List Char} : (power? cs).isSome = true ↔ cs = [] ∨
    ∃ c ds, (c = 'e' ∨ c = 'E') ∧ ds ≠ [] ∧ AllDigits ds ∧
      (cs = c :: ds ∨ cs = c :: '-' :: ds ∨ cs = c :: '+' :: ds) := by
  constructor
  · intro h
    rcases cs with _ | ⟨c, cs⟩
    · exact Or.inl rfl
    refine Or.inr ?_
    simp only [power?] at h
    split at h
    · rename_i hmark
      split at h
      · obtain ⟨hne, hds⟩ := isSome_powerDigits_iff.mp h
        exact ⟨c, _, hmark, hne, hds, Or.inr (Or.inl rfl)⟩
      · obtain ⟨hne, hds⟩ := isSome_powerDigits_iff.mp h
        exact ⟨c, _, hmark, hne, hds, Or.inr (Or.inr rfl)⟩
      · obtain ⟨hne, hds⟩ := isSome_powerDigits_iff.mp h
        exact ⟨c, _, hmark, hne, hds, Or.inl rfl⟩
    · exact absurd h (by simp)
  · rintro (rfl | ⟨c, ds, hmark, hne, hds, rfl | rfl | rfl⟩)
    · rfl
    · -- without a sign the first digit is taken for none
      have hhead : ∀ d rest, ds = d :: rest → d.isDigit = true := by
        rintro d rest rfl
        exact hds d List.mem_cons_self
      simp only [power?, hmark, if_true]
      split
      · exact absurd (hhead _ _ rfl) (by decide)
      · exact absurd (hhead _ _ rfl) (by decide)
      · exact isSome_powerDigits_iff.mpr ⟨hne, hds⟩
    · simp only [power?, hmark, if_true]
      exact isSome_powerDigits_iff.mpr ⟨hne, hds⟩
    · simp only [power?, hmark, if_true]
      exact isSome_powerDigits_iff.mpr ⟨hne, hds⟩

/-- No digit opens a power of ten. -/
theorem isDigit_head_of_isSome_power? {cs : List Char} (h : (power? cs).isSome = true) :
    ∀ c, cs.head? = some c → c.isDigit = false := by
  intro c hc
  rcases isSome_power?_iff.mp h with rfl | ⟨e, ds, hmark, -, -, rfl | rfl | rfl⟩
  · exact absurd hc (by simp)
  all_goals
    obtain rfl := Option.some.inj hc
    rcases hmark with rfl | rfl <;> decide

theorem isSome_power?_lowered {cs : List Char} (h : (power? cs).isSome = true) :
    (power? (lowered cs)).isSome = true := by
  rw [isSome_power?_iff] at h ⊢
  rcases h with rfl | ⟨c, ds, hmark, hne, hds, h⟩
  · exact Or.inl rfl
  · refine Or.inr ⟨'e', lowered ds, Or.inl rfl, by simpa [lowered] using hne,
      allDigits_lowered.mpr hds, ?_⟩
    have hc : c.toLower = 'e' := by rcases hmark with rfl | rfl <;> decide
    rcases h with rfl | rfl | rfl <;> simp [lowered, hc]

theorem isSome_scaled (n k : Nat) (p : Option Int) : (do
    let power ← p
    return (⟨n, power - k⟩ : Decimal) : Option Decimal).isSome = p.isSome := by
  cases p <;> rfl

/-- Digits beside a point, and a power of ten, are a number without a sign. -/
theorem isSome_magnitude?_pointed {whole fraction rest : List Char} (hwhole : AllDigits whole)
    (hfraction : AllDigits fraction) (hne : whole ≠ [] ∨ fraction ≠ [])
    (hpower : (power? rest).isSome = true) :
    (magnitude? (whole ++ '.' :: (fraction ++ rest))).isSome = true := by
  obtain ⟨h1, h2⟩ := List.takeWhile_append_of_head ('.' :: (fraction ++ rest)) hwhole (by simp)
  obtain ⟨h3, h4⟩ :=
    List.takeWhile_append_of_head rest hfraction (isDigit_head_of_isSome_power? hpower)
  simp only [magnitude?, h1, h2, h3, h4]
  rw [if_neg (by simpa [Classical.or_iff_not_imp_left] using hne), isSome_scaled]
  exact hpower

/-- Digits and a power of ten are a number without a sign. -/
theorem isSome_magnitude?_whole {whole rest : List Char} (hwhole : AllDigits whole)
    (hne : whole ≠ []) (hpower : (power? rest).isSome = true) :
    (magnitude? (whole ++ rest)).isSome = true := by
  obtain ⟨h1, h2⟩ :=
    List.takeWhile_append_of_head rest hwhole (isDigit_head_of_isSome_power? hpower)
  simp only [magnitude?, h1, h2]
  split
  · exact absurd hpower (by simp [power?])
  · rw [if_neg (by simp [hne]), isSome_scaled]
    exact hpower

/-- The forms of a number without a sign. -/
theorem isSome_magnitude?_iff {cs : List Char} : (magnitude? cs).isSome = true ↔
    ∃ whole fraction rest, AllDigits whole ∧ AllDigits fraction ∧
      (whole ≠ [] ∨ fraction ≠ []) ∧ (power? rest).isSome = true ∧
      (cs = whole ++ '.' :: (fraction ++ rest) ∨ fraction = [] ∧ cs = whole ++ rest) := by
  have htake : ∀ ds : List Char, AllDigits (ds.takeWhile Char.isDigit) :=
    fun ds c hc => List.mem_takeWhile_imp hc
  constructor
  · intro h
    simp only [magnitude?] at h
    have hcs := List.takeWhile_append_dropWhile (p := Char.isDigit) (l := cs)
    split at h
    · rename_i rest hrest
      split at h
      · exact absurd h (by simp)
      · rename_i hne
        rw [isSome_scaled] at h
        refine ⟨_, rest.takeWhile Char.isDigit, _, htake cs, htake rest, ?_, h, Or.inl ?_⟩
        · simpa [Classical.or_iff_not_imp_left] using hne
        · rw [List.takeWhile_append_dropWhile, ← hrest, hcs]
    · split at h
      · exact absurd h (by simp)
      · rename_i hne
        rw [isSome_scaled] at h
        exact ⟨_, [], _, htake cs, by simp [AllDigits], by simpa using hne, h,
          Or.inr ⟨rfl, hcs.symm⟩⟩
  · rintro ⟨whole, fraction, rest, hwhole, hfraction, hne, hpower, rfl | ⟨rfl, rfl⟩⟩
    · exact isSome_magnitude?_pointed hwhole hfraction hne hpower
    · exact isSome_magnitude?_whole hwhole (hne.resolve_right (by simp)) hpower

theorem isSome_magnitude?_lowered {cs : List Char} (h : (magnitude? cs).isSome = true) :
    (magnitude? (lowered cs)).isSome = true := by
  rw [isSome_magnitude?_iff] at h ⊢
  obtain ⟨whole, fraction, rest, hwhole, hfraction, hne, hpower, h⟩ := h
  refine ⟨lowered whole, lowered fraction, lowered rest, allDigits_lowered.mpr hwhole,
    allDigits_lowered.mpr hfraction, by simpa [lowered] using hne, isSome_power?_lowered hpower, ?_⟩
  rcases h with rfl | ⟨rfl, rfl⟩
  · exact Or.inl (by simp [lowered])
  · exact Or.inr ⟨rfl, by simp [lowered]⟩

theorem isSome_unsigned?_lowered {negative : Bool} {cs : List Char}
    (h : (unsigned? negative cs).isSome = true) :
    (unsigned? negative (lowered cs)).isSome = true := by
  unfold unsigned? at h ⊢
  rw [show (lowered cs).map Char.toLower = cs.map Char.toLower from lowered_lowered cs]
  simp only at h ⊢
  split
  · rfl
  · rename_i hinf
    rw [if_neg hinf] at h
    split
    · rfl
    · rename_i hnan
      rw [if_neg hnan, Option.isSome_map] at h
      rw [Option.isSome_map]
      exact isSome_magnitude?_lowered h

/-- **A literal in lower case is a literal.** -/
theorem isLiteral_lowered {cs : List Char} (h : isLiteral cs = true) :
    isLiteral (lowered cs) = true := by
  unfold isLiteral at h ⊢
  rcases cs with _ | ⟨c, cs⟩
  · exact h
  by_cases hminus : c = '-'
  · subst hminus
    exact isSome_unsigned?_lowered h
  by_cases hplus : c = '+'
  · subst hplus
    exact isSome_unsigned?_lowered h
  have hminus' : c.toLower ≠ '-' := fun heq => hminus (eq_of_toLower_eq heq (by decide))
  have hplus' : c.toLower ≠ '+' := fun heq => hplus (eq_of_toLower_eq heq (by decide))
  have hparse : ∀ {d : Char} {ds : List Char}, d ≠ '-' → d ≠ '+' →
      parse? (d :: ds) = unsigned? false (d :: ds) := by
    intro d ds hm hp
    rw [parse?.eq_def]
    split
    · exact absurd (List.cons.inj ‹_›).1 hm
    · exact absurd (List.cons.inj ‹_›).1 hp
    · rfl
  rw [hparse hminus hplus] at h
  have hlow : lowered (c :: cs) = c.toLower :: lowered cs := rfl
  rw [hlow, hparse hminus' hplus', ← hlow]
  exact isSome_unsigned?_lowered h

/-- How a number without a sign begins. -/
theorem magnitude?_start {c : Char} {cs : List Char} (h : (magnitude? (c :: cs)).isSome = true) :
    (c.isDigit = true ∨ c = '.') ∧
      ∀ d, cs.head? = some d → d.isDigit = true ∨ d ∈ ['.', 'e', 'E'] := by
  obtain ⟨whole, fraction, rest, hwhole, hfraction, hne, hpower, h⟩ := isSome_magnitude?_iff.mp h
  have hrest : ∀ d, rest.head? = some d → d ∈ ['.', 'e', 'E'] := by
    intro d hd
    rcases isSome_power?_iff.mp hpower with rfl | ⟨e, ds, hmark, -, -, rfl | rfl | rfl⟩
    · exact absurd hd (by simp)
    all_goals
      obtain rfl := Option.some.inj hd
      rcases hmark with rfl | rfl <;> decide
  rcases whole with _ | ⟨w, _ | ⟨w', whole⟩⟩
  · have hne' : fraction ≠ [] := hne.resolve_left (by simp)
    obtain ⟨f, fraction, rfl⟩ := List.exists_cons_of_ne_nil hne'
    rcases h with h | ⟨hnil, -⟩
    · obtain ⟨rfl, rfl⟩ := List.cons.inj h
      refine ⟨Or.inr rfl, fun d hd => Or.inl ?_⟩
      obtain rfl := Option.some.inj hd
      exact hfraction f List.mem_cons_self
    · exact absurd hnil (by simp)
  · rcases h with h | ⟨-, h⟩
    · obtain ⟨rfl, rfl⟩ := List.cons.inj h
      refine ⟨Or.inl (hwhole c List.mem_cons_self), fun d hd => Or.inr ?_⟩
      obtain rfl := Option.some.inj hd
      decide
    · obtain ⟨rfl, rfl⟩ := List.cons.inj h
      exact ⟨Or.inl (hwhole c List.mem_cons_self), fun d hd => Or.inr (hrest d hd)⟩
  · have hw' : w'.isDigit = true := hwhole w' (by simp)
    rcases h with h | ⟨-, h⟩ <;>
    · obtain ⟨rfl, rfl⟩ := List.cons.inj h
      refine ⟨Or.inl (hwhole c List.mem_cons_self), fun d hd => Or.inl ?_⟩
      obtain rfl := Option.some.inj hd
      exact hw'

end DecimalLiteral

namespace Yaml

open OntologyCompiler.Yaml.Core

/-! ## What looks like a number -/

/-- The signs of numbers. -/
def isSign (c : Char) : Bool :=
  c == '+' || c == '-'

/-- A literal has no mark of a base behind its signs. -/
theorem radixDigits?_of_isLiteral {cs : List Char} (h : isLiteral cs = true) :
    radixDigits? (cs.dropWhile isSign) = none := by
  have hplain : ∀ {negative : Bool} {ds : List Char}, (unsigned? negative ds).isSome = true →
      radixDigits? (ds.dropWhile isSign) = none := by
    intro negative ds hds
    by_contra hbase
    -- behind signs there would stand a zero and a mark
    have hzero : ∃ m rest, ds.dropWhile isSign = '0' :: m :: rest ∧ m ∈ ['x', 'o', 'b'] := by
      unfold radixDigits? at hbase
      split at hbase
      · exact ⟨_, _, ‹_›, by simp⟩
      · exact ⟨_, _, ‹_›, by simp⟩
      · exact ⟨_, _, ‹_›, by simp⟩
      · exact absurd rfl hbase
    obtain ⟨m, rest, hdrop, hm⟩ := hzero
    rcases ds with _ | ⟨c, ds⟩
    · exact absurd hdrop (by simp)
    by_cases hc : isSign c = true
    · -- a second sign begins neither a word nor a number
      have hcases : c = '+' ∨ c = '-' := by simpa [isSign] using hc
      have hi : c.toLower ≠ 'i' := by rcases hcases with rfl | rfl <;> decide
      have hn : c.toLower ≠ 'n' := by rcases hcases with rfl | rfl <;> decide
      rw [unsigned?_of_head hi hn, Option.isSome_map] at hds
      have hstart := (magnitude?_start hds).1
      rcases hcases with rfl | rfl <;> revert hstart <;> decide
    · rw [List.dropWhile_cons_of_neg hc] at hdrop
      obtain ⟨rfl, rfl⟩ := List.cons.inj hdrop
      rw [unsigned?_of_digit (by decide), Option.isSome_map] at hds
      have hsecond := (magnitude?_start hds).2 m rfl
      simp only [List.mem_cons, List.not_mem_nil, or_false] at hm
      rcases hm with rfl | rfl | rfl <;> revert hsecond <;> decide
  unfold isLiteral parse? at h
  split at h
  · have hrest := hplain h
    exact hrest
  · have hrest := hplain h
    exact hrest
  · exact hplain h

/-- **A literal looks like a number**, in whatever case it is written. -/
theorem looksNumeric_of_isLiteral {s : List Char} (h : isLiteral s = true) :
    looksNumeric s = true := by
  have hlower := isLiteral_lowered h
  have hradix := radixDigits?_of_isLiteral hlower
  unfold looksNumeric
  simp only
  split
  · rfl
  · rw [show (s.map Char.toLower).dropWhile (fun c => c == '+' || c == '-') =
      (lowered s).dropWhile isSign from rfl, hradix]
    simp only [Bool.or_eq_true]
    exact Or.inl hlower

/-- A text for an infinite number looks like a number. -/
theorem looksNumeric_of_isBeyond {s : List Char} (h : isBeyond s = true) :
    looksNumeric s = true := by
  rw [isBeyond, List.contains_iff_mem] at h
  have hall : ∀ w ∈ [".inf", ".Inf", ".INF", "+.inf", "+.Inf", "+.INF", "-.inf", "-.Inf", "-.INF",
      ".nan", ".NaN", ".NAN"], looksNumeric w.toList = true := by decide
  have hs := hall _ h
  rwa [String.toList_ofList] at hs

/-- A digit of a base in lower case. -/
theorem isDigitIn_toLower {base : Nat} {c : Char} (h : (digitValue? base c).isSome = true) :
    isDigitIn base c.toLower = true := by
  obtain ⟨n, hn⟩ := Option.isSome_iff_exists.mp h
  obtain ⟨hrank, hlt⟩ := Option.filter_eq_some_iff.mp hn
  rw [decide_eq_true_eq] at hlt
  have hnat := toNat_toLower c
  simp only [rank?, le_iff_toNat_le] at hrank
  unfold isDigitIn
  split at hrank
  · rename_i hdigit
    have hc : c.isDigit = true := by
      simpa [Char.isDigit, UInt32.le_iff_toNat_le] using hdigit
    obtain rfl := Option.some.inj hrank
    rw [isDigit_toLower, hc, if_pos rfl, toLower_of_isDigit hc]
    simpa using hlt
  · -- a letter of either case is the lower one
    have hletter : 97 ≤ c.toLower.toNat ∧ c.toLower.toNat - 87 = n := by
      have h0 : 'a'.toNat = 97 := rfl
      have h1 : 'A'.toNat = 65 := rfl
      have h2 : 'Z'.toNat = 90 := rfl
      split at hrank
      · rename_i hlow
        obtain rfl := Option.some.inj hrank
        split at hnat <;> omega
      · split at hrank
        · rename_i hup
          obtain rfl := Option.some.inj hrank
          split at hnat <;> omega
        · exact absurd hrank (by simp)
    have hnot : c.toLower.isDigit = false := by
      by_contra hdigit
      have := (toNat_of_isDigit (by simpa using hdigit)).2
      omega
    have h0 : 'a' ≤ c.toLower := le_iff_toNat_le.mpr hletter.1
    rw [hnot]
    simp [h0, hletter.2, hlt]

/-- A digit of base ten. -/
theorem isDigit_of_digitValue? {c : Char} (h : (digitValue? 10 c).isSome = true) :
    c.isDigit = true := by
  obtain ⟨n, hn⟩ := Option.isSome_iff_exists.mp h
  obtain ⟨hrank, hlt⟩ := Option.filter_eq_some_iff.mp hn
  rw [decide_eq_true_eq] at hlt
  simp only [rank?, le_iff_toNat_le] at hrank
  have h0 : 'a'.toNat = 97 := rfl
  have h1 : 'A'.toNat = 65 := rfl
  split at hrank
  · rename_i hdigit
    simpa [Char.isDigit, UInt32.le_iff_toNat_le] using hdigit
  · split at hrank
    · obtain rfl := Option.some.inj hrank
      omega
    · split at hrank
      · obtain rfl := Option.some.inj hrank
        omega
      · exact absurd hrank (by simp)

/-- The sign of a whole number and the numeral behind it. -/
theorem exists_sign_of_whole? {s : List Char} {n : Int} (h : whole? s = some n) :
    ∃ signs u m, s = signs ++ u ∧ (signs = [] ∨ signs = ['-'] ∨ signs = ['+']) ∧
      Core.magnitude? u = some m := by
  have hsome : ∀ {p : Option Nat} {f : Int → Int}, (do
      let a ← p
      return (a : Int)).map f = some n → ∃ m, p = some m := by
    rintro (_ | m) f hp
    · exact absurd hp (by simp)
    · exact ⟨m, rfl⟩
  unfold whole? at h
  split at h
  · exact absurd h (by simp)
  · split at h
    · obtain ⟨m, hm⟩ := hsome h
      exact ⟨['-'], _, m, rfl, by simp, hm⟩
    · obtain ⟨m, hm⟩ := hsome h
      rename_i hminus
      unfold Core.unsigned at hm
      split at hm
      · exact ⟨['+'], _, m, rfl, by simp, hm⟩
      · exact absurd rfl (hminus _)
      · exact ⟨[], s, m, rfl, by simp, hm⟩

/-- A numeral in another base looks like a number. -/
theorem looksNumeric_of_radix {signs ds : List Char} {k : Char} {base m : Nat}
    (hsigns : signs = [] ∨ signs = ['-'] ∨ signs = ['+'])
    (hk : (k, base) ∈ [('x', 16), ('o', 8), ('b', 2)]) (hm : numeral? base ds = some m) :
    looksNumeric (signs ++ '0' :: k :: ds) = true := by
  obtain ⟨hne, hds⟩ := digitValue?_of_numeral? hm
  have hdrop : ((signs ++ '0' :: k :: ds).map Char.toLower).dropWhile
      (fun c => c == '+' || c == '-') = '0' :: k :: ds.map Char.toLower := by
    simp only [List.mem_cons, Prod.mk.injEq, List.not_mem_nil, or_false] at hk
    rcases hsigns with rfl | rfl | rfl <;> rcases hk with ⟨rfl, -⟩ | ⟨rfl, -⟩ | ⟨rfl, -⟩ <;> rfl
  have hradix : radixDigits? ('0' :: k :: ds.map Char.toLower) =
      some (base, ds.map Char.toLower) := by
    simp only [List.mem_cons, Prod.mk.injEq, List.not_mem_nil, or_false] at hk
    rcases hk with ⟨rfl, rfl⟩ | ⟨rfl, rfl⟩ | ⟨rfl, rfl⟩ <;> rfl
  unfold looksNumeric
  simp only [hdrop, hradix]
  split
  · rfl
  · simp only [Bool.and_eq_true, Bool.not_eq_true', List.isEmpty_eq_false_iff, List.all_eq_true,
      List.mem_map, Bool.or_eq_true]
    refine ⟨by simpa using hne, ?_⟩
    rintro _ ⟨c, hc, rfl⟩
    exact Or.inr (isDigitIn_toLower (hds c hc))

/-- Digits behind a sign are a literal. -/
theorem isLiteral_digits {signs u : List Char} (hsigns : signs = [] ∨ signs = ['-'] ∨ signs = ['+'])
    (hne : u ≠ []) (hu : AllDigits u) : isLiteral (signs ++ u) = true := by
  have hmagnitude : (DecimalLiteral.magnitude? u).isSome = true :=
    isSome_magnitude?_iff.mpr ⟨u, [], [], hu, by simp [AllDigits], Or.inl hne, rfl,
      Or.inr ⟨rfl, (List.append_nil u).symm⟩⟩
  obtain ⟨c, rest, rfl⟩ := List.exists_cons_of_ne_nil hne
  have hc := hu c List.mem_cons_self
  have hread : ∀ negative, (unsigned? negative (c :: rest)).isSome = true := by
    intro negative
    rw [unsigned?_of_digit hc, Option.isSome_map]
    exact hmagnitude
  unfold isLiteral
  rcases hsigns with rfl | rfl | rfl
  · rw [List.nil_append, parse?.eq_def]
    split
    · exact absurd ((List.cons.inj ‹_›).1 ▸ hc) (by decide)
    · exact absurd ((List.cons.inj ‹_›).1 ▸ hc) (by decide)
    · exact hread false
  · exact hread true
  · exact hread false

/-- **A whole number looks like a number.** -/
theorem looksNumeric_of_whole? {s : List Char} {n : Int} (h : whole? s = some n) :
    looksNumeric s = true := by
  obtain ⟨signs, u, m, rfl, hsigns, hm⟩ := exists_sign_of_whole? h
  unfold Core.magnitude? at hm
  split at hm
  · exact looksNumeric_of_radix hsigns (by simp) hm
  · exact looksNumeric_of_radix hsigns (by simp) hm
  · exact looksNumeric_of_radix hsigns (by simp) hm
  · obtain ⟨hne, hu⟩ := digitValue?_of_numeral? hm
    exact looksNumeric_of_isLiteral
      (isLiteral_digits hsigns hne fun c hc => isDigit_of_digitValue? (hu c hc))

/-! ## Texts without quotes -/

/-- A text among some words, all of which are reserved in lower case, is quoted. -/
theorem not_mem_words (words : List String) {s : List Char}
    (hwords : ∀ w ∈ words,
      reservedWords.contains (String.ofList (w.toList.map Char.toLower)) = true)
    (h : needsQuotes s = false) : String.ofList s ∉ words := by
  intro hmem
  have hreserved := hwords _ hmem
  rw [String.toList_ofList] at hreserved
  simp only [needsQuotes, Bool.or_eq_false_iff] at h
  rw [h.1.2] at hreserved
  exact absurd hreserved (by decide)

section Unquoted

variable {s : List Char}

/-- A text without quotes is no word for nothing. -/
theorem isNull_unquoted (h : needsQuotes s = false) : isNull s = false := by
  rw [isNull, ← Bool.not_eq_true, List.contains_iff_mem]
  exact not_mem_words _ (by decide) h

/-- A text without quotes is no word for a truth value. -/
theorem truth?_unquoted (h : needsQuotes s = false) : truth? s = none := by
  rw [truth?, List.lookup_eq_none_iff]
  intro p hp
  rw [bne_iff_ne]
  intro heq
  refine not_mem_words ["true", "True", "TRUE", "false", "False", "FALSE"] (by decide) h ?_
  rw [heq]
  exact List.mem_map_of_mem (f := Prod.fst) hp

theorem looksNumeric_unquoted (h : needsQuotes s = false) : looksNumeric s = false := by
  simp only [needsQuotes, Bool.or_eq_false_iff] at h
  exact h.2

/-- A text without quotes is no whole number. -/
theorem whole?_unquoted (h : needsQuotes s = false) : whole? s = none := by
  by_contra hsome
  obtain ⟨n, hn⟩ := Option.ne_none_iff_exists'.mp hsome
  have hnumeric := looksNumeric_unquoted h
  rw [looksNumeric_of_whole? hn] at hnumeric
  exact absurd hnumeric (by decide)

/-- A text without quotes is no other number either. -/
theorem real?_unquoted (h : needsQuotes s = false) : real? s = none := by
  have hnumeric := looksNumeric_unquoted h
  have hbeyond : isBeyond s = false := by
    by_contra hb
    rw [looksNumeric_of_isBeyond (by simpa using hb)] at hnumeric
    exact absurd hnumeric (by decide)
  have hparse : parse? s = none := by
    by_contra hsome
    rw [looksNumeric_of_isLiteral (Option.isSome_iff_ne_none.mpr hsome)] at hnumeric
    exact absurd hnumeric (by decide)
  simp [real?, hbeyond, hparse]

/-- **A text without quotes stands for itself.** -/
theorem value?_unquoted (h : needsQuotes s = false) :
    Core.value? s = some (.str (String.ofList s)) := by
  have hempty : s.isEmpty = false := by
    simp only [needsQuotes, Bool.or_eq_false_iff] at h
    exact h.1.1.1.1.1
  unfold Core.value?
  rw [hempty, isNull_unquoted h, truth?_unquoted h, whole?_unquoted h, real?_unquoted h]
  simp

end Unquoted

end Yaml
end OntologyCompiler
