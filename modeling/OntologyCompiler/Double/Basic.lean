/-!
# Binary floating point with 53 bits

A finite double is a sign and a magnitude `mantissa * 2 ^ exponent / 2 ^ 1074`. The mantissa is
below `2 ^ 53`, and it is at least `2 ^ 52` unless the exponent is the least one, so that each value
has one form (and zero has one of either sign). All arithmetic is exact on natural numbers and
rounded once at the end.

* `halfEven_exact`: an exact quotient is not rounded.
* `nearest?` is the nearest double to a quotient, ties going to the even mantissa.
-/

namespace OntologyCompiler

-- Powers are those of the core library, whatever else is imported; so exponents carry their type.
attribute [local instance (high)] instPowNat

/-- The forms a magnitude may take. -/
def Double.Fits (mantissa exponent : Nat) : Prop :=
  mantissa < 2 ^ (53 : Nat) ∧ exponent ≤ 2045 ∧ (exponent = 0 ∨ 2 ^ (52 : Nat) ≤ mantissa)

instance (mantissa exponent : Nat) : Decidable (Double.Fits mantissa exponent) := by
  unfold Double.Fits; infer_instance

/-- A finite double. -/
structure Double where
  negative : Bool
  mantissa : Nat
  exponent : Nat
  fits : Double.Fits mantissa exponent
  deriving DecidableEq

namespace Double

/-- Zero of either sign. -/
def zero (negative : Bool) : Double :=
  ⟨negative, 0, 0, by decide⟩

instance : Inhabited Double := ⟨zero false⟩

/-- The denominator of every magnitude. -/
def unit : Nat := 2 ^ (1074 : Nat)

/-- The numerator of a magnitude over `unit`. -/
def numerator (x : Double) : Nat :=
  x.mantissa * 2 ^ x.exponent

/-- Whether a double is zero of either sign. -/
def isZero (x : Double) : Bool :=
  x.mantissa == 0

/-- The magnitude with a sign of one's own choice. -/
def withSign (x : Double) (negative : Bool) : Double :=
  { x with negative := negative }

/-- The whole number nearest to `num / den`, a half going to the even neighbour. -/
def halfEven (num den : Nat) : Nat :=
  let q := num / den
  let r := num % den
  if 2 * r < den then q else if den < 2 * r then q + 1 else q + q % 2

theorem halfEven_exact {q den : Nat} (h : 0 < den) : halfEven (q * den) den = q := by
  have hm : q * den % den = 0 := Nat.mul_mod_left q den
  have hd : q * den / den = q := Nat.mul_div_cancel q h
  simp [halfEven, hm, hd, h]

/-- The magnitude nearest to `num / den`, a tie going to the even mantissa; none beyond the largest
finite one. -/
def nearest? (num den : Nat) : Option Double :=
  let scaled := num * unit
  let exponent := ((scaled / den).log2 + 1) - 53
  let mantissa := halfEven scaled (den * 2 ^ exponent)
  if h : Fits mantissa exponent then some ⟨false, mantissa, exponent, h⟩
  else if h : Fits (2 ^ (52 : Nat)) (exponent + 1) then
    some ⟨false, 2 ^ (52 : Nat), exponent + 1, h⟩
  else none

/-- The rounded product of two magnitudes. -/
def mul? (x y : Double) : Option Double :=
  nearest? (x.numerator * y.numerator) (unit * unit)

/-- The rounded quotient of two magnitudes, the second not zero. -/
def div? (x y : Double) : Option Double :=
  nearest? x.numerator y.numerator

end Double
end OntologyCompiler
