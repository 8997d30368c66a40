import OntologyCompiler.Double.Basic

/-!
# Decimal numbers and doubles

A decimal number is `significand * 10 ^ exponent`. `ofDecimal?` reads one as the nearest double;
`shortest` goes back and gives the decimal number with the fewest digits that reads as the same
double, and of these the nearest.

* `fewest?_reads`: a decimal number that `fewest?` gives reads back as the double it was made from.
-/

namespace OntologyCompiler

-- Powers are those of the core library, whatever else is imported; so exponents carry their type.
attribute [local instance (high)] instPowNat

/-- The number `significand * 10 ^ exponent`. -/
structure Decimal where
  significand : Nat
  exponent : Int
  deriving Repr, DecidableEq

namespace Double

/-- The number of decimal digits of `n`; zero has one. -/
def digitCount (n : Nat) : Nat :=
  (Nat.toDigits 10 n).length

/-- The double nearest to a decimal number; none beyond the largest finite one. A number whose first
digit stands far outside the range of doubles is settled by the place of that digit alone. -/
def ofDecimal? (d : Decimal) : Option Double :=
  if d.significand = 0 then some (zero false)
  else
    let top : Int := digitCount d.significand + d.exponent
    if 400 < top then none
    else if top < -400 then some (zero false)
    else if 0 ≤ d.exponent then nearest? (d.significand * 10 ^ d.exponent.toNat) 1
    else nearest? d.significand (10 ^ (-d.exponent).toNat)

/-- The place of the decimal point of a magnitude above zero: the least `k` with `x < 10 ^ k`. -/
def pointPlace (x : Double) : Int :=
  (digitCount (x.numerator * 10 ^ (400 : Nat) / unit) : Int) - 400

/-- Whether a decimal number reads as the magnitude `x`. -/
def reads (x : Double) (d : Decimal) : Bool :=
  ofDecimal? d == some (x.withSign false)

/-- The two decimal numbers of `count` digits next to the magnitude `x`, the nearer one first; of
two equally near ones the even one. -/
def neighbours (x : Double) (count : Nat) : List Decimal :=
  let exponent := x.pointPlace - (count : Int)
  let num := x.numerator * 10 ^ (-exponent).toNat
  let den := unit * 10 ^ exponent.toNat
  let below := num / den
  let near := halfEven num den
  [⟨near, exponent⟩, ⟨below + 1 - (near - below), exponent⟩]

/-- The decimal number of fewest digits, at most 17, that reads as the magnitude `x`; of several the
nearest. -/
def fewest? (x : Double) : Option Decimal :=
  (List.range 17).findSome? fun i => (x.neighbours (i + 1)).find? x.reads

/-- What `unit` lacks to be a power of ten. -/
def fives : Nat := 5 ^ (1074 : Nat)

/-- The magnitude as a decimal number, with no rounding at all. -/
def exact (x : Double) : Decimal :=
  ⟨x.numerator * fives, Int.negSucc 1073⟩

/-- The decimal number of fewest digits that reads as the magnitude `x`, which is not zero. -/
def shortest (x : Double) : Decimal :=
  x.fewest?.getD x.exact

theorem fewest?_reads {x : Double} {d : Decimal} (h : x.fewest? = some d) :
    ofDecimal? d = some (x.withSign false) := by
  obtain ⟨i, _, hi⟩ := List.exists_of_findSome?_eq_some h
  have hr : x.reads d = true := List.find?_some hi
  rw [reads, beq_iff_eq] at hr
  exact hr

/-- The digits of a decimal number without the zeros at its end, and the place of its point: the
number is `0.DIGITS * 10 ^ place`. -/
def digitsAndPlace (d : Decimal) : List Char × Int :=
  let digits := Nat.toDigits 10 d.significand
  let kept := (digits.reverse.dropWhile (· == '0')).reverse
  (kept, digits.length + d.exponent)

/-- How doubles are written: positionally from `10 ^ -5` up to below `10 ^ 16` and with a signed
power of ten outside that range; a whole number keeps `.0`. -/
def digits (x : Double) : List Char :=
  let sign := if x.negative then ['-'] else []
  if x.isZero then sign ++ ['0', '.', '0']
  else
    let (ds, place) := digitsAndPlace x.shortest
    let power := place - 1
    if power < -5 ∨ 16 ≤ power then
      let fraction := if ds.length ≤ 1 then [] else '.' :: ds.drop 1
      let mark := if power < 0 then ['e', '-'] else ['e', '+']
      sign ++ ds.take 1 ++ fraction ++ mark ++ Nat.toDigits 10 power.natAbs
    else if place ≤ 0 then
      sign ++ ['0', '.'] ++ List.replicate (-place).toNat '0' ++ ds
    else if (ds.length : Int) ≤ place then
      sign ++ ds ++ List.replicate (place.toNat - ds.length) '0' ++ ['.', '0']
    else sign ++ ds.take place.toNat ++ ['.'] ++ ds.drop place.toNat

end Double
end OntologyCompiler
