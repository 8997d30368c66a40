/-!
# Digits and numerals

Digits of any base up to sixteen and beyond: `0` to `9`, then the letters of either case.
-/

namespace OntologyCompiler.Text

/-- The value of a character among the digits and letters. -/
def rank? (c : Char) : Option Nat :=
  if '0' ≤ c ∧ c ≤ '9' then some (c.toNat - 48)
  else if 'a' ≤ c ∧ c ≤ 'z' then some (c.toNat - 87)
  else if 'A' ≤ c ∧ c ≤ 'Z' then some (c.toNat - 55)
  else none

/-- The value of a digit in a base. -/
def digitValue? (base : Nat) (c : Char) : Option Nat :=
  (rank? c).filter (· < base)

/-- The number that digits spell after a number that has been spelled. -/
def spelled? (base : Nat) : Nat → List Char → Option Nat
  | n, [] => some n
  | n, c :: cs => do spelled? base (n * base + (← digitValue? base c)) cs

/-- The number that a numeral without a sign spells. -/
def numeral? (base : Nat) (cs : List Char) : Option Nat :=
  if cs.isEmpty then none else spelled? base 0 cs

end OntologyCompiler.Text
