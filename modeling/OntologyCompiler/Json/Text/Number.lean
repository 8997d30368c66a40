import OntologyCompiler.Json.Basic

/-!
# Number literals of JSON text

A literal is a sign, whole digits, digits after the point and a power of ten. Without point and
power it is a whole number when it fits, minus zero apart. Every other literal is a double: as many
digits as fit into 64 bits make a whole number, which is rounded to a double and then multiplied or
divided by a rounded power of ten.

* `numberLiteral`: the literal at the front of a text.
* `NumberLiteral.value?`: the number that a literal stands for.
-/

namespace OntologyCompiler.Json

-- Powers are those of the core library, whatever else is imported; so exponents carry their type.
attribute [local instance (high)] instPowNat

/-- A number literal taken apart. -/
structure NumberLiteral where
  negative : Bool
  whole : List Nat
  fraction : Option (List Nat)
  power : Option (Bool × List Nat)

namespace NumberLiteral

/-- The largest number of 64 bits. -/
def limit : Nat := 2 ^ (64 : Nat) - 1

/-- The digits that fit into 64 bits, as a number, and how many digits are left over. -/
def wholePart : Nat → List Nat → Nat × Nat
  | n, [] => (n, 0)
  | n, d :: rest => if n * 10 + d ≤ limit then wholePart (n * 10 + d) rest else (n, rest.length + 1)

/-- The number continued with the digits after the point, as far as it fits into 64 bits, and how
many of them it took. -/
def fractionPart : Nat → List Nat → Nat × Nat
  | n, [] => (n, 0)
  | n, d :: rest =>
    if n * 10 + d ≤ limit then
      let (m, count) := fractionPart (n * 10 + d) rest
      (m, count + 1)
    else (n, 0)

/-- The number that digits spell. -/
def spelled (ds : List Nat) : Nat :=
  ds.foldl (fun n d => n * 10 + d) 0

/-- The double nearest to a power of ten. -/
def powerOfTen? (n : Nat) : Option Double :=
  Double.ofDecimal? ⟨1, n⟩

/-- Divide a number of 64 bits by `10 ^ n`, in steps of at most 308 places; nothing is left of it
after two full steps. -/
def divided (x : Double) (n : Nat) : Option Double := do
  if n ≤ 308 then x.div? (← powerOfTen? n)
  else if n ≤ 616 then (← x.div? (← powerOfTen? 308)).div? (← powerOfTen? (n - 308))
  else some (Double.zero false)

/-- Multiply a magnitude by a power of ten. -/
def scaled (x : Double) (power : Int) : Option Double :=
  if power < 0 then divided x power.natAbs
  else if power ≤ 308 then do x.mul? (← powerOfTen? power.natAbs)
  else if x.isZero then some x
  else none

/-- The largest power of ten that is looked at. -/
def powerLimit : Nat := 2 ^ (31 : Nat) - 1

/-- The double of a literal. -/
def real? (l : NumberLiteral) : Option Double := do
  let (n, left) := wholePart 0 l.whole
  let (n, taken) := fractionPart n (l.fraction.getD [])
  let start : Int := (left : Int) - taken
  let magnitude ←
    match l.power with
    | none => do scaled (← Double.nearest? n 1) start
    | some (down, ds) =>
      let p := spelled ds
      if powerLimit < p then
        if n = 0 ∨ down then some (Double.zero false) else none
      else do scaled (← Double.nearest? n 1) (if down then start - p else start + p)
  return magnitude.withSign l.negative

/-- The value of a literal; none if it is beyond the largest double. -/
def value? (l : NumberLiteral) : Option Number :=
  let n := spelled l.whole
  if l.fraction.isNone ∧ l.power.isNone then
    if l.negative then
      if 0 < n ∧ n ≤ 2 ^ (63 : Nat) then some (.whole (-n)) else l.real?.map .real
    else if n ≤ limit then some (.whole n) else l.real?.map .real
  else l.real?.map .real

end NumberLiteral

/-- The value of a decimal digit. -/
def digitOf (c : Char) : Nat :=
  c.toNat - 48

/-- The digits at the front of a text, and the rest. -/
def digitRun (cs : List Char) : List Nat × List Char :=
  ((cs.takeWhile Char.isDigit).map digitOf, cs.dropWhile Char.isDigit)

/-- The digits after a point, if there is a point; at least one digit has to follow it. -/
def fractionRun : List Char → Option (Option (List Nat) × List Char)
  | '.' :: cs =>
    match digitRun cs with
    | ([], _) => none
    | (ds, rest) => some (some ds, rest)
  | cs => some (none, cs)

/-- The digits of a power of ten with its sign; at least one digit has to be there. -/
def powerDigits (down : Bool) (cs : List Char) :
    Option (Option (Bool × List Nat) × List Char) :=
  match digitRun cs with
  | ([], _) => none
  | (ds, rest) => some (some (down, ds), rest)

/-- A power of ten, if there is one. -/
def powerRun : List Char → Option (Option (Bool × List Nat) × List Char)
  | [] => some (none, [])
  | c :: cs =>
    if c = 'e' ∨ c = 'E' then
      match cs with
      | '+' :: cs => powerDigits false cs
      | '-' :: cs => powerDigits true cs
      | cs => powerDigits false cs
    else some (none, c :: cs)

/-- The whole digits of a literal: a zero alone, or digits that do not start with zero. -/
def wholeRun (cs : List Char) : Option (List Nat × List Char) :=
  match digitRun cs with
  | ([], _) => none
  | (0 :: _ :: _, _) => none
  | (ds, rest) => some (ds, rest)

/-- A number literal at the front of a text, and the rest. -/
def numberLiteral (cs : List Char) : Option (NumberLiteral × List Char) := do
  let (negative, cs) := match cs with
    | '-' :: cs => (true, cs)
    | cs => (false, cs)
  let (whole, cs) ← wholeRun cs
  let (fraction, cs) ← fractionRun cs
  let (power, cs) ← powerRun cs
  return (⟨negative, whole, fraction, power⟩, cs)

end OntologyCompiler.Json
