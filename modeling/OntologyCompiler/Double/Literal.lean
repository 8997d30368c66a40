import OntologyCompiler.Double.Decimal

/-!
# Decimal literals

A literal is an optional sign before digits with at most one point among or beside them and an
optional power of ten, or before a word for infinity or for what is no number. At least one digit
has to stand beside the point.

* `DecimalLiteral.parse?`: what a text stands for as a literal.
* `DecimalLiteral.double?`: the double of a literal.
-/

namespace OntologyCompiler

/-- What a literal stands for. -/
inductive DecimalLiteral where
  | finite (negative : Bool) (magnitude : Decimal)
  | infinite (negative : Bool)
  | noNumber

namespace DecimalLiteral

/-- The number that digits spell. -/
def spelled (ds : List Char) : Nat :=
  ds.foldl (fun n c => n * 10 + (c.toNat - 48)) 0

/-- The power of ten at the end of a literal; without a mark it is zero. -/
def power? : List Char → Option Int
  | [] => some 0
  | c :: cs =>
    if c = 'e' ∨ c = 'E' then
      let (negative, ds) := match cs with
        | '-' :: ds => (true, ds)
        | '+' :: ds => (false, ds)
        | ds => (false, ds)
      if ds.isEmpty || !ds.all Char.isDigit then none
      else some (if negative then -(spelled ds : Int) else spelled ds)
    else none

/-- Digits with a point, followed by a power of ten. -/
def magnitude? (cs : List Char) : Option Decimal :=
  let whole := cs.takeWhile Char.isDigit
  let rest := cs.dropWhile Char.isDigit
  let (fraction, rest) := match rest with
    | '.' :: rest => (rest.takeWhile Char.isDigit, rest.dropWhile Char.isDigit)
    | rest => ([], rest)
  if whole.isEmpty && fraction.isEmpty then none
  else do
    let power ← power? rest
    return ⟨spelled (whole ++ fraction), power - fraction.length⟩

/-- A literal without its sign. -/
def unsigned? (negative : Bool) (cs : List Char) : Option DecimalLiteral :=
  let word := String.ofList (cs.map Char.toLower)
  if word = "inf" ∨ word = "infinity" then some (.infinite negative)
  else if word = "nan" then some .noNumber
  else (magnitude? cs).map (.finite negative)

/-- The literal that a text is. -/
def parse? : List Char → Option DecimalLiteral
  | '-' :: cs => unsigned? true cs
  | '+' :: cs => unsigned? false cs
  | cs => unsigned? false cs

/-- Whether a text is a literal. -/
def isLiteral (cs : List Char) : Bool :=
  (parse? cs).isSome

/-- The double of a literal; none if it is not finite. -/
def double? : DecimalLiteral → Option Double
  | finite negative d => (Double.ofDecimal? d).map (·.withSign negative)
  | infinite _ => none
  | noNumber => none

end DecimalLiteral
end OntologyCompiler
