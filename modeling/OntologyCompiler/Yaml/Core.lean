import OntologyCompiler.Double.Literal
import OntologyCompiler.Json.Basic
import OntologyCompiler.Text.Digit
import OntologyCompiler.Yaml.Tag

/-!
# What plain texts stand for

A plain text stands for nothing, a truth value, a whole number, another number, or itself.

* `Core.value?`: the value that a plain text stands for.
-/

namespace OntologyCompiler.Yaml.Core

-- Powers are those of the core library, whatever else is imported; so exponents carry their type.
attribute [local instance (high)] instPowNat

/-- The tag that the notation itself gives to a kind of value. -/
def tag (kind : String) : Tag :=
  .ofString ("tag:yaml.org,2002:" ++ kind)

/-- Whether a text is a word for nothing. -/
def isNull (cs : List Char) : Bool :=
  ["null", "Null", "NULL", "~"].contains (String.ofList cs)

/-- The truth value that a text is a word for. -/
def truth? (cs : List Char) : Option Bool :=
  [("true", true), ("True", true), ("TRUE", true), ("false", false), ("False", false),
    ("FALSE", false)].lookup (String.ofList cs)

/-- A number without a sign: digits of base sixteen, eight or two after a mark, or decimal digits.
-/
def magnitude? : List Char → Option Nat
  | '0' :: 'x' :: ds => Text.numeral? 16 ds
  | '0' :: 'o' :: ds => Text.numeral? 8 ds
  | '0' :: 'b' :: ds => Text.numeral? 2 ds
  | ds => Text.numeral? 10 ds

/-- A text without its sign. -/
def unsigned : List Char → List Char
  | '+' :: cs => cs
  | '-' :: cs => cs
  | cs => cs

/-- Whether a text is digits after a needless zero. -/
def isPadded (cs : List Char) : Bool :=
  match unsigned cs with
  | '0' :: d :: ds => (d :: ds).all Char.isDigit
  | _ => false

/-- The whole number that a text is. -/
def whole? (cs : List Char) : Option Int :=
  if isPadded cs then none
  else
    match cs with
    | '-' :: ds => (magnitude? ds).map fun n => -(n : Int)
    | ds => (magnitude? (unsigned ds)).map fun n => (n : Int)

/-- Whole numbers that are told apart from others, though not all of them have a value. -/
def IsKnown (n : Int) : Prop :=
  -(2 ^ (127 : Nat)) ≤ n ∧ n < 2 ^ (128 : Nat)

instance (n : Int) : Decidable (IsKnown n) := by
  unfold IsKnown; infer_instance

/-- A text for an infinite number, or for none. -/
def isBeyond (cs : List Char) : Bool :=
  [".inf", ".Inf", ".INF", "+.inf", "+.Inf", "+.INF", "-.inf", "-.Inf", "-.INF", ".nan", ".NaN",
    ".NAN"].contains (String.ofList cs)

/-- The number that a text is as a value; nothing for one that is not finite. -/
def real? (cs : List Char) : Option Json :=
  if isBeyond cs then some .null
  else ((DecimalLiteral.parse? cs).bind (·.double?)).map fun x => .num (.real x)

/-- The value of a whole number; none if it is too large. -/
def wholeValue? (n : Int) : Option Json :=
  if Number.InRange n then some (.num (.whole n)) else none

/-- The value that a plain text stands for; none if it is a whole number that is too large. -/
def value? (cs : List Char) : Option Json :=
  if cs.isEmpty || isNull cs then some .null
  else
    match truth? cs, (whole? cs).filter (IsKnown ·) with
    | some b, _ => some (.bool b)
    | none, some n => wholeValue? n
    | none, none =>
      let text := Json.str (String.ofList cs)
      some (if isPadded cs then text else (real? cs).getD text)

/-- The value of a text under a tag of the notation; none if it is of another kind. -/
def valueOf? (t : Tag) (cs : List Char) : Option Json :=
  if t = tag "null" then if isNull cs then some .null else none
  else if t = tag "bool" then (truth? cs).map .bool
  else if t = tag "int" then ((whole? cs).filter (IsKnown ·)).bind wholeValue?
  else if t = tag "float" then real? cs
  else some (.str (String.ofList cs))

end OntologyCompiler.Yaml.Core
