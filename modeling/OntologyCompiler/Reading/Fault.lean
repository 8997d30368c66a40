import OntologyCompiler.Json.Basic
import OntologyCompiler.Text.Quotation

/-!
# What can be wrong with a document

A document is read as a given type. Either its text is broken, or it is well formed and has another
shape than the type asks for; the second kind says what was found and what was wanted.

* `Fault.message`: the wording, none for a broken text.
-/

namespace OntologyCompiler

/-- What stands in a document where something else is wanted. -/
inductive Found where
  | null
  | bool (b : Bool)
  | number (n : Number)
  | text (s : String)
  | sequence
  | map
  deriving DecidableEq

/-- A reason why a document cannot be read. -/
inductive Fault where
  /-- The text breaks the rules of its notation. -/
  | malformed
  /-- Another kind of value than the wanted one. -/
  | mistyped (found : Found) (want : String)
  /-- A whole number outside the wanted range. -/
  | outOfRange (n : Int) (want : String)
  /-- A variant given by an object that has not exactly one member. -/
  | notOneKey
  /-- A required field that is not there. -/
  | missing (field : String)
  /-- A field that is given twice. -/
  | duplicate (field : String)
  /-- A name outside the variants of a type. -/
  | unknownVariant (given : String) (known : List String)
  /-- A record given as a list that ends before a required field. -/
  | tooShort (count : Nat) (record : String) (size : Nat)
  /-- A record given as a list with more items than fields. -/
  | tooLong (count : Nat)
  deriving DecidableEq

namespace Found

/-- A name between accents. -/
def accented (s : String) : String :=
  "\x60" ++ s ++ "\x60"

/-- The words for what was found. -/
def words : Found → String
  | null => "null"
  | bool b => "boolean " ++ accented (if b then "true" else "false")
  | number (.whole n) => "integer " ++ accented (String.ofList (Number.wholeDigits n))
  | number (.real x) => "floating point " ++ accented (String.ofList x.digits)
  | text s => "string " ++ Text.quotation s
  | sequence => "sequence"
  | map => "map"

end Found

namespace Fault

/-- The names a variant may have, as a phrase. -/
def oneOf : List String → String
  | [a, b] => Found.accented a ++ " or " ++ Found.accented b
  | names => "one of " ++ ", ".intercalate (names.map Found.accented)

/-- A count of elements. -/
def elements (n : Nat) : String :=
  toString n ++ (if n = 1 then " element" else " elements")

/-- The wording of a fault of shape. -/
def message : Fault → Option String
  | malformed => none
  | mistyped found want => some ("invalid type: " ++ found.words ++ ", expected " ++ want)
  | outOfRange n want =>
    some ("invalid value: " ++ (Found.number (.whole n)).words ++ ", expected " ++ want)
  | notOneKey => some "invalid value: map, expected map with a single key"
  | missing field => some ("missing field " ++ Found.accented field)
  | duplicate field => some ("duplicate field " ++ Found.accented field)
  | unknownVariant given known =>
    some ("unknown variant " ++ Found.accented given ++ ", expected " ++ oneOf known)
  | tooShort count record size =>
    some ("invalid length " ++ toString count ++ ", expected struct " ++ record ++ " with "
      ++ elements size)
  | tooLong count =>
    some ("invalid length " ++ toString count ++ ", expected fewer elements in array")

end Fault
end OntologyCompiler
