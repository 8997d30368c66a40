import OntologyCompiler.Reading.Medium

/-!
# JSON values as a medium

A JSON value is read as a type in the obvious way: texts as texts, objects as records and maps,
arrays as lists and as records given by position. A variant is a text, or an object with the text as
its only name and `null` as the value.

* `Json.found`: how a fault speaks of a value that is not what was looked for.
-/

namespace OntologyCompiler.Json

/-- What a value is, in words of a fault. -/
def found : Json → Found
  | null => .null
  | bool b => .bool b
  | num n => .number n
  | str s => .text s
  | arr _ => .sequence
  | obj _ => .map

/-- The value `null` and no other. -/
def unit : Json → Except Fault Unit
  | null => .ok ()
  | v => .error (.mistyped v.found "unit")

/-- A whole number below 256. -/
def byteOf : Number → Except Fault UInt8
  | .whole n => if 0 ≤ n ∧ n < 256 then .ok (UInt8.ofNat n.toNat) else .error (.outOfRange n "u8")
  | .real x => .error (.mistyped (.number (.real x)) "u8")

instance : Medium Json (Except Fault) where
  text
    | str s => .ok s
    | v => .error (.mistyped v.found "a string")
  flag
    | bool b => .ok b
    | v => .error (.mistyped v.found "a boolean")
  byte
    | num n => byteOf n
    | v => .error (.mistyped v.found "u8")
  present?
    | null => .ok none
    | v => .ok (some v)
  free v := .ok v
  skip _ := .ok ()
  choice
    | str s => .ok ⟨s, .ok ()⟩
    | obj [(k, v)] => .ok ⟨k, v.unit⟩
    | obj _ => .error .notOneKey
    | v => .error (.mistyped v.found "string or map")
  items
    | arr items => .ok ⟨items, .ok ()⟩
    | v => .error (.mistyped v.found "a sequence")
  members
    | obj members => .ok ⟨members.map fun m => (.ok m.1, m.2), .ok ()⟩
    | v => .error (.mistyped v.found "a map")
  layout record
    | arr items => .ok (.positional ⟨items, .ok ()⟩)
    | obj members => .ok (.named ⟨members.map fun m => (.ok m.1, m.2), .ok ()⟩)
    | v => .error (.mistyped v.found ("struct " ++ record))
  height := Json.height
  surplus count := .tooLong count

end OntologyCompiler.Json
