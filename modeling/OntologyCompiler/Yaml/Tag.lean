import OntologyCompiler.Text.Digit

/-!
# Tags

A tag is a string of bytes. In a document it is written in characters of ASCII; any byte but zero
can be written as two digits after a percent sign. Such bytes have to come in groups of the form
that characters have, though a group need not be a character.

* `Tag.ofChars?`: the tag that is written in characters.
* `Tag.variant?`: the name in a tag of a variant.
-/

namespace OntologyCompiler.Yaml

/-- The bytes of a tag. -/
structure Tag where
  bytes : List UInt8
  deriving DecidableEq

namespace Tag

/-- The mark that a tag for one document begins with. -/
def mark : UInt8 := 0x21

/-- A text as a tag. -/
def ofString (s : String) : Tag :=
  ⟨s.toUTF8.toList⟩

/-- One tag after another. -/
def append (s t : Tag) : Tag :=
  ⟨s.bytes ++ t.bytes⟩

instance : Append Tag := ⟨append⟩

/-- Whether a tag begins with a mark. -/
def isMarked (t : Tag) : Bool :=
  t.bytes.head? == some mark

/-- The text of a tag; none if its bytes are no text. -/
def text? (t : Tag) : Option String :=
  String.fromUTF8? ⟨t.bytes.toArray⟩

/-- The name after the mark of a tag that begins with one. -/
def variant? (t : Tag) : Option String :=
  if t.isMarked then text? ⟨t.bytes.drop 1⟩ else none

/-- How many bytes follow the first one of a group; none for a byte that is not the first one. -/
def followers? (byte : Nat) : Option Nat :=
  if byte < 0x80 then some 0
  else if byte < 0xC0 then none
  else if byte < 0xE0 then some 1
  else if byte < 0xF0 then some 2
  else if byte < 0xF8 then some 3
  else none

/-- The bytes that characters stand for, where so many bytes of a group are still to come. -/
def bytesOf? : Nat → List Char → Option (List UInt8)
  | missing, [] => if missing = 0 then some [] else none
  | missing, '%' :: a :: b :: rest => do
    let byte ← Text.numeral? 16 [a, b]
    let missing ←
      match missing with
      | 0 => followers? byte
      | missing + 1 => if 0x80 ≤ byte ∧ byte < 0xC0 then some missing else none
    return UInt8.ofNat byte :: (← bytesOf? missing rest)
  | missing, c :: rest =>
    if c = '%' || missing != 0 then none else (UInt8.ofNat c.toNat :: ·) <$> bytesOf? missing rest

/-- The tag that is written in characters; a byte of zero cuts it short. -/
def ofChars? (cs : List Char) : Option Tag :=
  (bytesOf? 0 cs).map fun bytes => ⟨bytes.takeWhile (· != 0)⟩

end Tag
end OntologyCompiler.Yaml
