/-!
# Blank characters

The Unicode class `White_Space` as a list of code point ranges, and stripping blanks off the ends
of a text. Zero-width characters and the information separators `U+001C` to `U+001F` are not
blank.
-/

namespace OntologyCompiler.Text

/-- Membership of a character in a list of code point ranges, both ends included. -/
def within (ranges : List (Nat × Nat)) (c : Char) : Bool :=
  ranges.any fun r => r.1 ≤ c.toNat && c.toNat ≤ r.2

/-- The ranges of `White_Space`. -/
def blankRanges : List (Nat × Nat) :=
  [(0x09, 0x0D), (0x20, 0x20), (0x85, 0x85), (0xA0, 0xA0), (0x1680, 0x1680), (0x2000, 0x200A),
   (0x2028, 0x2029), (0x202F, 0x202F), (0x205F, 0x205F), (0x3000, 0x3000)]

/-- A character of `White_Space`. -/
def isBlank (c : Char) : Bool :=
  within blankRanges c

/-- The characters without the blanks at the front. -/
def stripFront (cs : List Char) : List Char :=
  cs.dropWhile isBlank

/-- The characters without the blanks at the back. -/
def stripBack (cs : List Char) : List Char :=
  (cs.reverse.dropWhile isBlank).reverse

/-- The characters without the blanks at either end. -/
def stripChars (cs : List Char) : List Char :=
  stripBack (stripFront cs)

/-- A text without the blanks at either end. -/
def strip (s : String) : String :=
  String.ofList (stripChars s.toList)

/-- A text with no character but blanks. -/
def isBlankText (s : String) : Bool :=
  (strip s).isEmpty

/-- The stripped text, if anything is left of it. -/
def nonBlank? (s : String) : Option String :=
  let t := strip s
  if t.isEmpty then none else some t

end OntologyCompiler.Text
