/-!
# Letters of ASCII

Case of the letters `A` to `Z` alone; every other character is left as it is.
-/

namespace OntologyCompiler.Text

/-- The text with `A` to `Z` in lower case. -/
def lowerAscii (s : String) : String :=
  String.ofList (s.toList.map Char.toLower)

/-- The text with `a` to `z` in upper case. -/
def upperAscii (s : String) : String :=
  String.ofList (s.toList.map Char.toUpper)

/-- Equality up to the case of the letters of ASCII. -/
def sameLetters (s t : String) : Bool :=
  s.toList.map Char.toLower == t.toList.map Char.toLower

end OntologyCompiler.Text
