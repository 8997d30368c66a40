import OntologyCompiler.Text.Blank
import OntologyCompiler.Text.Case.Table

/-!
# Lower case and the capital of an initial

`lowerChars` writes a whole text in lower case, with the one rule that looks at neighbours: a
capital sigma ends a word as `ς` and is `σ` elsewhere. `capitalAscii` keeps of a capital only what is
ASCII, since identifiers hold nothing else.

* `lowerLetter_ascii`: on ASCII, lower case is the usual one.
* `capitalAscii_lower`: so is the capital of an initial.
-/

namespace OntologyCompiler.Text

/-- The lower-case form of one letter, sigma at the end of a word apart. -/
def lowerLetter (c : Char) : List Char :=
  if c.toNat < 128 then [c.toLower]
  else if c.toNat = 0x130 then ['i', Char.ofNat 0x307]
  else
    match lowerRuns.find? fun r =>
        r.first ≤ c.toNat && c.toNat ≤ r.last && (c.toNat - r.first) % r.step == 0 with
    | some r => [Char.ofNat ((c.toNat : Int) + r.shift).toNat]
    | none => [c]

/-- Whether the first character that is not ignorable is a cased letter. -/
def casedAhead (cs : List Char) : Bool :=
  match cs.dropWhile (within ignorableRanges) with
  | c :: _ => within casedRanges c
  | [] => false

/-- Lower case of the characters that follow `before`, which is held last character first. -/
def lowerFrom : List Char → List Char → List Char
  | _, [] => []
  | before, c :: rest =>
    if c = 'Σ' then
      (if casedAhead before && !casedAhead rest then 'ς' else 'σ') :: lowerFrom (c :: before) rest
    else lowerLetter c ++ lowerFrom (c :: before) rest

/-- The characters of a text in lower case. -/
def lowerChars (cs : List Char) : List Char :=
  lowerFrom [] cs

theorem lowerLetter_ascii {c : Char} (h : c.toNat < 128) : lowerLetter c = [c.toLower] := by
  simp [lowerLetter, h]

/-- The letters beyond ASCII whose capital holds letters of ASCII, with these. -/
def asciiCapitals : List (Char × List Char) :=
  [('ß', ['S', 'S']), ('ı', ['I']), ('ŉ', ['N']), ('ſ', ['S']), ('ǰ', ['J']), ('ẖ', ['H']),
   ('ẗ', ['T']), ('ẘ', ['W']), ('ẙ', ['Y']), ('ẚ', ['A']), ('ﬀ', ['F', 'F']), ('ﬁ', ['F', 'I']),
   ('ﬂ', ['F', 'L']), ('ﬃ', ['F', 'F', 'I']), ('ﬄ', ['F', 'F', 'L']), ('ﬅ', ['S', 'T']),
   ('ﬆ', ['S', 'T'])]

/-- What is ASCII in the capital of a letter. -/
def capitalAscii (c : Char) : List Char :=
  if c.toNat < 128 then [c.toUpper] else (asciiCapitals.lookup c).getD []

theorem capitalAscii_lower {c : Char} (h : c.toNat < 128) : capitalAscii c = [c.toUpper] := by
  simp [capitalAscii, h]

end OntologyCompiler.Text
