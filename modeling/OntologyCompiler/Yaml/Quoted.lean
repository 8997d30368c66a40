import OntologyCompiler.Text.Digit
import OntologyCompiler.Yaml.Gap

/-!
# Quoted texts

A text in single quotes holds everything as it stands, and a quote is written twice. A text in
double quotes may hold escapes. Both may run over several lines.

* `Quoted.read`: the text and the cursor behind its closing quote.
-/

namespace OntologyCompiler.Yaml.Quoted

/-- The single quote. -/
def apostrophe : Char := Char.ofNat 39

/-- Whether a mark of documents stands at the start of a line. -/
def isCutOff (column : Nat) (cs : List Char) : Bool :=
  column = 0 && (opensDocument cs || closesDocument cs)

/-- The rest of a text in single quotes after `gap`, whose characters are given latest first. -/
def single (depth : Nat) : List Char → Nat → Nat → List Char → Option (List Char × Cursor)
  | _, _, _, [] => none
  | gap, line, column, c :: rest =>
    if isBreak c then single depth (c :: gap) (line + 1) 0 rest
    else if isSpacing c then single depth (c :: gap) line (column + 1) rest
    else if isCutOff column (c :: rest) then none
    else if c = apostrophe then
      match rest with
      | d :: rest' =>
        if d = apostrophe then do
          let (more, after) ← single depth [] line (column + 2) rest'
          return (Gap.folded gap.reverse ++ c :: more, after)
        else some (Gap.folded gap.reverse, ⟨d :: rest', line, column + 1, false, depth⟩)
      | [] => some (Gap.folded gap.reverse, ⟨[], line, column + 1, false, depth⟩)
    else do
      let (more, after) ← single depth [] line (column + 1) rest
      return (Gap.folded gap.reverse ++ c :: more, after)

/-- Where in a text in double quotes a character stands. -/
inductive State where
  /-- After a gap, given latest first; `escaped` if an escaped line end is in front of it. -/
  | text (gap : List Char) (escaped : Bool)
  /-- After a backslash. -/
  | escape
  /-- Before so many digits of a character's number, after others. -/
  | code (digits value : Nat)

/-- The characters that escapes of one letter stand for. -/
def escapes : List (Char × Char) :=
  [('0', Char.ofNat 0x0), ('a', Char.ofNat 0x7), ('b', Char.ofNat 0x8), ('t', '\t'), ('\t', '\t'),
    ('n', '\n'), ('v', Char.ofNat 0xB), ('f', Char.ofNat 0xC), ('r', '\r'), ('e', Char.ofNat 0x1B),
    (' ', ' '), ('"', '"'), ('/', '/'), ('\\', '\\'), ('N', Char.ofNat 0x85),
    ('_', Char.ofNat 0xA0), ('L', Char.ofNat 0x2028), ('P', Char.ofNat 0x2029)]

/-- How many digits follow the letter of a numeric escape. -/
def codeDigits? (c : Char) : Option Nat :=
  [('x', 2), ('u', 4), ('U', 8)].lookup c

/-- The gap in front of a character. -/
def gapText (gap : List Char) (escaped : Bool) : List Char :=
  if escaped then Gap.foldedAfterEscape gap.reverse else Gap.folded gap.reverse

/-- The rest of a text in double quotes. -/
def double (depth : Nat) : State → Nat → Nat → List Char → Option (List Char × Cursor)
  | _, _, _, [] => none
  | .text gap escaped, line, column, c :: rest =>
    if isBreak c then double depth (.text (c :: gap) escaped) (line + 1) 0 rest
    else if isSpacing c then double depth (.text (c :: gap) escaped) line (column + 1) rest
    else if isCutOff column (c :: rest) then none
    else if c = '"' then some (gapText gap escaped, ⟨rest, line, column + 1, false, depth⟩)
    else if c = '\\' then do
      let (more, after) ← double depth .escape line (column + 1) rest
      return (gapText gap escaped ++ more, after)
    else do
      let (more, after) ← double depth (.text [] false) line (column + 1) rest
      return (gapText gap escaped ++ c :: more, after)
  | .escape, line, column, c :: rest =>
    if isBreak c then double depth (.text [] true) (line + 1) 0 rest
    else
      match escapes.lookup c, codeDigits? c with
      | some e, _ => do
        let (more, after) ← double depth (.text [] false) line (column + 1) rest
        return (e :: more, after)
      | none, some digits => double depth (.code digits 0) line (column + 1) rest
      | none, none => none
  | .code digits value, line, column, c :: rest => do
    let value := value * 16 + (← Text.digitValue? 16 c)
    if 1 < digits then double depth (.code (digits - 1) value) line (column + 1) rest
    else if value.isValidChar then
      let (more, after) ← double depth (.text [] false) line (column + 1) rest
      return (Char.ofNat value :: more, after)
    else none

/-- The quoted text at a cursor. -/
def read (c : Cursor) : Option (String × Cursor) :=
  match c.rest with
  | q :: rest =>
    if q = '"' then
      (double c.depth (.text [] false) c.line (c.column + 1) rest).map
        fun r => (String.ofList r.1, r.2)
    else if q = apostrophe then
      (single c.depth [] c.line (c.column + 1) rest).map fun r => (String.ofList r.1, r.2)
    else none
  | [] => none

end OntologyCompiler.Yaml.Quoted
