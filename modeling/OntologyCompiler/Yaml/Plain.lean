import OntologyCompiler.Yaml.Gap

/-!
# Plain texts

A plain text stands without quotes. It ends before a colon and a blank, before a comment, before a
mark of brackets that it stands in, and before a line that is indented less than it has to be.

* `starts`: whether a plain text may start with these characters.
* `Plain.read`: the text and the cursor behind it; the gap behind it is passed.
-/

namespace OntologyCompiler.Yaml.Plain

/-- The marks that no plain text starts with. -/
def marks : List Char :=
  ['-', '?', ':', ',', '[', ']', '{', '}', '#', '&', '*', '!', '|', '>', Char.ofNat 39, '"', '%',
    '@', Char.ofNat 96]

/-- The marks of brackets. -/
def flowMarks : List Char :=
  [',', '[', ']', '{', '}']

/-- Whether a plain text may start here. -/
def starts (flow : Bool) : List Char → Bool
  | [] => false
  | c :: rest =>
    !opensGap (c :: rest)
      && (!marks.contains c || (c = '-' && !opensGap rest)
        || (!flow && (c = '?' || c = ':') && !opensGap rest))

/-- Whether a plain text ends before these characters at a column, after a gap. -/
def ends (flow : Bool) (floor : Nat) (gap : List Char) (column : Nat) : List Char → Bool
  | [] => true
  | c :: rest =>
    (c = ':' && opensGap rest) || (flow && flowMarks.contains c)
      || (!gap.isEmpty && c = '#')
      || (gap.any isBreak
        && ((column = 0 && (opensDocument (c :: rest) || closesDocument (c :: rest)))
          || (!flow && column < floor)))

/-- Whether a colon stands before a mark of brackets, where it means nothing. -/
def isStrayColon : List Char → Bool
  | ':' :: d :: _ => d = '?' || flowMarks.contains d
  | _ => false

/-- The rest of a plain text after `gap`, whose characters are given latest first. -/
def tail (depth : Nat) (floor : Nat) :
    List Char → Nat → Nat → List Char → Option (List Char × Cursor)
  | gap, line, column, [] => some ([], ⟨[], line, column, gap.any isBreak, depth⟩)
  | gap, line, column, c :: rest =>
    if isBreak c then tail depth floor (c :: gap) (line + 1) 0 rest
    else if isSpacing c then
      if c = '\t' && gap.any isBreak && column < floor then none
      else tail depth floor (c :: gap) line (column + 1) rest
    else if ends (0 < depth) floor gap column (c :: rest) then
      some ([], ⟨c :: rest, line, column, gap.any isBreak, depth⟩)
    else if 0 < depth && isStrayColon (c :: rest) then none
    else do
      let (more, after) ← tail depth floor [] line (column + 1) rest
      return (Gap.folded gap.reverse ++ c :: more, after)

/-- The plain text at a cursor; its lines but the first are indented by at least `floor`. -/
def read (floor : Nat) (c : Cursor) : Option (String × Cursor) := do
  if !starts c.isEnclosed c.rest then none
  else
    let (cs, after) ← tail c.depth floor [] c.line c.column c.rest
    return (String.ofList cs, after)

end OntologyCompiler.Yaml.Plain
