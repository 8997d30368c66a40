/-!
# Places in a YAML text

A YAML text is read from a cursor: what is left of it, the line and column that have been reached,
whether an entry of a block collection may start there, and how many brackets are open. Line ends
are made alike before. A byte order mark may stand at the start of every line and counts as one of
its columns.

* `Source.chars?`: the characters of a text, none if one of them is not allowed.
* `Cursor.skipGap`: past blanks, comments and line ends to the next mark.
-/

namespace OntologyCompiler.Yaml

-- The empty sum is the literal zero, whatever else is imported.
attribute [local instance (high)] Zero.ofOfNat0

/-! ## Characters -/

/-- The mark that some lines begin with and that says nothing. -/
def byteOrderMark : Char := Char.ofNat 0xFEFF

/-- A blank within a line. -/
def isSpacing (c : Char) : Bool :=
  c = ' ' || c = '\t'

/-- The end of a line: a line feed, or one of the separators of lines and of paragraphs. -/
def isBreak (c : Char) : Bool :=
  c = '\n' || c.toNat = 0x2028 || c.toNat = 0x2029

/-- Whether a text is at a blank, at the end of a line, or at its own end. -/
def opensGap : List Char → Bool
  | [] => true
  | c :: _ => isSpacing c || isBreak c

/-- Whether a text is at the end of a line, or at its own end. -/
def opensLine : List Char → Bool
  | [] => true
  | c :: _ => isBreak c

/-- A character of names: a letter or digit of ASCII, a dash or an underscore. -/
def isWordChar (c : Char) : Bool :=
  c.isAlphanum || c = '_' || c = '-'

/-- Whether a text starts with the mark before a document. -/
def opensDocument : List Char → Bool
  | '-' :: '-' :: '-' :: rest => opensGap rest
  | _ => false

/-- Whether a text starts with the mark after a document. -/
def closesDocument : List Char → Bool
  | '.' :: '.' :: '.' :: rest => opensGap rest
  | _ => false

/-! ## The source -/

namespace Source

/-- A character that may stand in a text. -/
def isAllowed (c : Char) : Bool :=
  let n := c.toNat
  n = 0x9 || n = 0xA || n = 0xD || (0x20 ≤ n && n ≤ 0x7E) || n = 0x85 || (0xA0 ≤ n && n ≤ 0xFFFD)
    || 0x10000 ≤ n

/-- The same lines, all of them but those of a separator ended by a line feed. -/
def unifyBreaks : List Char → List Char
  | [] => []
  | '\r' :: '\n' :: rest => '\n' :: unifyBreaks rest
  | c :: rest => (if c = '\r' ∨ c.toNat = 0x85 then '\n' else c) :: unifyBreaks rest

/-- The characters of a text. -/
def chars? (text : String) : Option (List Char) :=
  if text.toList.all isAllowed then some (unifyBreaks text.toList) else none

end Source

/-! ## Cursors -/

/-- A place in a text. -/
structure Cursor where
  rest : List Char
  line : Nat
  column : Nat
  /-- Whether an entry of a block collection may start here. -/
  fresh : Bool
  /-- How many brackets are open. -/
  depth : Nat

namespace Cursor

/-- The start of a text. -/
def start (cs : List Char) : Cursor :=
  ⟨cs, 0, 0, true, 0⟩

/-- Past some characters of the same line; no entry starts right there. -/
def advance (c : Cursor) (count : Nat) : Cursor :=
  ⟨c.rest.drop count, c.line, c.column + count, false, c.depth⟩

/-- The same place, where an entry may start. -/
def refreshed (c : Cursor) : Cursor :=
  { c with fresh := true }

/-- Past a bracket that opens. -/
def enter (c : Cursor) : Cursor :=
  { c.advance 1 with fresh := true, depth := c.depth + 1 }

/-- Past a bracket that closes; where none is open it closes nothing. -/
def leave (c : Cursor) : Cursor :=
  { c.advance 1 with depth := c.depth - 1 }

/-- Whether a bracket is open. -/
def isEnclosed (c : Cursor) : Bool :=
  0 < c.depth

/-- Whether the document ends here. -/
def isOver (c : Cursor) : Bool :=
  c.rest.isEmpty || (c.column = 0 && (opensDocument c.rest || closesDocument c.rest))

/-- Past the blanks of the line. -/
def skipBlanks (c : Cursor) : Cursor :=
  { c with
    rest := c.rest.dropWhile isSpacing
    column := c.column + (c.rest.takeWhile isSpacing).length }

/-- Past what stands between two marks, with so many brackets open. A tab counts as a blank unless
an entry may start at it; the end of a line outside of brackets lets an entry start. -/
def gapEnd (depth : Nat) : List Char → Nat → Nat → Bool → Bool → Cursor
  | [], line, column, fresh, _ => ⟨[], line, column, fresh, depth⟩
  | c :: rest, line, column, fresh, comment =>
    if isBreak c then gapEnd depth rest (line + 1) 0 (fresh || depth = 0) false
    else if comment || c = ' ' || (c = '\t' && (0 < depth || !fresh))
        || (c = byteOrderMark && column = 0) then
      gapEnd depth rest line (column + 1) fresh comment
    else if c = '#' then gapEnd depth rest line (column + 1) fresh true
    else ⟨c :: rest, line, column, fresh, depth⟩

/-- Past blanks, comments and line ends. -/
def skipGap (c : Cursor) : Cursor :=
  gapEnd c.depth c.rest c.line c.column c.fresh false

/-- Whether a mark stands here that has to be followed by a blank. -/
def atMark (c : Cursor) (mark : Char) : Bool :=
  match c.rest with
  | d :: rest => d = mark && opensGap rest
  | [] => false

/-- How many bytes a key may have that has no mark in front. -/
def keyLimit : Nat := 1024

/-- How many bytes stand between two places of a line. -/
def bytesTo (c after : Cursor) : Nat :=
  ((c.rest.take (after.column - c.column)).map Char.utf8Size).sum

/-- Whether what stands between two places may be a key: it is on one line and not too long. -/
def spansKey (c after : Cursor) : Bool :=
  c.line = after.line && c.bytesTo after ≤ keyLimit

end Cursor
end OntologyCompiler.Yaml
