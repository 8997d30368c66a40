import OntologyCompiler.Yaml.Core
import OntologyCompiler.Yaml.Cursor

/-!
# Texts with as few quotes as may be

A text stands plain where it can. Else it stands in single quotes, or in double quotes where some of
its characters need escapes. A text of several lines is written as a literal block below its mark.

* `Spelling.spelled`: a text in the form that suits it.
-/

namespace OntologyCompiler.Yaml.Spelling

/-- The forms of a text. -/
inductive Form where
  | plain
  | single
  | double
  | literal
  deriving DecidableEq

/-- A character that is shown as it is. -/
def isPrintable (c : Char) : Bool :=
  let n := c.toNat
  n = 0xA || (0x20 ≤ n && n ≤ 0x7E) || (0xA0 ≤ n && n ≤ 0xFFFD && c != byteOrderMark)
    || 0x10000 ≤ n

/-- Whether there are two neighbours of which the first has one property and the second another. -/
def hasNeighbours (p q : Char → Bool) : List Char → Bool
  | a :: b :: rest => (p a && q b) || hasNeighbours p q (b :: rest)
  | _ => false

/-- A blank. -/
def isSpace (c : Char) : Bool :=
  c = ' '

/-- The marks that no plain text starts with. -/
def openingMarks : List Char :=
  ['#', ',', '[', ']', '{', '}', '&', '*', '!', '|', '>', Char.ofNat 39, '"', '%', '@',
    Char.ofNat 96]

/-- Whether a plain text would be cut short behind its first character. -/
def hasInnerMark : List Char → Bool
  | a :: rest =>
    (a = ':' && opensGap rest) || ((isSpacing a || isBreak a) && rest.head? = some '#')
      || hasInnerMark rest
  | [] => false

/-- Whether a plain text would be taken for something else. -/
def hasMark (cs : List Char) : Bool :=
  ['-', '-', '-'].isPrefixOf cs || ['.', '.', '.'].isPrefixOf cs || hasInnerMark cs
    || match cs with
      | c :: rest => openingMarks.contains c || ((c = '?' || c = '-') && opensGap rest)
      | [] => false

/-- Whether a plain text would stand for something else. -/
def isAmbiguous (cs : List Char) : Bool :=
  match Core.value? cs with
  | some (.str _) => Core.isPadded cs
  | _ => true

/-- Whether a text can only be shown with escapes, whatever its form. -/
def needsEscapes (cs : List Char) : Bool :=
  !cs.all isPrintable || hasNeighbours isSpace isBreak cs

/-- Whether a text may stand without quotes as far as its blanks and marks go. -/
def isPlain (cs : List Char) : Bool :=
  !(needsEscapes cs || hasMark cs || cs.any isBreak || cs.head? = some ' '
    || cs.getLast? = some ' ')

/-- The form of a text. -/
def form (cs : List Char) : Form :=
  if cs.contains '\n' then
    if needsEscapes cs || cs.getLast? = some ' ' then .double else .literal
  else if isPlain cs && !isAmbiguous cs then .plain
  else if needsEscapes cs || hasNeighbours isBreak isSpace cs then .double
  else .single

/-! ## Written forms -/

/-- The blanks before the lines of a text but the first. -/
def margin : List Char :=
  [' ', ' ']

/-- A text in single quotes, without them; `broken` says whether a line has just ended. -/
def singleText : Bool → List Char → List Char
  | broken, [] => if broken then margin else []
  | broken, c :: rest =>
    if isBreak c then c :: singleText true rest
    else
      (if broken then margin else [])
        ++ (if c = Char.ofNat 39 then [c, c] else [c]) ++ singleText false rest

/-- The letters of short escapes. -/
def shortEscapes : List (Char × Char) :=
  [(Char.ofNat 0x0, '0'), (Char.ofNat 0x7, 'a'), (Char.ofNat 0x8, 'b'), ('\t', 't'), ('\n', 'n'),
    (Char.ofNat 0xB, 'v'), (Char.ofNat 0xC, 'f'), ('\r', 'r'), (Char.ofNat 0x1B, 'e'), ('"', '"'),
    ('\\', '\\'), (Char.ofNat 0x85, 'N'), (Char.ofNat 0x2028, 'L'), (Char.ofNat 0x2029, 'P')]

/-- A number in so many digits of base sixteen. -/
def code (width n : Nat) : List Char :=
  let ds := (Nat.toDigits 16 n).map Char.toUpper
  List.replicate (width - ds.length) '0' ++ ds

/-- A character in double quotes. -/
def doubleChar (c : Char) : List Char :=
  match shortEscapes.lookup c with
  | some e => ['\\', e]
  | none =>
    let n := c.toNat
    if isPrintable c then [c]
    else if n ≤ 0xFF then '\\' :: 'x' :: code 2 n
    else '\\' :: 'u' :: code 4 n

/-- The lines of a literal block; `broken` says whether a line has just ended. -/
def literalText : Bool → List Char → List Char
  | _, [] => []
  | broken, c :: rest =>
    if isBreak c then c :: literalText true rest
    else (if broken then margin else []) ++ c :: literalText false rest

/-- The mark of a literal block: how deep it is indented, if its first line does not show that, and
what becomes of the line ends at its end. -/
def literalMark (cs : List Char) : List Char :=
  let depth := if cs.head?.any fun c => c = ' ' || isBreak c then ['2'] else []
  let chomping := match cs.reverse with
    | c :: d :: _ => if !isBreak c then ['-'] else if isBreak d then ['+'] else []
    | [c] => if isBreak c then ['+'] else ['-']
    | [] => ['-']
  '|' :: depth ++ chomping ++ ['\n']

/-- A text behind the mark of an entry. -/
def spelled (cs : List Char) : List Char :=
  match form cs with
  | .plain => cs
  | .single => Char.ofNat 39 :: singleText false cs ++ [Char.ofNat 39]
  | .double => '"' :: cs.flatMap doubleChar ++ ['"']
  | .literal => literalMark cs ++ literalText true cs

/-- An entry on lines of its own. -/
def entry (front : List Char) (cs : List Char) : List Char :=
  let text := front ++ spelled cs
  if text.getLast?.any isBreak then text else text ++ ['\n']

end OntologyCompiler.Yaml.Spelling
