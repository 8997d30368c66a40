import OntologyCompiler.Yaml.Cursor

/-!
# Block texts

A block text stands on the lines below its mark, as far as they are indented. The mark says whether
its lines are kept apart or folded, how the line ends behind it count, and sometimes how far its
lines are indented; else the first line that is not empty says so.

* `rows`: the lines of a block.
* `text`: what the lines say.
-/

namespace OntologyCompiler.Yaml.Block

/-- What becomes of the line ends at the end of a block. -/
inductive Chomping where
  /-- None is kept. -/
  | strip
  /-- The first is kept. -/
  | clip
  /-- All are kept. -/
  | keep

/-- What follows the first character of a block's mark. -/
structure Header where
  chomping : Chomping
  /-- How much deeper than its parent the block is indented, if the mark says so. -/
  depth : Option Nat

/-- The chomping that a character asks for. -/
def chomping? (c : Char) : Option Chomping :=
  if c = '+' then some .keep else if c = '-' then some .strip else none

/-- The depth that a character gives. -/
def depth? (c : Char) : Option Nat :=
  if '1' ≤ c ∧ c ≤ '9' then some (c.toNat - 48) else none

/-- Chomping and depth, in either order, and what follows. -/
def header (cs : List Char) : Header × List Char :=
  match cs with
  | c :: rest =>
    match chomping? c, depth? c with
    | some chomping, _ =>
      match rest.head?.bind depth? with
      | some depth => (⟨chomping, some depth⟩, rest.drop 1)
      | none => (⟨chomping, none⟩, rest)
    | none, some depth =>
      match rest.head?.bind chomping? with
      | some chomping => (⟨chomping, some depth⟩, rest.drop 1)
      | none => (⟨.clip, some depth⟩, rest)
    | none, none => (⟨.clip, none⟩, c :: rest)
  | [] => (⟨.clip, none⟩, [])

/-- The text after the rest of a line that holds blanks and a comment at most. -/
def lineRest? (cs : List Char) : Option (List Char) :=
  let cs := cs.dropWhile isSpacing
  let cs := if cs.head? = some '#' then cs.dropWhile (!isBreak ·) else cs
  match cs with
  | [] => some []
  | c :: rest => if isBreak c then some rest else none

/-! ## Lines -/

/-- A line of a block without its indentation, and the character that ends it. A line without text
is a blank one. -/
structure Row where
  text : List Char
  ending : List Char

/-- The deepest indentation of the blank lines at the start of a text and of the line after them. -/
def deepest (cs : List Char) : Option Nat :=
  let pad := (cs.takeWhile (· = ' ')).length
  match _h : cs.dropWhile (· = ' ') with
  | [] => some pad
  | c :: rest =>
    if isBreak c then (max pad ·) <$> deepest rest
    else if c = '\t' then none
    else some pad
termination_by cs.length
decreasing_by
  have := (List.dropWhile_suffix (l := cs) (· = ' ')).length_le
  simp only [_h, List.length_cons] at this
  omega

/-- The lines of a block that is indented by `depth`, and the cursor behind them. -/
def rows (depth line : Nat) (cs : List Char) : Option (List Row × Cursor) :=
  let pad := min depth (cs.takeWhile (· = ' ')).length
  match _h : cs.drop pad with
  | [] => some ([], ⟨[], line, pad, true, 0⟩)
  | c :: rest =>
    if isBreak c then do
      let (more, after) ← rows depth (line + 1) rest
      return (⟨[], [c]⟩ :: more, after)
    else if pad < depth then
      if c = '\t' then none else some ([], ⟨c :: rest, line, pad, true, 0⟩)
    else
      let text := (c :: rest).takeWhile (!isBreak ·)
      match _h' : rest.dropWhile (!isBreak ·) with
      | [] => some ([⟨text, []⟩], ⟨[], line, pad + text.length, true, 0⟩)
      | b :: below => do
        let (more, after) ← rows depth (line + 1) below
        return (⟨text, [b]⟩ :: more, after)
termination_by cs.length
decreasing_by
  · have := congrArg List.length _h
    simp only [List.length_drop, List.length_cons] at this
    omega
  · have := congrArg List.length _h
    have := (List.dropWhile_suffix (l := rest) (!isBreak ·)).length_le
    simp only [_h', List.length_drop, List.length_cons] at *
    omega

/-! ## What the lines say -/

/-- Whether a line starts with a blank. -/
def Row.isIndented (r : Row) : Bool :=
  r.text.head?.any isSpacing

/-- What stands between a line and the next one with text: `blanks` are the ends of the blank lines
between them. -/
def joint (folds : Bool) (last : Option Row) (blanks : List Char) (next : Row) : List Char :=
  let ending := (last.map Row.ending).getD []
  if folds && ending = ['\n'] && !last.any Row.isIndented && !next.isIndented then
    if blanks.isEmpty then [' '] else blanks
  else ending ++ blanks

/-- What the line ends at the end of a block count as. -/
def Chomping.apply (chomping : Chomping) (ending blanks : List Char) : List Char :=
  match chomping with
  | strip => []
  | clip => ending
  | keep => ending ++ blanks

/-- What lines say after the last line with text and the ends of the blank lines behind it. -/
def text (folds : Bool) (chomping : Chomping) : Option Row → List Char → List Row → List Char
  | last, blanks, [] => chomping.apply ((last.map Row.ending).getD []) blanks
  | last, blanks, r :: rs =>
    if r.text.isEmpty then text folds chomping last (blanks ++ r.ending) rs
    else joint folds last blanks r ++ r.text ++ text folds chomping (some r) [] rs

/-- The block text whose mark is at a cursor, with lines that are indented by at least `floor`. -/
def read (folds : Bool) (floor : Nat) (c : Cursor) : Option (String × Cursor) := do
  let (h, cs) := header (c.rest.drop 1)
  let cs ← lineRest? cs
  let depth ← match h.depth with
    | some depth => some (floor - 1 + depth)
    | none => (max · (max floor 1)) <$> deepest cs
  let (lines, after) ← rows depth (c.line + 1) cs
  return (String.ofList (text folds h.chomping none [] lines), after)

end OntologyCompiler.Yaml.Block
