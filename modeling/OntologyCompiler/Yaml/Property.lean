import OntologyCompiler.Text.Digit
import OntologyCompiler.Yaml.Cursor
import OntologyCompiler.Yaml.Node

/-!
# Anchors, tags and directives

Before a node may stand the anchor that names it and the tag that says what it is. A tag is written
in full between angle brackets, or after a handle that stands for the front of it. Handles are given
by directives before the document; two of them are always known.

* `Property.read`: the properties in front of a node.
* `Directives.read`: the directives in front of a document.
-/

namespace OntologyCompiler.Yaml

/-- Handles and what they stand for. -/
abbrev Handles := List (String × Tag)

namespace Handles

/-- The handles that are always known. -/
def common : Handles :=
  [("!", .ofString "!"), ("!!", .ofString "tag:yaml.org,2002:")]

/-- What a handle stands for. -/
def expansion? (hs : Handles) (handle : List Char) : Option Tag :=
  (hs ++ common).lookup (String.ofList handle)

end Handles

namespace Property

/-- The cursor before `rest`, which is left of the same line. -/
def upTo (c : Cursor) (rest : List Char) : Cursor :=
  c.advance (c.rest.length - rest.length)

/-! ## Anchors -/

/-- The characters, besides blanks, that may stand right behind the name of an anchor. -/
def nameEnds : List Char :=
  ['?', ':', ',', ']', '}', '%', '@', Char.ofNat 96]

/-- The name of an anchor after its mark. -/
def name? (cs : List Char) : Option (String × List Char) :=
  let name := cs.takeWhile isWordChar
  let rest := cs.dropWhile isWordChar
  if name.isEmpty || !(opensGap rest || rest.head?.any nameEnds.contains) then none
  else some (String.ofList name, rest)

/-! ## Tags -/

/-- A character of tags; some only where a tag is written in full. -/
def isTagChar (full : Bool) (c : Char) : Bool :=
  isWordChar c
    || [';', '/', '?', ':', '@', '&', '=', '+', '$', '.', '%', '!', '~', '*', Char.ofNat 39, '(',
      ')'].contains c
    || (full && [',', '[', ']'].contains c)

/-- The tag that the first characters spell, and what follows. -/
def spelling? (full : Bool) (cs : List Char) : Option (Tag × List Char) := do
  return (← Tag.ofChars? (cs.takeWhile (isTagChar full)), cs.dropWhile (isTagChar full))

/-- The tag that the first characters spell, if there are any, and what follows. -/
def someSpelling? (full : Bool) (cs : List Char) : Option (Tag × List Char) :=
  if cs.head?.any (isTagChar full) then spelling? full cs else none

/-- A handle between two marks, and what follows. -/
def handle? (cs : List Char) : Option (List Char × List Char) :=
  match cs with
  | '!' :: rest =>
    match rest.dropWhile isWordChar with
    | '!' :: more => some ('!' :: rest.takeWhile isWordChar ++ ['!'], more)
    | _ => none
  | _ => none

/-- The tag at the front of a text, and what follows. -/
def tag? (handles : Handles) (cs : List Char) : Option (Tag × List Char) := do
  match cs with
  | '!' :: '<' :: rest =>
    match ← someSpelling? true rest with
    | (tag, '>' :: rest) => return (tag, rest)
    | _ => none
  | _ =>
    match handle? cs with
    | some (handle, rest) =>
      let front ← handles.expansion? handle
      let (tag, rest) ← someSpelling? false rest
      return (front ++ tag, rest)
    | none =>
      let (tag, rest) ← spelling? false (cs.drop 1)
      if tag.bytes.isEmpty then return (.ofString "!", rest)
      else return ((← handles.expansion? ['!']) ++ tag, rest)

/-! ## Properties -/

/-- Whether a property stands here. -/
def opens : List Char → Bool
  | c :: _ => c = '&' || c = '!'
  | [] => false

/-- One property after others, none of its kind. -/
def one? (handles : Handles) (p : Properties String) (c : Cursor) :
    Option (Properties String × Cursor) := do
  match c.rest with
  | '&' :: rest =>
    let (name, rest) ← name? rest
    return (← p.merge ⟨some name, none⟩, upTo c rest)
  | cs =>
    let (tag, rest) ← tag? handles cs
    if opensGap rest || (c.isEnclosed && rest.head? = some ',') then
      return (← p.merge ⟨none, some tag⟩, upTo c rest)
    else none

/-- The properties at a cursor. `skip` passes the gap behind each of them. -/
def read (handles : Handles) (skip : Cursor → Cursor) (c : Cursor) :
    Option (Properties String × Cursor) := do
  if !opens c.rest then return (.none, c)
  else
    let (p, c) ← one? handles .none c
    let c := skip c
    if !opens c.rest then return (p, c)
    else
      let (p, c) ← one? handles p c
      return (p, skip c)

end Property

/-! ## Directives -/

/-- What directives say. -/
structure Directives where
  /-- Whether one of them gives the version of the notation. -/
  version : Bool
  handles : Handles

namespace Directives

/-- A number of at most nine digits, and what follows. -/
def number? (cs : List Char) : Option (Nat × List Char) :=
  let digits := cs.takeWhile Char.isDigit
  if 9 < digits.length then none
  else (Text.numeral? 10 digits).map fun n => (n, cs.dropWhile Char.isDigit)

/-- The version of the notation, which is 1.1 or 1.2. -/
def version? (d : Directives) (cs : List Char) : Option (Directives × List Char) := do
  let (major, rest) ← number? (cs.dropWhile isSpacing)
  let (minor, rest) ← match rest with
    | '.' :: rest => number? rest
    | _ => none
  if d.version || major ≠ 1 || (minor ≠ 1 && minor ≠ 2) then none
  else return ({ d with version := true }, rest)

/-- A handle and what it stands for. -/
def handle? (d : Directives) (cs : List Char) : Option (Directives × List Char) := do
  let cs := cs.dropWhile isSpacing
  let (handle, rest) ← match Property.handle? cs, cs with
    | some h, _ => some h
    | none, '!' :: rest => some (['!'], rest)
    | none, _ => none
  if !rest.head?.any isSpacing then none
  else
    let (tag, rest) ← Property.someSpelling? true (rest.dropWhile isSpacing)
    if !opensGap rest || (d.handles.lookup (String.ofList handle)).isSome then none
    else return ({ d with handles := (String.ofList handle, tag) :: d.handles }, rest)

/-- The directive behind its mark, and the text from the end of its line on. -/
def one? (d : Directives) (cs : List Char) : Option (Directives × List Char) := do
  let name := String.ofList (cs.takeWhile isWordChar)
  let rest := cs.dropWhile isWordChar
  if !opensGap rest then none
  else
    let (d, rest) ←
      if name = "YAML" then version? d rest
      else if name = "TAG" then handle? d rest
      else none
    let rest := rest.dropWhile isSpacing
    let rest := if rest.head? = some '#' then rest.dropWhile (!isBreak ·) else rest
    if opensLine rest then return (d, rest) else none

/-- The directives at a cursor, and the cursor at the mark behind them. `fuel` bounds their
number. -/
def read : Nat → Directives → Cursor → Option (Directives × Cursor)
  | 0, d, c => some (d, c)
  | fuel + 1, d, c =>
    match c.column, c.rest with
    | 0, '%' :: rest => do
      let (d, rest) ← one? d rest
      read fuel d (Cursor.mk rest c.line 1 false 0).skipGap
    | _, _ => some (d, c)

end Directives
end OntologyCompiler.Yaml
