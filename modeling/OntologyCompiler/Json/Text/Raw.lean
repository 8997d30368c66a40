import OntologyCompiler.Json.Text.Number
import OntologyCompiler.Text.Digit

/-!
# JSON text as it stands

`Raw` is the tree of a JSON text before anything is made of it: members keep their order and their
repetitions, and a text that breaks off leaves a tree that breaks off at the same place. Two kinds
of leaf follow the grammar and yet have no value: a number beyond the largest double, and a text
with half of a surrogate pair. They may be passed over, but not read.

* `Raw.parse`: the tree of a text, and whether nothing but blanks follows it.
* `pairUnits_chars`: a text without escapes is read as it stands.
-/

namespace OntologyCompiler.Json

/-- The tree of a JSON text. -/
inductive Raw where
  /-- The text does not follow the grammar from here on. -/
  | broken
  /-- A number or text that follows the grammar and has no value. -/
  | unreadable
  | null
  | bool (b : Bool)
  | num (n : Number)
  | str (s : String)
  | arr (items : List Raw) (closed : Bool)
  | obj (members : List (Option String × Raw)) (closed : Bool)
  deriving Inhabited

namespace Raw

/-- A blank between the marks of a JSON text. -/
def isGap (c : Char) : Bool :=
  c = ' ' || c = '\n' || c = '\t' || c = '\r'

/-- The text from its first mark on. -/
def skipGap (cs : List Char) : List Char :=
  cs.dropWhile isGap

/-! ## Texts -/

/-- The number that four hexadecimal digits spell. -/
def hexFour? (a b c d : Char) : Option Nat :=
  Text.numeral? 16 [a, b, c, d]

/-- What stands in a text literal: a character, or a unit of 16 bits given by its number. -/
inductive TextUnit where
  | char (c : Char)
  | code (n : Nat)

/-- The character that a short escape stands for. -/
def shortEscape? (c : Char) : Option Char :=
  if c = '"' ∨ c = '\\' ∨ c = '/' then some c
  else if c = 'b' then some (Char.ofNat 8)
  else if c = 'f' then some (Char.ofNat 12)
  else if c = 'n' then some '\n'
  else if c = 'r' then some '\r'
  else if c = 't' then some '\t'
  else none

/-- The units up to the closing quote, and the text after it. -/
def textUnits : List Char → Option (List TextUnit × List Char)
  | [] => none
  | '"' :: rest => some ([], rest)
  | '\\' :: 'u' :: a :: b :: c :: d :: rest =>
    match hexFour? a b c d, textUnits rest with
    | some n, some (units, rest) => some (.code n :: units, rest)
    | _, _ => none
  | '\\' :: c :: rest =>
    match shortEscape? c, textUnits rest with
    | some e, some (units, rest) => some (.char e :: units, rest)
    | _, _ => none
  | c :: rest =>
    if c.toNat < 32 ∨ c = '\\' then none
    else
      match textUnits rest with
      | some (units, rest) => some (.char c :: units, rest)
      | none => none

/-- The characters of units: two halves of a surrogate pair make one character, and a half alone
makes none. -/
def pairUnits : List TextUnit → Option (List Char)
  | [] => some []
  | .char c :: rest => (c :: ·) <$> pairUnits rest
  | .code n :: rest =>
    if n < 0xD800 ∨ 0xDFFF < n then (Char.ofNat n :: ·) <$> pairUnits rest
    else
      match rest with
      | .code m :: rest =>
        if n ≤ 0xDBFF ∧ 0xDC00 ≤ m ∧ m ≤ 0xDFFF then
          (Char.ofNat (0x10000 + (n - 0xD800) * 0x400 + (m - 0xDC00)) :: ·) <$> pairUnits rest
        else none
      | _ => none

theorem pairUnits_chars : ∀ cs : List Char, pairUnits (cs.map .char) = some cs
  | [] => rfl
  | c :: cs => by simp [pairUnits, pairUnits_chars cs]

/-- A text literal after its opening quote: the text, none inside if it has no value, and what
follows. -/
def text? (cs : List Char) : Option (Option String × List Char) := do
  let (units, rest) ← textUnits cs
  return ((pairUnits units).map String.ofList, rest)

/-! ## Values -/

/-- A tree and the text after it; no text after it if the tree breaks off. -/
abbrev Parsed := Raw × Option (List Char)

/-- A word at the front of a text. -/
def word (w : List Char) (v : Raw) (cs : List Char) : Parsed :=
  if w.isPrefixOf cs then (v, some (cs.drop w.length)) else (.broken, none)

/-- A number at the front of a text. -/
def number (cs : List Char) : Parsed :=
  match numberLiteral cs with
  | none => (.broken, none)
  | some (l, rest) =>
    match l.value? with
    | some n => (.num n, some rest)
    | none => (.unreadable, some rest)

/-- The text after an opening bracket if the list or object that it opens is empty. -/
def emptyRest? (close : Char) (cs : List Char) : Option (List Char) :=
  match skipGap cs with
  | c :: rest => if c = close then some rest else none
  | [] => none

mutual

/-- The value at the front of a text. `fuel` bounds the number of marks that are looked at. -/
def value : Nat → List Char → Parsed
  | 0, _ => (.broken, none)
  | fuel + 1, cs =>
    match skipGap cs with
    | 'n' :: rest => word ['n', 'u', 'l', 'l'] .null ('n' :: rest)
    | 't' :: rest => word ['t', 'r', 'u', 'e'] (.bool true) ('t' :: rest)
    | 'f' :: rest => word ['f', 'a', 'l', 's', 'e'] (.bool false) ('f' :: rest)
    | '"' :: rest =>
      match text? rest with
      | none => (.broken, none)
      | some (none, rest) => (.unreadable, some rest)
      | some (some s, rest) => (.str s, some rest)
    | '[' :: rest =>
      match emptyRest? ']' rest with
      | some rest => (.arr [] true, some rest)
      | none =>
        let (items, rest) := items fuel rest
        (.arr items rest.isSome, rest)
    | '{' :: rest =>
      match emptyRest? '}' rest with
      | some rest => (.obj [] true, some rest)
      | none =>
        let (members, rest) := members fuel rest
        (.obj members rest.isSome, rest)
    | rest => number rest

/-- The items of a list up to its closing bracket. -/
def items : Nat → List Char → List Raw × Option (List Char)
  | 0, _ => ([], none)
  | fuel + 1, cs =>
    match value fuel cs with
    | (v, none) => ([v], none)
    | (v, some rest) =>
      match skipGap rest with
      | ']' :: rest => ([v], some rest)
      | ',' :: rest =>
        let (more, rest) := items fuel rest
        (v :: more, rest)
      | _ => ([v], none)

/-- The members of an object up to its closing brace. -/
def members : Nat → List Char → List (Option String × Raw) × Option (List Char)
  | 0, _ => ([], none)
  | fuel + 1, cs =>
    match skipGap cs with
    | '"' :: rest =>
      match text? rest with
      | none => ([], none)
      | some (key, rest) =>
        match skipGap rest with
        | ':' :: rest =>
          match value fuel rest with
          | (v, none) => ([(key, v)], none)
          | (v, some rest) =>
            match skipGap rest with
            | '}' :: rest => ([(key, v)], some rest)
            | ',' :: rest =>
              let (more, rest) := members fuel rest
              ((key, v) :: more, rest)
            | _ => ([(key, v)], none)
        | _ => ([(key, .broken)], none)
    | _ => ([], none)

end

/-- The tree of a text, and whether nothing but blanks follows it. -/
def parse (cs : List Char) : Raw × Bool :=
  match value (cs.length + 1) cs with
  | (v, some rest) => (v, (skipGap rest).isEmpty)
  | (v, none) => (v, false)

end Raw
end OntologyCompiler.Json
