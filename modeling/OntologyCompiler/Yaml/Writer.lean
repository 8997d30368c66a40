import OntologyCompiler.Json.Basic
import OntologyCompiler.Text.Blank
import OntologyCompiler.Yaml.Quoting

/-!
# Writing YAML

A value is written as lines, two blanks deeper for each level. Maps and lists are written one entry
after the other, empty ones as `[]` and as two braces; a text of several lines is written as a
literal block under a mark that says how many line ends close it.
-/

namespace OntologyCompiler.Yaml

/-- The blanks before the lines of a level. -/
def indent (level : Nat) : List Char :=
  List.replicate (2 * level) ' '

/-- Whether a text is written as a literal block: it has several lines, no carriage return,
something besides blanks, and its first line that is not empty starts with neither blank nor tab. -/
def isBlock (s : List Char) : Bool :=
  s.contains '\n' && !s.contains '\r' && !s.all Text.isBlank
    && match (s.splitOn '\n').find? fun l => !l.isEmpty with
      | some l => l.head? != some ' ' && l.head? != some '\t'
      | none => false

/-- A text without the line ends at its end. -/
def body (s : List Char) : List Char :=
  (s.reverse.dropWhile (· == '\n')).reverse

/-- How many line ends close a text. -/
def closing (s : List Char) : Nat :=
  s.length - (body s).length

/-- The mark of a literal block that `n` line ends close. -/
def blockMark : Nat → List Char
  | 0 => ['|', '-']
  | 1 => ['|']
  | _ => ['|', '+']

/-- A literal block: its mark after `front`, and its lines at a level. -/
def blockLines (front : List Char) (s : List Char) (level : Nat) : List (List Char) :=
  (front ++ blockMark (closing s))
    :: ((body s).splitOn '\n').map (fun l => if l.isEmpty then [] else indent level ++ l)
    ++ List.replicate (closing s - 1) []

/-- A value on one line; collections are written as empty ones. -/
def scalar : Json → List Char
  | .null => ['n', 'u', 'l', 'l']
  | .bool true => ['t', 'r', 'u', 'e']
  | .bool false => ['f', 'a', 'l', 's', 'e']
  | .num n => n.digits
  | .str s => quote s.toList
  | .arr _ => ['[', ']']
  | .obj _ => ['{', '}']

/-- The lines of an entry of a list, whose first line is marked by a dash in place of its last two
blanks. -/
def dashed (level : Nat) : List (List Char) → List (List Char)
  | [] => []
  | l :: rest => (indent level ++ '-' :: ' ' :: l.drop (2 * (level + 1))) :: rest

mutual

/-- The lines of an entry of a map at a level. -/
def entryLines (level : Nat) (key : String) : Json → List (List Char)
  | .obj (m :: ms) => (indent level ++ quote key.toList ++ [':']) :: mapLines (level + 1) (m :: ms)
  | .arr (v :: vs) => (indent level ++ quote key.toList ++ [':']) :: seqLines (level + 1) (v :: vs)
  | .str s =>
    if isBlock s.toList then
      blockLines (indent level ++ quote key.toList ++ [':', ' ']) s.toList (level + 1)
    else [indent level ++ quote key.toList ++ [':', ' '] ++ scalar (.str s)]
  | v => [indent level ++ quote key.toList ++ [':', ' '] ++ scalar v]

/-- The lines of an item of a list at a level. -/
def itemLines (level : Nat) : Json → List (List Char)
  | .obj (m :: ms) => dashed level (mapLines (level + 1) (m :: ms))
  | .arr (v :: vs) => dashed level (seqLines (level + 1) (v :: vs))
  | .str s =>
    if isBlock s.toList then blockLines (indent level ++ ['-', ' ']) s.toList (level + 1)
    else [indent level ++ ['-', ' '] ++ scalar (.str s)]
  | v => [indent level ++ ['-', ' '] ++ scalar v]

/-- The lines of a map at a level. -/
def mapLines (level : Nat) : List (String × Json) → List (List Char)
  | [] => []
  | (key, v) :: rest => entryLines level key v ++ mapLines level rest

/-- The lines of a list at a level. -/
def seqLines (level : Nat) : List Json → List (List Char)
  | [] => []
  | v :: rest => itemLines level v ++ seqLines level rest

end

/-- The lines of a document. -/
def lines : Json → List (List Char)
  | .obj (m :: ms) => mapLines 0 (m :: ms)
  | .arr (v :: vs) => seqLines 0 (v :: vs)
  | .str s => if isBlock s.toList then blockLines [] s.toList 1 else [scalar (.str s)]
  | v => [scalar v]

/-- Lines as one text, each with its line end. -/
def unlines (ls : List (List Char)) : List Char :=
  ls.flatMap fun l => l ++ ['\n']

/-- A value as a document. -/
def write (v : Json) : String :=
  String.ofList (unlines (lines v))

end OntologyCompiler.Yaml
