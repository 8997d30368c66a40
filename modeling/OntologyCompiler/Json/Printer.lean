import OntologyCompiler.Json.Basic
import OntologyCompiler.Text.Quotation

/-!
# Writing JSON

`compact` writes a value without blanks. `pretty` writes it over several lines, each level indented
by two blanks more than the one around it. In texts only the quote, the backslash and the controls
below the blank are escaped.

* `prettyChars_arr`, `prettyChars_obj`: lists and objects with something in them.
-/

namespace OntologyCompiler.Json

/-- How one character stands in a text literal. -/
def literalChar (c : Char) : List Char :=
  if c = '"' then ['\\', '"']
  else if c = '\\' then ['\\', '\\']
  else if c.toNat = 8 then ['\\', 'b']
  else if c = '\t' then ['\\', 't']
  else if c = '\n' then ['\\', 'n']
  else if c.toNat = 12 then ['\\', 'f']
  else if c = '\r' then ['\\', 'r']
  else if c.toNat < 32 then
    ['\\', 'u', '0', '0'] ++ (if c.toNat < 16 then ['0'] else []) ++ Text.hexDigits c.toNat
  else [c]

/-- A text literal. -/
def literal (s : String) : List Char :=
  '"' :: s.toList.flatMap literalChar ++ ['"']

/-- Lists joined with a separator between neighbours. -/
def joined (sep : List Char) : List (List Char) → List Char
  | [] => []
  | [x] => x
  | x :: y :: rest => x ++ sep ++ joined sep (y :: rest)

mutual

/-- A value without blanks. -/
def compactChars : Json → List Char
  | null => ['n', 'u', 'l', 'l']
  | bool true => ['t', 'r', 'u', 'e']
  | bool false => ['f', 'a', 'l', 's', 'e']
  | num n => n.digits
  | str s => literal s
  | arr items => '[' :: joined [','] (compactItems items) ++ [']']
  | obj members => '{' :: joined [','] (compactMembers members) ++ ['}']

/-- The items of an array. -/
def compactItems : List Json → List (List Char)
  | [] => []
  | v :: rest => compactChars v :: compactItems rest

/-- The members of an object. -/
def compactMembers : List (String × Json) → List (List Char)
  | [] => []
  | (k, v) :: rest => (literal k ++ ':' :: compactChars v) :: compactMembers rest

end

/-- A value on one line, without blanks. -/
def compact (v : Json) : String :=
  String.ofList (compactChars v)

/-- A line end, and the blanks in front of what stands on a level. -/
def lineStart (level : Nat) : List Char :=
  '\n' :: List.replicate (2 * level) ' '

mutual

/-- A value over several lines, of which the first is under way on a level. -/
def prettyChars (level : Nat) : Json → List Char
  | arr [] => ['[', ']']
  | arr (v :: rest) =>
    '[' :: joined [','] (prettyItems (level + 1) (v :: rest)) ++ lineStart level ++ [']']
  | obj [] => ['{', '}']
  | obj (m :: rest) =>
    '{' :: joined [','] (prettyMembers (level + 1) (m :: rest)) ++ lineStart level ++ ['}']
  | null => compactChars null
  | bool b => compactChars (bool b)
  | num n => n.digits
  | str s => literal s

/-- The items of an array, each on a line of its own. -/
def prettyItems (level : Nat) : List Json → List (List Char)
  | [] => []
  | v :: rest => (lineStart level ++ prettyChars level v) :: prettyItems level rest

/-- The members of an object, each on a line of its own. -/
def prettyMembers (level : Nat) : List (String × Json) → List (List Char)
  | [] => []
  | (k, v) :: rest =>
    (lineStart level ++ literal k ++ [':', ' '] ++ prettyChars level v) :: prettyMembers level rest

end

theorem prettyChars_arr (level : Nat) {items : List Json} (h : items ≠ []) :
    prettyChars level (arr items) =
      '[' :: joined [','] (prettyItems (level + 1) items) ++ lineStart level ++ [']'] := by
  cases items with
  | nil => exact absurd rfl h
  | cons v rest => rw [prettyChars]

theorem prettyChars_obj (level : Nat) {members : List (String × Json)} (h : members ≠ []) :
    prettyChars level (obj members) =
      '{' :: joined [','] (prettyMembers (level + 1) members) ++ lineStart level ++ ['}'] := by
  cases members with
  | nil => exact absurd rfl h
  | cons m rest => obtain ⟨k, v⟩ := m; rw [prettyChars]

/-- A value over several lines, without a line end after the last. -/
def pretty (v : Json) : String :=
  String.ofList (prettyChars 0 v)

end OntologyCompiler.Json
