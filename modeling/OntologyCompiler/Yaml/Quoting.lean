import OntologyCompiler.Double.Literal
import OntologyCompiler.Text.Ascii

/-!
# Plain and quoted texts in YAML

A text is written plain unless a reader could take it for something else: a mark of the notation, a
word for a truth value or for nothing, or a number. Otherwise it is written in double quotes.

* `quote_plain`: what needs no quotes is written as it is.
* `escapedChar_ne_nil`: no character is lost in quotes.
-/

namespace OntologyCompiler.Yaml

/-- The characters that no plain text holds. -/
def isNeverPlain (c : Char) : Bool :=
  [':', '#', Char.ofNat 39, '\n', '\r', '\t'].contains c

/-- The characters with which no plain text starts. -/
def isNeverFirst (c : Char) : Bool :=
  ['{', '[', '"', '-', '?', '&', '*', '!', '|', '>', '%', '@', Char.ofNat 96, ',', ' '].contains c

/-- The words for truth values and for nothing, some of them in older readers only. -/
def reservedWords : List String :=
  ["true", "false", "yes", "no", "on", "off", "null", "~"]

/-- The digits of a number in base 16, 8 or 2 after its mark. -/
def radixDigits? : List Char → Option (Nat × List Char)
  | '0' :: 'x' :: ds => some (16, ds)
  | '0' :: 'o' :: ds => some (8, ds)
  | '0' :: 'b' :: ds => some (2, ds)
  | _ => none

/-- Whether a character in lower case is a digit in a base. -/
def isDigitIn (base : Nat) (c : Char) : Bool :=
  if c.isDigit then c.toNat - 48 < base else 'a' ≤ c && c.toNat - 87 < base

/-- Whether a text could be taken for a number: decimal, in another base, infinite, no number at
all, also with underscores between its digits. -/
def looksNumeric (s : List Char) : Bool :=
  let lower := s.map Char.toLower
  let unsigned := lower.dropWhile fun c => c == '+' || c == '-'
  if unsigned == ['.', 'i', 'n', 'f'] || unsigned == ['.', 'n', 'a', 'n'] then true
  else
    match radixDigits? unsigned with
    | some (base, ds) => !ds.isEmpty && ds.all fun c => c == '_' || isDigitIn base c
    | none =>
      DecimalLiteral.isLiteral lower || DecimalLiteral.isLiteral (lower.filter (· != '_'))

/-- Whether a text has to be quoted. -/
def needsQuotes (s : List Char) : Bool :=
  s.isEmpty || s.any isNeverPlain || s.head?.any isNeverFirst || s.getLast? == some ' '
    || reservedWords.contains (String.ofList (s.map Char.toLower)) || looksNumeric s

/-- How one character stands in quotes. -/
def escapedChar (c : Char) : List Char :=
  if c = '\\' then ['\\', '\\']
  else if c = '"' then ['\\', '"']
  else if c = '\n' then ['\\', 'n']
  else if c = '\r' then ['\\', 'r']
  else if c = '\t' then ['\\', 't']
  else [c]

theorem escapedChar_ne_nil (c : Char) : escapedChar c ≠ [] := by
  unfold escapedChar
  repeat' split
  all_goals simp

/-- A text on one line, in quotes where it needs them. -/
def quote (s : List Char) : List Char :=
  if needsQuotes s then '"' :: s.flatMap escapedChar ++ ['"'] else s

theorem quote_plain {s : List Char} (h : needsQuotes s = false) : quote s = s := by
  simp [quote, h]

end OntologyCompiler.Yaml
