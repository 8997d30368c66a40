import OntologyCompiler.Text.Blank
import OntologyCompiler.Text.Case

/-!
# Identifiers derived from names

An operation identifier is a name in lower case with `_` for every run of blanks and hyphens; a
schema stem is the same name with each of its words capitalised and run together. Both drop whatever
is not a letter or digit of ASCII (`_` apart). A name of which nothing is left is replaced by a
fixed one.

* `identifierChars_shape`: operation identifiers are made of `a` to `z`, `0` to `9` and `_`.
* `stemChars_shape`: stems are made of letters and digits of ASCII.
-/

namespace OntologyCompiler

/-- Every run of characters of a class replaced by one `mark`; `inRun` says that the run has been
marked already. -/
def collapseFrom (p : Char → Bool) (mark : Char) : Bool → List Char → List Char
  | _, [] => []
  | inRun, c :: cs =>
    if p c then
      if inRun then collapseFrom p mark true cs else mark :: collapseFrom p mark true cs
    else c :: collapseFrom p mark false cs

/-- Every run of characters of a class replaced by one `mark`. -/
def collapse (p : Char → Bool) (mark : Char) (cs : List Char) : List Char :=
  collapseFrom p mark false cs

/-- The blanks and hyphens that part the words of a name. -/
def isGap (c : Char) : Bool :=
  Text.isBlank c || c == '-'

/-- The characters of an operation identifier. -/
def isIdentifierChar (c : Char) : Bool :=
  c.isLower || c.isDigit || c == '_'

/-- The operation identifier of a name. -/
def identifierChars (name : List Char) : List Char :=
  (collapse isGap '_' (Text.lowerChars (Text.stripChars name))).filter isIdentifierChar

theorem identifierChars_shape {name : List Char} : ∀ c ∈ identifierChars name,
    isIdentifierChar c = true :=
  fun _ h => (List.mem_filter.mp h).2

/-- The words of a name, parted by blanks, hyphens and underscores. -/
def words (name : List Char) : List (List Char) :=
  (name.splitOnP fun c => isGap c || c == '_').filter fun w => !w.isEmpty

/-- A word with a capital. -/
def capitalised : List Char → List Char
  | [] => []
  | c :: cs => Text.capitalAscii c ++ cs

/-- The schema stem of a name. -/
def stemChars (name : List Char) : List Char :=
  ((words name).flatMap capitalised).filter Char.isAlphanum

theorem stemChars_shape {name : List Char} : ∀ c ∈ stemChars name, c.isAlphanum = true :=
  fun _ h => (List.mem_filter.mp h).2

/-- The operation identifier of a name. -/
def identifierOf (name : String) : String :=
  String.ofList (identifierChars name.toList)

/-- The schema stem of a name. -/
def stemOf (name : String) : String :=
  String.ofList (stemChars name.toList)

/-- The identifiers of one action: its operation, and the stem of its schemas. -/
structure Identity where
  operationId : String
  stem : String
  deriving DecidableEq, Inhabited

namespace Identity

/-- Where nothing is left of a name. -/
def fallback : Identity :=
  ⟨"action", "Action"⟩

/-- The identifiers of a name. -/
def derive (name : String) : Identity :=
  let id := identifierOf name
  let stem := stemOf name
  if id.toList.all (· == '_') then fallback
  else if stem.isEmpty then ⟨id, stemOf id⟩
  else ⟨id, stem⟩

/-- The name of the schema of requests. -/
def requestSchema (i : Identity) : String :=
  i.stem ++ "Request"

/-- The name of the schema of responses. -/
def responseSchema (i : Identity) : String :=
  i.stem ++ "Response"

/-- The same identifiers with a number. -/
def suffixed (i : Identity) (n : Nat) : Identity :=
  ⟨i.operationId ++ "_" ++ toString n, i.stem ++ toString n⟩

end Identity
end OntologyCompiler
