import OntologyCompiler.Finding
import OntologyCompiler.Identifier.Derive
import OntologyCompiler.Identifier.Fresh
import OntologyCompiler.Json.Printer

/-!
# Names in generated code

Names are bound in a scope one after the other. A name that is taken gets the least number at which
it is free, and that is reported.

* `commentText`: a text made safe for a comment.
-/

namespace OntologyCompiler

/-- The names bound in one scope of generated code. -/
structure NameScope where
  target : CodeTarget
  taken : List String

namespace NameScope

/-- A name with a number. -/
def numbered (candidate sep : String) (n : Nat) : String :=
  candidate ++ sep ++ toString n

/-- The name that is bound for a candidate. -/
def fresh (s : NameScope) (candidate sep : String) : String :=
  if candidate ∈ s.taken then
    numbered candidate sep <|
      leastFree (fun n => !(numbered candidate sep n ∈ s.taken)) (s.taken.length + 1)
  else candidate

/-- Bind a candidate for an owner: the name, what is found, and the scope with the name in it. -/
def bind (s : NameScope) (candidate sep owner : String) : String × List Finding × NameScope :=
  let bound := s.fresh candidate sep
  (bound, if bound = candidate then [] else [.boundOtherwise s.target candidate owner bound],
    { s with taken := bound :: s.taken })

end NameScope

/-- The end of a comment taken apart. -/
def openedComment : List Char → List Char
  | '*' :: '/' :: rest => '*' :: ' ' :: '/' :: openedComment rest
  | c :: rest => c :: openedComment rest
  | [] => []

/-- Characters that would end a quotation replaced by harmless ones. -/
def unquotedChar (c : Char) : Char :=
  if c = '"' then Char.ofNat 39 else if c = '\\' then '/' else c

/-- A text for a comment: the end of a comment taken apart first, then quotes and backslashes
replaced. -/
def commentText (s : String) : String :=
  String.ofList ((openedComment s.toList).map unquotedChar)

/-- A text literal of generated code. -/
def codeLiteral (s : String) : String :=
  String.ofList (Json.literal s)

/-- The name of the type of the arguments of a tool. -/
def argumentsName (tool : String) : String :=
  match stemChars tool.toList with
  | [] => "ToolArgs"
  | c :: cs => (if c.isDigit then "Tool" else "") ++ String.ofList (c :: cs) ++ "Args"

end OntologyCompiler
