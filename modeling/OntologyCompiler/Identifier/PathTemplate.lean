import OntologyCompiler.Identifier.Derive

/-!
# Path templates

A template is a path with variables in braces. A variable is what stands between an opening brace
and a closing one with no brace between them; blanks around it do not count, and blank ones are no
variables.

* `braced_cons_open`: an opening brace forgets an earlier one that was not closed.
-/

namespace OntologyCompiler

/-- Each name once, in the order of first appearance. -/
def distinct {α : Type} [DecidableEq α] (xs : List α) : List α :=
  xs.foldl (fun seen x => if x ∈ seen then seen else seen ++ [x]) []

theorem mem_foldl_distinct {α : Type} [DecidableEq α] {y : α} : ∀ (xs seen : List α),
    y ∈ xs.foldl (fun seen x => if x ∈ seen then seen else seen ++ [x]) seen ↔ y ∈ seen ∨ y ∈ xs
  | [], seen => by simp
  | x :: xs, seen => by
    rw [List.foldl_cons, mem_foldl_distinct xs]
    by_cases h : x ∈ seen
    · simp only [h, if_true, List.mem_cons]
      constructor
      · rintro (h' | h')
        · exact Or.inl h'
        · exact Or.inr (Or.inr h')
      · rintro (h' | rfl | h')
        · exact Or.inl h'
        · exact Or.inl h
        · exact Or.inr h'
    · simp [h, or_assoc]

theorem mem_distinct {α : Type} [DecidableEq α] {y : α} {xs : List α} :
    y ∈ distinct xs ↔ y ∈ xs := by
  simp [distinct, mem_foldl_distinct]

namespace PathTemplate

/-- The contents of closed braces. The first argument holds what has been read since the last
opening brace, last character first. -/
def braced : Option (List Char) → List Char → List (List Char)
  | _, [] => []
  | inside, c :: cs =>
    if c = '{' then braced (some []) cs
    else if c = '}' then
      match inside with
      | some (d :: ds) => (d :: ds).reverse :: braced none cs
      | _ => braced none cs
    else braced (inside.map (c :: ·)) cs

theorem braced_cons_open (inside : Option (List Char)) (cs : List Char) :
    braced inside ('{' :: cs) = braced (some []) cs := by
  simp [braced]

/-- The variables of a template, each once, in the order of first appearance. -/
def params (template : String) : List String :=
  distinct ((braced none template.toList).filterMap fun w => Text.nonBlank? (String.ofList w))

/-- The path of an action of an object that authors none. -/
def ofObject (object operationId : String) : String :=
  "/api/" ++ String.ofList (collapse isGap '-' (Text.lowerChars (Text.stripChars object.toList)))
    ++ "s/\x7bid\x7d/" ++ operationId

end PathTemplate
end OntologyCompiler
