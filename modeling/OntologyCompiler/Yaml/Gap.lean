import OntologyCompiler.Yaml.Cursor

/-!
# Blanks and line ends within a text

Between two words of a text that runs over several lines, one line end counts as a blank, and of
several all but the first are kept.

* `folded_of_inline`: blanks within a line are kept as they are.
-/

namespace OntologyCompiler.Yaml.Gap

/-- What a gap between two words counts as. -/
def folded (gap : List Char) : List Char :=
  match gap.filter isBreak with
  | [] => gap
  | ['\n'] => [' ']
  | '\n' :: more => more
  | breaks => breaks

/-- What a gap after an escaped line end counts as. -/
def foldedAfterEscape (gap : List Char) : List Char :=
  gap.filter isBreak

theorem folded_of_inline {gap : List Char} (h : gap.filter isBreak = []) : folded gap = gap := by
  simp [folded, h]

end OntologyCompiler.Yaml.Gap
