/-!
# Lines of a text

* `lines_cons`: a character that does not end a line opens the first of the lines behind it.
-/

namespace OntologyCompiler.Text

/-- The lines of a text. A line ends at a line feed, together with a carriage return right before
it; what stands behind the last line feed is a line if there is something. -/
def lines : List Char → List (List Char)
  | [] => []
  | '\n' :: rest => [] :: lines rest
  | '\r' :: '\n' :: rest => [] :: lines rest
  | c :: rest =>
    match lines rest with
    | [] => [[c]]
    | l :: more => (c :: l) :: more

theorem lines_cons {c : Char} (hline : c ≠ '\n') (hreturn : c ≠ '\r') (rest : List Char) :
    lines (c :: rest) = (c :: (lines rest).headD []) :: (lines rest).tail := by
  rw [lines]
  · cases lines rest <;> rfl
  · exact hline
  · exact fun _ heq _ => hreturn heq

end OntologyCompiler.Text
