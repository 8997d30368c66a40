import OntologyCompiler.Json.Printer
import OntologyCompiler.Text.Blank

/-!
# Tables of text

A table is shown as a line of headers, a line of dashes and a line for each row. Each column is as
wide as its widest cell; blanks at the end of a line are dropped.

* `Table.text`: the table as text.
-/

namespace OntologyCompiler

/-- A table. -/
structure Table where
  headers : List String
  rows : List (List String)

namespace Table

/-- Widen columns so that a row fits. -/
def widen : List Nat → List String → List Nat
  | w :: ws, cell :: cells => max w cell.length :: widen ws cells
  | ws, _ => ws

/-- The widths of the columns. -/
def widths (t : Table) : List Nat :=
  t.rows.foldl widen (t.headers.map String.length)

/-- A cell filled up to a width. -/
def padded (cell : String) (width : Nat) : List Char :=
  cell.toList ++ List.replicate (width - cell.length) ' '

/-- The line of a row; cells beyond the last column are dropped. -/
def line (ws : List Nat) (cells : List String) : List Char :=
  Text.stripBack (Json.joined [' ', ' '] (cells.zipWith padded ws)) ++ ['\n']

/-- The table as text. -/
def text (t : Table) : String :=
  let ws := t.widths
  let rule := ws.map fun w => String.ofList (List.replicate w '-')
  String.ofList (line ws t.headers ++ line ws rule ++ t.rows.flatMap (line ws))

end Table
end OntologyCompiler
