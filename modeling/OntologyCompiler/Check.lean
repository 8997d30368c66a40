import OntologyCompiler.OpenApi.Document
import OntologyCompiler.Tool.Rendering

/-!
# Checking an ontology

A check compiles the whole ontology into a document and into the tools of every dialect, and reports
what was found, each diagnostic once.

* `check`: the report on an ontology.
* `Report.counts`: every diagnostic is counted as an error or as a warning.
-/

namespace OntologyCompiler

/-- The diagnostics of a check. -/
structure Report where
  diagnostics : List Diagnostic

namespace Report

/-- How many diagnostics are errors. -/
def errors (r : Report) : Nat :=
  (r.diagnostics.filter Diagnostic.isError).length

/-- How many diagnostics are warnings. -/
def warnings (r : Report) : Nat :=
  r.diagnostics.length - r.errors

theorem counts (r : Report) : r.errors + r.warnings = r.diagnostics.length := by
  have : r.errors ≤ r.diagnostics.length := List.length_filter_le _ _
  simp only [warnings]
  omega

/-- The report as an object. -/
def toJson (r : Report) : Json :=
  .obj [("diagnostics", .arr (r.diagnostics.map Diagnostic.toJson)), ("errors", .ofNat r.errors),
    ("warnings", .ofNat r.warnings)]

/-- The report in lines. -/
def text (r : Report) : String :=
  if r.diagnostics.isEmpty then "No problems found.\n"
  else
    String.join (r.diagnostics.map fun d => d.line ++ "\n")
      ++ toString r.errors ++ " error(s), " ++ toString r.warnings ++ " warning(s)\n"

end Report

/-- What compiling an ontology finds, in the order in which it is found. -/
def checkFindings (config : Config) (o : Ontology) : Except Failure (List Finding) := do
  let document ← assemble config (.whole o)
  let tools ← Dialect.all.mapM (emit config (.whole o))
  return config.findings ++ document.findings ++ tools.flatMap Compiled.findings

/-- The report on an ontology. -/
def check (config : Config) (o : Ontology) : Except Failure Report := do
  return ⟨((← checkFindings config o).map Finding.diagnostic).eraseDups⟩

end OntologyCompiler
