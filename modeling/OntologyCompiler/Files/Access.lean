import OntologyCompiler.Failure
import OntologyCompiler.Files.Path

/-!
# Access to files

What is done with files is said here for any way of reaching them. A file is written only if its
text changes, and then as a whole.

* `writeArtifact`: write a file, with the directories around it.
-/

namespace OntologyCompiler

/-- A way of reaching files. -/
class Files (m : Type → Type) where
  /-- The directory that paths start from. -/
  current : m String
  /-- The text of a file. -/
  read : String → m (Except FileFault String)
  /-- Whether a path leads to a file. -/
  isFile : String → m Bool
  /-- Whether a path leads to anything. -/
  isPresent : String → m Bool
  /-- Make a directory and those around it, unless they are there. -/
  makeDirectories : String → m (Except FileFault Unit)
  /-- Put a file with a text where a path leads to. -/
  replace : String → String → m (Except FileFault Unit)

/-- What writing a file did. -/
inductive WriteOutcome where
  | written
  | unchanged
  deriving DecidableEq

namespace WriteOutcome

/-- The written name. -/
def name : WriteOutcome → String
  | written => "Written"
  | unchanged => "Unchanged"

end WriteOutcome

namespace Files

variable {m : Type → Type} [Monad m] [Files m]

/-- An action on files, whose fault is a failure. -/
def orFail {α : Type} (act : m (Except FileFault α)) : ExceptT Failure m α :=
  ExceptT.mk do return (← act).mapError .file

/-- The text of a file. -/
def readText (path : String) : ExceptT Failure m String :=
  orFail (read path)

/-- Write a file, unless it has the text already. -/
def writeArtifact (path text : String) : ExceptT Failure m WriteOutcome := do
  match ← (read path : m _) with
  | .ok present => if present = text then return .unchanged
  | .error _ => pure ()
  match Path.parent? path with
  | some parent => orFail (makeDirectories parent)
  | none => pure ()
  orFail (replace path text)
  return .written

end Files
end OntologyCompiler
