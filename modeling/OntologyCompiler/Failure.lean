import OntologyCompiler.Files.Fault
import OntologyCompiler.Finding

/-!
# Failures

A failure ends what was going on. It is kept as its cause; `Failure.message` has the words.

* `Failure.isDocumentFault`: the failures of reading a document, whose exact cause lies in its text.
-/

namespace OntologyCompiler

/-- Why something cannot be done. -/
inductive Failure where
  /-- No object has the key. -/
  | objectNotFound (key : String)
  /-- The object has no action with the key. -/
  | actionNotFound (key object : String)
  /-- An action without a name, where every action has to have one. -/
  | unnamedAction (object : String)
  /-- Two actions derive one identifier. -/
  | identifierCollision (identifier first second : String)
  /-- Two actions define one operation. -/
  | operationCollision (verb : Verb) (path first second : String)
  | unknownDialect (given : String)
  | unknownFormat (given : String)
  | unknownTarget (given : String)
  | unknownPolicy (given : String)
  | file (fault : FileFault)
  /-- A YAML document that cannot be read. -/
  | yaml
  /-- A JSON document that cannot be read. -/
  | json (fault : Fault)
  /-- A configuration is there already. -/
  | configExists (path : String)
  /-- A check found errors. -/
  | errorsFound (count : Nat)
  deriving DecidableEq

namespace Failure

open Finding (quoted)

/-- The words of a failure. -/
def message : Failure → String
  | objectNotFound key => "object not found: " ++ key
  | actionNotFound key object => "action " ++ quoted key ++ " not found on object " ++ quoted object
  | unnamedAction object => "action on object " ++ quoted object ++ " has an empty name"
  | identifierCollision identifier first second =>
    "identifier " ++ quoted identifier ++ " derived from " ++ quoted second ++ " collides with "
      ++ quoted first
  | operationCollision verb path first second =>
    "operation " ++ verb.name ++ " " ++ path ++ " is defined by both " ++ quoted first ++ " and "
      ++ quoted second
  | unknownDialect given =>
    "unknown tool dialect " ++ quoted given
      ++ ": expected one of openai, langchain, claude, mcp, universal"
  | unknownFormat given => "unknown output format " ++ quoted given ++ ": expected json or yaml"
  | unknownTarget given =>
    "unknown code target " ++ quoted given ++ ": expected python or typescript"
  | unknownPolicy given =>
    "unknown collision policy " ++ quoted given ++ ": expected overwrite, suffix, or reject"
  | file fault => fault.message
  | yaml => "the document is not the YAML text of the wanted type"
  | json fault => fault.message.getD "the document is not JSON text"
  | configExists path => path ++ " already exists (use --force to overwrite)"
  | errorsFound count => "check found " ++ toString count ++ " error(s)"

/-- Whether a document could not be read for what stands in it. -/
def isDocumentFault : Failure → Bool
  | yaml => true
  | json _ => true
  | file .notText => true
  | _ => false

end Failure
end OntologyCompiler
