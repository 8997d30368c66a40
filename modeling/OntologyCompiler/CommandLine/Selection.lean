import OntologyCompiler.Plan
import OntologyCompiler.Rendering

/-!
# What to compile, and in which format

* `Selection.scope`: the scope that a selection picks out of an ontology.
* `chooseFormat`: the format of the output.
-/

namespace OntologyCompiler

/-- A choice of one object, or of one action of it. -/
structure Selection where
  object : Option String := none
  action : Option String := none
  deriving DecidableEq, Inhabited

namespace Selection

/-- The scope that is selected. An action without an object says nothing. -/
def scope (s : Selection) (o : Ontology) : Except Failure Scope :=
  match s.object with
  | none => .ok (.whole o)
  | some key =>
    match o.object? key with
    | none => .error (.objectNotFound key)
    | some e =>
      match s.action with
      | none => .ok (.object e)
      | some actionKey =>
        match e.action? actionKey with
        | none => .error (.actionNotFound actionKey e.name)
        | some a => .ok (.action e.name a)

end Selection

/-- The format of the output: JSON if that is asked for, else the named one, else the one that the
extension of the output file names, else JSON. -/
def chooseFormat (named out : Option String) (json : Bool) : Except Failure Format :=
  if json then .ok .json
  else
    match named with
    | some given =>
      match Format.parse? given with
      | some f => .ok f
      | none => .error (.unknownFormat given)
    | none => .ok ((out.bind Format.ofPath?).getD .json)

end OntologyCompiler
