import OntologyCompiler.Config
import OntologyCompiler.Identifier.PathTemplate
import OntologyCompiler.Identifier.Registry

/-!
# Scopes and plans

A scope is the part of an ontology that a compilation covers, seen as a list of actions with the
names of their objects. Planning settles for each action in turn under which identifiers, path and
method it appears; all identifiers go through one registry.

* `Scope.actions`: the actions of a scope with the names of their objects.
* `Planner.planAll`: the plans of actions in their order, or the failure of the first without one.
-/

namespace OntologyCompiler

/-- The part of an ontology that a compilation covers. -/
inductive Scope where
  | action (object : String) (action : Action)
  | object (object : Entity)
  | whole (ontology : Ontology)

namespace Scope

/-- The object of an action that names none. -/
def defaultObject : String := "resource"

/-- A single action, as one of the object that it names itself. -/
def ofAction (a : Action) : Scope :=
  .action ((a.business.bind fun b => Text.nonBlank? b.targetObject).getD defaultObject) a

/-- The actions of one object. -/
def objectActions (o : Entity) : List (String × Action) :=
  o.actions.map fun a => (o.name, a)

/-- The actions covered, each with the name of its object. -/
def actions : Scope → List (String × Action)
  | .action name a => [(name, a)]
  | .object o => objectActions o
  | .whole o => o.objects.flatMap objectActions

/-- The ontology, where all of it is covered. -/
def ontology? : Scope → Option Ontology
  | whole o => some o
  | _ => none

end Scope

/-- An action with its place among the others. -/
structure ActionPlan where
  action : Action
  object : String
  label : String
  identity : Identity
  path : String
  verb : Verb

namespace Action

/-- The label of an action in findings. -/
def label (a : Action) (object : String) : String :=
  object ++ "." ++ Text.strip a.name

/-- The path: the authored one, or else one made of the object and the identifier. -/
def pathIn (a : Action) (object : String) : String :=
  a.explicitPath.getD (PathTemplate.ofObject object (Identity.derive a.name).operationId)

/-- The method: the authored one if it is known. -/
def verb (a : Action) : Verb :=
  (a.explicitMethod.bind Verb.parse?).getD default

/-- The finding of an action without a name. -/
def nameFinding (a : Action) (object : String) : List Finding :=
  if Text.isBlankText a.name then [.unnamedAction object] else []

/-- The finding of an authored method that is not known. -/
def verbFinding (a : Action) (label : String) : List Finding :=
  match a.explicitMethod with
  | none => []
  | some m => if (Verb.parse? m).isNone then [.unknownMethod label m] else []

end Action

/-- The state of planning. -/
structure Planner where
  registry : Registry
  strict : Bool
  findings : List Finding

namespace Planner

/-- Before the first action. -/
def new (config : Config) : Planner :=
  ⟨.new config.collisions, config.strict, []⟩

/-- Add findings. -/
def report (p : Planner) (findings : List Finding) : Planner :=
  { p with findings := p.findings ++ findings }

/-- Whether planning ends at an action for want of a name. -/
def refuses (p : Planner) (a : Action) : Bool :=
  p.strict && Text.isBlankText a.name

/-- Plan an action of an object. What is found before a collision that ends the planning stays
found. -/
def plan (p : Planner) (object : String) (a : Action) : Except Failure ActionPlan × Planner :=
  let object := Text.strip object
  let label := a.label object
  if p.refuses a then (.error (.unnamedAction object), p)
  else
    let p := p.report (a.nameFinding object)
    match p.registry.claim label (.derive a.name) with
    | .error e => (.error e, p)
    | .ok (claim, registry) =>
      (.ok ⟨a, object, label, claim.value, a.pathIn object, a.verb⟩,
        { p with registry := registry }.report (claim.finding.toList ++ a.verbFinding label))

/-- Plan actions one after the other, up to the first failure. -/
def planAll : Planner → List (String × Action) → Except Failure (List ActionPlan × Planner)
  | p, [] => .ok ([], p)
  | p, (object, a) :: rest =>
    match p.plan object a with
    | (.error e, _) => .error e
    | (.ok plan, p) => do
      let (plans, p) ← planAll p rest
      return (plan :: plans, p)

end Planner
end OntologyCompiler
