import OntologyCompiler.Ontology.Action

/-!
# Ontologies

An ontology is a list of objects, each with its properties and its actions.

* `mem_of_object?`: the object of a key is one of the ontology's objects.
-/

namespace OntologyCompiler

/-- A property of an object. -/
structure Property where
  name : String := ""
  kind : String := ""
  description : String := ""
  primaryKey : Bool := false
  required : Bool := false
  deriving Inhabited

/-- An object of an ontology. -/
structure Entity where
  id : String := ""
  name : String := ""
  description : String := ""
  properties : List Property := []
  actions : List Action := []
  deriving Inhabited

/-- An ontology. -/
structure Ontology where
  name : Option String := none
  version : Option String := none
  objects : List Entity := []
  deriving Inhabited

namespace Entity

/-- Whether a key is the identifier of the object; an empty identifier is none. -/
def hasId (o : Entity) (key : String) : Bool :=
  !o.id.isEmpty && o.id == key

/-- The action with an identifier, or else with a name up to blanks around it and the case of its
letters. -/
def action? (o : Entity) (key : String) : Option Action :=
  match o.actions.find? fun a => a.id == some key with
  | some a => some a
  | none => o.actions.find? fun a => Text.sameLetters (Text.strip a.name) key

end Entity

namespace Ontology

/-- Where the object of a key stands: the first with that identifier, or else the first with that
name up to the case of its letters. -/
def objectIndex? (o : Ontology) (key : String) : Option Nat :=
  match o.objects.findIdx? (·.hasId key) with
  | some i => some i
  | none => o.objects.findIdx? fun e => Text.sameLetters e.name key

/-- The object of a key. -/
def object? (o : Ontology) (key : String) : Option Entity :=
  (o.objectIndex? key).bind fun i => o.objects[i]?

theorem mem_of_object? {o : Ontology} {key : String} {e : Entity} (h : o.object? key = some e) :
    e ∈ o.objects := by
  obtain ⟨i, _, hi⟩ := Option.bind_eq_some_iff.mp h
  exact List.mem_of_getElem? hi

end Ontology
end OntologyCompiler
