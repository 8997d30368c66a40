import OntologyCompiler.Failure
import OntologyCompiler.Identifier.Derive
import OntologyCompiler.Identifier.Fresh
import OntologyCompiler.Ordered
import OntologyCompiler.Policy

/-!
# The registry of identifiers

Identifiers are claimed one after the other. The registry remembers who claimed what, under three
kinds of keys that do not meet: operation identifiers, schema stems and tool names. What a second
claim of the same key does is up to the collision policy.

* `Registry.claim_free`, `Registry.claimName_free`: what is free is given out unchanged.
-/

namespace OntologyCompiler

/-- What a claim comes to: the value to use, and a finding if it collided. -/
structure Claim (α : Type) where
  value : α
  finding : Option Finding

/-- Who claimed which identifier. -/
structure Registry where
  policy : CollisionPolicy
  operations : Ordered String String
  stems : Ordered String String
  toolNames : Ordered String String

namespace Registry

/-- The registry before any claim. -/
def new (policy : CollisionPolicy) : Registry :=
  ⟨policy, [], [], []⟩

/-- Who holds the operation identifier, or else the stem. -/
def holder? (r : Registry) (i : Identity) : Option String :=
  match Ordered.get? r.operations i.operationId with
  | some label => some label
  | none => Ordered.get? r.stems i.stem

/-- Note that both identifiers belong to an action. -/
def record (r : Registry) (label : String) (i : Identity) : Registry :=
  { r with
    operations := Ordered.put r.operations i.operationId label
    stems := Ordered.put r.stems i.stem label }

/-- Note that a tool name belongs to an action. -/
def recordName (r : Registry) (label toolName : String) : Registry :=
  { r with toolNames := Ordered.put r.toolNames toolName label }

/-- The identifiers with the least number at which both are free. -/
def renamed (r : Registry) (i : Identity) : Identity :=
  i.suffixed <| leastFree (fun n => (r.holder? (i.suffixed n)).isNone)
    (r.operations.length + r.stems.length + 1)

/-- A tool name with a number. -/
def numbered (toolName : String) (n : Nat) : String :=
  toolName ++ "_" ++ toString n

/-- The tool name with the least number at which it is free. -/
def renamedName (r : Registry) (toolName : String) : String :=
  numbered toolName <| leastFree
    (fun n => (Ordered.get? r.toolNames (numbered toolName n)).isNone) (r.toolNames.length + 1)

/-- Claim the identifiers of an action. -/
def claim (r : Registry) (label : String) (i : Identity) :
    Except Failure (Claim Identity × Registry) :=
  match r.holder? i with
  | none => .ok (⟨i, none⟩, r.record label i)
  | some first =>
    match r.policy with
    | .reject => .error (.identifierCollision i.operationId first label)
    | .overwrite =>
      .ok (⟨i, some (.identifierReplaced label i.operationId first)⟩, r.record label i)
    | .suffix =>
      let j := r.renamed i
      .ok (⟨j, some (.identifierRenamed label i.operationId first j.operationId)⟩, r.record label j)

/-- Claim the name of a tool. -/
def claimName (r : Registry) (label toolName : String) :
    Except Failure (Claim String × Registry) :=
  match Ordered.get? r.toolNames toolName with
  | none => .ok (⟨toolName, none⟩, r.recordName label toolName)
  | some first =>
    match r.policy with
    | .reject => .error (.identifierCollision toolName first label)
    | .overwrite =>
      .ok (⟨toolName, some (.toolNameReused label toolName first)⟩, r.recordName label toolName)
    | .suffix =>
      let other := r.renamedName toolName
      .ok (⟨other, some (.toolNameRenamed label toolName first other)⟩, r.recordName label other)

theorem claim_free {r : Registry} {i : Identity} (h : r.holder? i = none) (label : String) :
    r.claim label i = .ok (⟨i, none⟩, r.record label i) := by
  simp [claim, h]

theorem claimName_free {r : Registry} {toolName : String}
    (h : Ordered.get? r.toolNames toolName = none) (label : String) :
    r.claimName label toolName = .ok (⟨toolName, none⟩, r.recordName label toolName) := by
  simp [claimName, h]

end Registry
end OntologyCompiler
