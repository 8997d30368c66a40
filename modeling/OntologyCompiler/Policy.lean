import OntologyCompiler.Json.Basic
import OntologyCompiler.Reading.Medium

/-!
# What to do about collisions

Two actions may derive the same identifier, and two operations may land on the same path and method.
The policy says whether the later one replaces the earlier, gets another name, or ends the
compilation.

* `CollisionPolicy.parse?_name`: a policy is read from its own name, and from nothing else.
-/

namespace OntologyCompiler

/-- What happens to the later of two that collide. -/
inductive CollisionPolicy where
  /-- It replaces the earlier one, and the replacement is reported. -/
  | overwrite
  /-- It gets a numeric suffix. -/
  | suffix
  /-- The compilation ends. -/
  | reject
  deriving DecidableEq, Inhabited

namespace CollisionPolicy

/-- The written name. -/
def name : CollisionPolicy → String
  | overwrite => "overwrite"
  | suffix => "suffix"
  | reject => "reject"

/-- The policies by name. -/
def table : List (String × CollisionPolicy) :=
  [overwrite, suffix, reject].map fun p => (p.name, p)

/-- The policy of a name. -/
def parse? (s : String) : Option CollisionPolicy :=
  table.lookup s

theorem parse?_name (p : CollisionPolicy) : parse? p.name = some p := by
  cases p <;> decide +kernel

/-- Read a policy from its name. -/
def read {ν : Type} {m : Type → Type} [Reads m] [Medium ν m] : ν → m CollisionPolicy :=
  Reading.variant table

/-- A policy as a value. -/
def toJson (p : CollisionPolicy) : Json :=
  .str p.name

end CollisionPolicy
end OntologyCompiler
