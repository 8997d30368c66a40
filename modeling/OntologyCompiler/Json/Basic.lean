import OntologyCompiler.Double.Decimal
import OntologyCompiler.Ordered

/-!
# JSON values

Members of an object keep the order in which they were written. A number is a whole number of 64
bits, signed or unsigned, or a double.

* `member?`: the value of a member.
* `Plain`: what holds of every value that was read from a text: distinct names in each object, whole
  numbers within their range.
-/

namespace OntologyCompiler

-- Powers are those of the core library, whatever else is imported; so exponents carry their type.
attribute [local instance (high)] instPowNat

/-- A number of a JSON value. -/
inductive Number where
  | whole (n : Int)
  | real (x : Double)
  deriving DecidableEq

namespace Number

/-- The whole numbers that are kept as such. -/
def InRange (n : Int) : Prop :=
  -(2 ^ (63 : Nat)) ≤ n ∧ n < 2 ^ (64 : Nat)

instance (n : Int) : Decidable (InRange n) := by
  unfold InRange; infer_instance

/-- The written form of a whole number. -/
def wholeDigits (n : Int) : List Char :=
  (if n < 0 then ['-'] else []) ++ Nat.toDigits 10 n.natAbs

/-- The written form of a number. -/
def digits : Number → List Char
  | whole n => wholeDigits n
  | real x => x.digits

end Number

/-- A JSON value. -/
inductive Json where
  | null
  | bool (b : Bool)
  | num (n : Number)
  | str (s : String)
  | arr (items : List Json)
  | obj (members : List (String × Json))
  deriving Inhabited

namespace Json

/-- A whole number as a value. -/
def ofNat (n : Nat) : Json :=
  num (.whole n)

/-- A list of texts as a value. -/
def ofStrings (ss : List String) : Json :=
  arr (ss.map str)

/-- An object with the members that are present. -/
def record (members : List (Option (String × Json))) : Json :=
  obj (members.filterMap id)

/-- A member that is always written. -/
def always (name : String) (v : Json) : Option (String × Json) :=
  some (name, v)

/-- A member that is written when there is a value. -/
def whenSome {α : Type} (name : String) (v : Option α) (f : α → Json) : Option (String × Json) :=
  v.map fun a => (name, f a)

/-- A member that is written unless its list is empty. -/
def unlessEmpty {α : Type} (name : String) (xs : List α) (f : List α → Json) :
    Option (String × Json) :=
  if xs.isEmpty then none else some (name, f xs)

/-- The value of a member; none if there is no such member or no object. -/
def member? : Json → String → Option Json
  | obj members, name => Ordered.get? members name
  | _, _ => none

mutual

/-- How deep lists and objects are nested in a value. -/
def height : Json → Nat
  | arr items => itemsHeight items + 1
  | obj members => membersHeight members + 1
  | _ => 0

/-- The greatest height of the items. -/
def itemsHeight : List Json → Nat
  | [] => 0
  | v :: rest => max (height v) (itemsHeight rest)

/-- The greatest height of the values of the members. -/
def membersHeight : List (String × Json) → Nat
  | [] => 0
  | (_, v) :: rest => max (height v) (membersHeight rest)

end

mutual

/-- Distinct names in every object, whole numbers within their range. -/
def Plain : Json → Prop
  | num (.whole n) => Number.InRange n
  | arr items => PlainItems items
  | obj members => (Ordered.keys members).Nodup ∧ PlainMembers members
  | _ => True

/-- `Plain` for each item. -/
def PlainItems : List Json → Prop
  | [] => True
  | v :: rest => Plain v ∧ PlainItems rest

/-- `Plain` for the value of each member. -/
def PlainMembers : List (String × Json) → Prop
  | [] => True
  | (_, v) :: rest => Plain v ∧ PlainMembers rest

end

end Json
end OntologyCompiler
