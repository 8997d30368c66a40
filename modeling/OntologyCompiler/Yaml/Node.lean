import OntologyCompiler.Ordered
import OntologyCompiler.Yaml.Tag

/-!
# Nodes of a YAML document

A node is a text, a list, a mapping, or another node that has been anchored. In the text of a
document an anchor is a name; in a document that has been read it is a number.

An anchor gets as its number the count of names that are known where it stands. Of several nodes
with one number the last counts.

* `Node.numbered`: the same node with numbers for names; none if a name is unknown where it is used.
* `Node.anchored`: the nodes with a number, in the order in which they start.
-/

namespace OntologyCompiler.Yaml

/-- How a text is written. -/
inductive Style where
  | plain
  | quoted
  | literal
  | folded
  deriving DecidableEq

/-- What may stand before a node. -/
structure Properties (ρ : Type) where
  anchor : Option ρ
  tag : Option Tag

/-- A node whose anchors are of type `ρ`. -/
inductive Node (ρ : Type) where
  | reference (anchor : ρ)
  | scalar (properties : Properties ρ) (style : Style) (text : String)
  | sequence (properties : Properties ρ) (items : List (Node ρ))
  | mapping (properties : Properties ρ) (members : List (Node ρ × Node ρ))

namespace Properties

/-- No properties. -/
def none {ρ : Type} : Properties ρ := ⟨.none, .none⟩

/-- Whether there is a property. -/
def isNone {ρ : Type} (p : Properties ρ) : Bool :=
  p.anchor.isNone && p.tag.isNone

/-- Two of which one comes first; no property may come twice. -/
def merge {ρ : Type} (p q : Properties ρ) : Option (Properties ρ) :=
  if (p.anchor.isSome && q.anchor.isSome) || (p.tag.isSome && q.tag.isSome) then .none
  else some ⟨p.anchor <|> q.anchor, p.tag <|> q.tag⟩

/-- The number of the anchor, and the names that are known after it. -/
def numbered (p : Properties String) (names : Ordered String Nat) :
    Properties Nat × Ordered String Nat :=
  match p.anchor with
  | .none => (⟨.none, p.tag⟩, names)
  | some name => (⟨some names.length, p.tag⟩, names.put name names.length)

end Properties

namespace Node

/-- A node without text. -/
def blank {ρ : Type} (p : Properties ρ) : Node ρ :=
  scalar p .plain ""

/-- The properties of a node. -/
def properties {ρ : Type} : Node ρ → Properties ρ
  | reference _ => .none
  | scalar p _ _ => p
  | sequence p _ => p
  | mapping p _ => p

/-- The node with properties in front of it, which a reference cannot have. -/
def withProperties {ρ : Type} (p : Properties ρ) : Node ρ → Option (Node ρ)
  | reference a => if p.isNone then some (reference a) else .none
  | scalar _ style text => some (scalar p style text)
  | sequence _ items => some (sequence p items)
  | mapping _ members => some (mapping p members)

mutual

/-- The node with numbers for names, and the names that are known after it. -/
def numbered (names : Ordered String Nat) :
    Node String → Option (Node Nat × Ordered String Nat)
  | reference name => do return (reference (← names.get? name), names)
  | scalar p style text =>
    let (p, names) := p.numbered names
    some (scalar p style text, names)
  | sequence p items => do
    let (p, names) := p.numbered names
    let (items, names) ← numberedItems names items
    return (sequence p items, names)
  | mapping p members => do
    let (p, names) := p.numbered names
    let (members, names) ← numberedMembers names members
    return (mapping p members, names)

/-- `numbered` for each item. -/
def numberedItems (names : Ordered String Nat) :
    List (Node String) → Option (List (Node Nat) × Ordered String Nat)
  | [] => some ([], names)
  | n :: rest => do
    let (n, names) ← numbered names n
    let (rest, names) ← numberedItems names rest
    return (n :: rest, names)

/-- `numbered` for key and value of each member. -/
def numberedMembers (names : Ordered String Nat) :
    List (Node String × Node String) → Option (List (Node Nat × Node Nat) × Ordered String Nat)
  | [] => some ([], names)
  | (k, v) :: rest => do
    let (k, names) ← numbered names k
    let (v, names) ← numbered names v
    let (rest, names) ← numberedMembers names rest
    return ((k, v) :: rest, names)

end

/-- A node under its number, if it has one. -/
def ownAnchor (n : Node Nat) : List (Nat × Node Nat) :=
  n.properties.anchor.toList.map fun number => (number, n)

mutual

/-- The nodes with a number, in the order in which they start. -/
def anchored : Node Nat → List (Nat × Node Nat)
  | reference _ => []
  | scalar p style text => ownAnchor (scalar p style text)
  | sequence p items => ownAnchor (sequence p items) ++ anchoredItems items
  | mapping p members => ownAnchor (mapping p members) ++ anchoredMembers members

/-- `anchored` for each item. -/
def anchoredItems : List (Node Nat) → List (Nat × Node Nat)
  | [] => []
  | n :: rest => anchored n ++ anchoredItems rest

/-- `anchored` for key and value of each member. -/
def anchoredMembers : List (Node Nat × Node Nat) → List (Nat × Node Nat)
  | [] => []
  | (k, v) :: rest => anchored k ++ anchored v ++ anchoredMembers rest

end

mutual

/-- How many marks a reader meets in a node: one for a text, and one at each end of a collection. -/
def size {ρ : Type} : Node ρ → Nat
  | reference _ => 1
  | scalar _ _ _ => 1
  | sequence _ items => sizeItems items + 2
  | mapping _ members => sizeMembers members + 2

/-- The sizes of the items. -/
def sizeItems {ρ : Type} : List (Node ρ) → Nat
  | [] => 0
  | n :: rest => size n + sizeItems rest

/-- The sizes of keys and values. -/
def sizeMembers {ρ : Type} : List (Node ρ × Node ρ) → Nat
  | [] => 0
  | (k, v) :: rest => size k + size v + sizeMembers rest

end

end Node
end OntologyCompiler.Yaml
