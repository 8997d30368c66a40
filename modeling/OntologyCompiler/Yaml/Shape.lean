import OntologyCompiler.Reading.Medium
import OntologyCompiler.Yaml.Core
import OntologyCompiler.Yaml.Document

/-!
# YAML text as a medium

Every text of a document is a text where one is wanted, also one that stands for a number or for
nothing; truth values and numbers have to be plain. A node without text is an empty list or record
where one is wanted. A tag that begins with a mark names a variant.

A document that is read may be much larger than its text, as an alias counts as a copy of its node.
So the aliases that are followed are counted over the whole reading.

* `readText`: a text as a value of a type.
-/

namespace OntologyCompiler.Yaml

/-- Readings that keep count of how many aliases may still be followed. -/
abbrev Following := StateT Nat (Except Fault)

/-- A result, or the fault of a document that does not have it. -/
def orFault {α : Type} : Option α → Following α
  | some a => return a
  | none => throw .malformed

/-- A node at its place: the document around it, and how many lists and mappings may still be
entered. -/
structure Place where
  document : Document
  room : Nat
  node : Node Nat

namespace Place

/-- The node itself, or the one that it is an alias of. -/
def target (p : Place) : Following (Node Nat) := do
  match p.node with
  | .reference number =>
    let left ← get
    if left = 0 then throw .malformed
    set (left - 1)
    orFault (p.document.target? number)
  | n => return n

/-- What is found in a node, or in the one that it is an alias of. -/
def look {α : Type} (p : Place) (find : Node Nat → Option α) : Following α := do
  orFault (find (← p.target))

/-- A node within a list or mapping at a place. -/
def enter (p : Place) (n : Node Nat) : Place :=
  ⟨p.document, p.room - 1, n⟩

/-- The name in a tag of a variant. -/
def variant? (q : Properties Nat) : Option String :=
  q.tag.bind Tag.variant?

/-- Whether a node has neither mark nor text. -/
def isBlank : Node Nat → Bool
  | .scalar _ .plain text => text.isEmpty
  | _ => false

/-- Whether a plain text stands for nothing. -/
def isNothing (text : String) : Bool :=
  text.isEmpty || Core.isNull text.toList

/-- The characters of a text whose kind is to be told from its form: plain, or a literal block with
the tag of that kind. -/
def formed? (kind : String) : Node Nat → Option (List Char)
  | .scalar _ .plain text => some text.toList
  | .scalar p .literal text => if p.tag = some (Core.tag kind) then some text.toList else none
  | _ => none

/-- The text of a node. -/
def text? : Node Nat → Option String
  | .scalar _ _ text => some text
  | _ => none

/-- A text. -/
def text (p : Place) : Following String :=
  p.look text?

/-- Whether a node stands for a value that is there. Without a tag it does unless it stands for
nothing, and with a tag it does unless the tag says otherwise; none if that is said of something
else. -/
def isPresent? : Node Nat → Option Bool
  | .scalar q .plain text =>
    match q.tag with
    | none => some (!isNothing text)
    | some tag =>
      if tag ≠ Core.tag "null" then some true
      else if Core.isNull text.toList then some false
      else none
  | _ => some true

/-- The node of a value that may be absent, unless it is. An alias is followed here once and for
all. -/
def present? (p : Place) : Following (Option Place) := do
  let n ← p.target
  let present ← orFault (isPresent? n)
  return if present then some { p with node := n } else none

/-- A whole number below 256, written without a minus. -/
def byte? (n : Node Nat) : Option UInt8 := do
  let cs ← formed? "int" n
  let n ← Core.whole? cs
  if cs.head? = some '-' || 256 ≤ n then none else return UInt8.ofNat n.toNat

/-- A variant and whether it stands alone. -/
def choice? : Node Nat → Option (String × Bool)
  | .scalar q style text =>
    match variant? q with
    | some name => some (name, style = .plain && isNothing text)
    | none => some (text, true)
  | _ => none

/-- The items of a list. -/
def items? (p : Place) : Node Nat → Option (List Place)
  | .sequence _ items => if p.room = 0 then none else some (items.map p.enter)
  | n => if isBlank n then some [] else none

/-- Keys and values of a mapping. -/
def members? (p : Place) : Node Nat → Option (List (Place × Place))
  | .mapping _ members =>
    if p.room = 0 then none else some (members.map fun m => (p.enter m.1, p.enter m.2))
  | n => if isBlank n then some [] else none

/-- Members by the text of their keys. -/
def named (p : Place) : Following (Members Following Place) := do
  let ms ← p.look p.members?
  return ⟨ms.map fun m => (m.1.text, m.2), return⟩

/-- The value of a text without a tag. -/
def untagged? (style : Style) (text : String) : Option Json :=
  if style = .plain then Core.value? text.toList else some (.str text)

/-- The value of a text; none if its tag names a variant or asks for something else. -/
def scalarValue? (q : Properties Nat) (style : Style) (text : String) : Option Json :=
  match q.tag with
  | none => untagged? style text
  | some tag =>
    if tag.variant?.isSome then none
    else if tag.isMarked then untagged? style text
    else Core.valueOf? tag text.toList

/-- The value of a node. `depth` bounds how many lists and mappings are entered. -/
def value : Nat → Place → Following Json
  | 0, _ => throw .malformed
  | depth + 1, p => do
    match ← p.target with
    | .reference _ => throw .malformed
    | .scalar q style text => orFault (scalarValue? q style text)
    | .sequence q items =>
      if (variant? q).isSome || p.room = 0 then throw .malformed
      return .arr (← items.mapM fun n => value depth (p.enter n))
    | .mapping q members =>
      if (variant? q).isSome || p.room = 0 then throw .malformed
      let ms ← members.foldlM
        (fun ms m => do
          let key ← (p.enter m.1).text
          return Ordered.put ms key (← value depth (p.enter m.2)))
        ([] : Ordered String Json)
      return .obj ms

end Place

instance : Medium Place Following where
  text p := p.text
  flag p := p.look fun n => (Place.formed? "bool" n).bind Core.truth?
  byte p := p.look Place.byte?
  present? p := p.present?
  free p := p.value (p.room + 1)
  skip _ := return
  choice p := do
    let (name, alone) ← p.look Place.choice?
    return ⟨name, if alone then return else throw .malformed⟩
  items p := return ⟨← p.look p.items?, return⟩
  members p := p.named
  layout _ p := .named <$> p.named
  height p := p.room + 1
  surplus _ := .malformed

/-- How deep lists and mappings may nest where they are read. -/
def depthLimit : Nat := 128

/-- A text as a value of a type. -/
def readText {α : Type} (read : Place → Following α) (text : String) : Except Fault α := do
  match Document.ofText? text with
  | none => throw .malformed
  | some d => (read ⟨d, depthLimit, d.root⟩).run' d.aliasLimit

end OntologyCompiler.Yaml
