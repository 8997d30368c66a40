import OntologyCompiler.Json.Text.Raw
import OntologyCompiler.Json.Shape

/-!
# JSON text as a medium

Text is read straight into a type: shape and grammar are checked together in document order, so that
whichever is wrong first decides. Lists and objects may nest 127 deep where they are read; what is
passed over may nest to any depth.

* `readText`: a text as a value of a type.
* `ofText?`: a text as a value of any shape.
-/

namespace OntologyCompiler.Json

namespace Raw

/-- What a node is, in words of a fault; none if it cannot be told. -/
def found? : Raw → Option Found
  | null => some .null
  | bool b => some (.bool b)
  | num n => some (.number n)
  | str s => some (.text s)
  | arr _ _ => some .sequence
  | obj _ _ => some .map
  | broken => none
  | unreadable => none

/-- The fault of a node where something else is wanted. -/
def unwanted (v : Raw) (want : String) : Fault :=
  match v.found? with
  | some found => .mistyped found want
  | none => .malformed

mutual

/-- Whether a node follows the grammar to its end. -/
def sound : Raw → Bool
  | broken => false
  | arr items closed => closed && soundItems items
  | obj members closed => closed && soundMembers members
  | _ => true

/-- `sound` for each item. -/
def soundItems : List Raw → Bool
  | [] => true
  | v :: rest => sound v && soundItems rest

/-- `sound` for the value of each member. -/
def soundMembers : List (Option String × Raw) → Bool
  | [] => true
  | (_, v) :: rest => sound v && soundMembers rest

end

mutual

/-- A node as a value, with lists and objects at most `room` deep. -/
def free (room : Nat) : Raw → Except Fault Json
  | null => .ok .null
  | bool b => .ok (.bool b)
  | num n => .ok (.num n)
  | str s => .ok (.str s)
  | arr items closed => do
    if room = 0 then throw .malformed
    let values ← freeItems (room - 1) items
    if closed then return .arr values else throw .malformed
  | obj members closed => do
    if room = 0 then throw .malformed
    let values ← freeMembers (room - 1) [] members
    if closed then return .obj values else throw .malformed
  | broken => .error .malformed
  | unreadable => .error .malformed

/-- `free` for each item. -/
def freeItems (room : Nat) : List Raw → Except Fault (List Json)
  | [] => .ok []
  | v :: rest => do return (← free room v) :: (← freeItems room rest)

/-- `free` for each member; of a repeated name the last value counts, in the first place. -/
def freeMembers (room : Nat) :
    Ordered String Json → List (Option String × Raw) → Except Fault (Ordered String Json)
  | m, [] => .ok m
  | _, (none, _) :: _ => .error .malformed
  | m, (some k, v) :: rest => do
    freeMembers room (Ordered.put m k (← free room v)) rest

end

end Raw

/-- A node of a text, and how many levels of lists and objects may still be entered. -/
structure TextNode where
  room : Nat
  raw : Raw

namespace TextNode

/-- The ending of a list or object. -/
def ending (closed : Bool) : Except Fault Unit :=
  if closed then .ok () else .error .malformed

/-- The items of a list. -/
def run (node : TextNode) (items : List Raw) (closed : Bool) :
    Except Fault (Run (Except Fault) TextNode) :=
  if node.room = 0 then .error .malformed
  else .ok ⟨items.map fun v => ⟨node.room - 1, v⟩, ending closed⟩

/-- The members of an object. -/
def named (node : TextNode) (members : List (Option String × Raw)) (closed : Bool) :
    Except Fault (Members (Except Fault) TextNode) :=
  if node.room = 0 then .error .malformed
  else
    let key : Option String → Except Fault String
      | some k => .ok k
      | none => .error .malformed
    .ok ⟨members.map fun m => (key m.1, ⟨node.room - 1, m.2⟩), ending closed⟩

/-- The value `null` and no other. -/
def unit (v : Raw) : Except Fault Unit :=
  match v with
  | .null => .ok ()
  | v => .error (v.unwanted "unit")

end TextNode

instance : Medium TextNode (Except Fault) where
  text node :=
    match node.raw with
    | .str s => .ok s
    | v => .error (v.unwanted "a string")
  flag node :=
    match node.raw with
    | .bool b => .ok b
    | v => .error (v.unwanted "a boolean")
  byte node :=
    match node.raw with
    | .num n => byteOf n
    | v => .error (v.unwanted "u8")
  present? node :=
    match node.raw with
    | .null => .ok none
    | _ => .ok (some node)
  free node := node.raw.free node.room
  skip node := if node.raw.sound then .ok () else .error .malformed
  choice node :=
    match node.raw with
    | .str s => .ok ⟨s, .ok ()⟩
    | .obj ((some k, v) :: rest) closed =>
      if node.room = 0 then .error .malformed
      else .ok ⟨k, do TextNode.unit v; if rest.isEmpty && closed then .ok () else .error .malformed⟩
    | _ => .error .malformed
  items node :=
    match node.raw with
    | .arr items closed => node.run items closed
    | v => .error (v.unwanted "a sequence")
  members node :=
    match node.raw with
    | .obj members closed => node.named members closed
    | v => .error (v.unwanted "a map")
  layout record node :=
    match node.raw with
    | .arr items closed => .positional <$> node.run items closed
    | .obj members closed => .named <$> node.named members closed
    | v => .error (v.unwanted ("struct " ++ record))
  height node := node.room
  surplus _ := .malformed

/-- How deep lists and objects may nest where they are read. -/
def depthLimit : Nat := 127

/-- A text as a value of a type. -/
def readText {α : Type} (read : TextNode → Except Fault α) (text : String) : Except Fault α := do
  let (raw, atEnd) := Raw.parse text.toList
  let a ← read ⟨depthLimit, raw⟩
  if atEnd then return a else throw .malformed

/-- A text as a value of any shape. -/
def ofText? (text : String) : Option Json :=
  (readText Medium.free text).toOption

end OntologyCompiler.Json
