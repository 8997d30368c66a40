import OntologyCompiler.Yaml.Block
import OntologyCompiler.Yaml.Plain
import OntologyCompiler.Yaml.Property
import OntologyCompiler.Yaml.Quoted
import OntologyCompiler.Yaml.Reach

/-!
# Nodes within brackets

Within brackets the indentation of lines says nothing. A list holds nodes and single members, a
mapping holds members and keys without a value. A key without a mark in front stands on one line.

In a list a key that has a mark in front and is left out takes the next mark as its own, also if
that mark is the closing bracket. So there may be more closing brackets than opening ones, and the
rest of such a list stands outside of the brackets around it. Outside of all brackets lines have to
be indented again, marks have to be followed by a blank, and a key stands where a key of the block
around would stand. A colon in the rest of a list may make the whole list a key; it does so where
it would if the list had ended with its missing bracket.

* `Flow.content`: a node without properties; also outside of brackets.
* `items_close`, `members_close`: nothing may stand between brackets.

The bound `fuel` on the depth of the recursion is a multiple of the length of the text.
-/

namespace OntologyCompiler.Yaml.Flow

/-- Whether a mark stands here. Outside of brackets it has to be followed by a blank. -/
def isAt (mark : Char) (c : Cursor) : Bool :=
  c.rest.head? = some mark && (c.isEnclosed || opensGap (c.rest.drop 1))

/-- Whether a node that may be left out is left out here. -/
def isLeftOut (c : Cursor) : Bool :=
  isAt ':' c || c.rest.head?.any [',', ']', '}'].contains

/-- Whether no node may stand here: the document is over or, outside of brackets, the line is
indented less than the block around. -/
def isLost (floor : Nat) (c : Cursor) : Bool :=
  c.isOver || (!c.isEnclosed && c.column + 1 < floor)

/-- Whether the mark of a text is here that stands below it, which is so outside of brackets
only. -/
def atBlock (c : Cursor) : Bool :=
  !c.isEnclosed && (c.rest.head? = some '|' || c.rest.head? = some '>')

/-- Whether what stands here has to be a key, which is so outside of brackets only. -/
def awaitsKey (floor : Nat) (c : Cursor) : Bool :=
  !c.isEnclosed && c.fresh && c.column + 1 = floor && !atBlock c

/-- Whether a member may start here. -/
def startsMember (floor : Nat) (c : Cursor) : Bool :=
  c.isEnclosed || awaitsKey floor c

/-- Whether a colon stands here that, outside of brackets, has to have a key in front of it. -/
def endsKey (c : Cursor) : Bool :=
  isAt ':' c && !c.isEnclosed && !c.fresh

/-- Past a mark behind which, outside of brackets, an entry may start if one may start at it. -/
def passMark (c : Cursor) : Cursor :=
  { c.advance 1 with fresh := !c.isEnclosed && c.fresh }

/-- Past a comma, behind which an entry may start. -/
def passComma (c : Cursor) : Cursor :=
  { c.advance 1 with fresh := true }

/-- Past the mark that a key takes which is left out in a list; none where it cannot be left out. -/
def takeMark? (floor : Nat) (c : Cursor) : Option Reach :=
  match c.rest.head? with
  | some ',' => some (.just (passComma c))
  | some ']' => some ⟨c, [c.leave], c.leave⟩
  | some ':' => if startsMember floor c then some (.just (passMark c)) else none
  | _ => none

/-- An alias at a cursor. -/
def reference (c : Cursor) : Option (Node String × Cursor) := do
  let (name, rest) ← Property.name? (c.rest.drop 1)
  return (.reference name, Property.upTo c rest)

/-- A text below its mark. -/
def block (floor : Nat) (c : Cursor) : Option (Node String × Cursor) :=
  let folds := c.rest.head? = some '>'
  (Block.read folds floor c).map fun r =>
    (.scalar .none (if folds then .folded else .literal) r.1, r.2)

/-- A text or an alias at a cursor. -/
def leaf (floor : Nat) (c : Cursor) : Option (Node String × Cursor) :=
  if c.rest.head? = some '*' then reference c
  else if atBlock c then block floor c
  else
    match Quoted.read c with
    | some (text, after) => some (.scalar .none .quoted text, after)
    | none => (Plain.read floor c).map fun r => (.scalar .none .plain r.1, r.2)

mutual

/-- The node without properties at a cursor, whose lines are indented by at least `floor`. -/
def content (handles : Handles) (floor : Nat) : Nat → Cursor → Option (Node String × Reach)
  | 0, _ => none
  | fuel + 1, c =>
    match c.rest.head? with
    | some '[' => (items handles floor fuel c.enter).map fun r => (.sequence .none r.1, r.2)
    | some '{' => (members handles floor fuel c.enter).map fun r => (.mapping .none r.1, r.2)
    | _ => (leaf floor c).map fun r => (r.1, .just r.2)

/-- The node at a cursor within brackets. -/
def node (handles : Handles) (floor : Nat) : Nat → Cursor → Option (Node String × Reach)
  | 0, _ => none
  | fuel + 1, c => do
    let (p, c) ← Property.read handles Cursor.skipGap c
    if isLost floor c then none
    else if !p.isNone && isLeftOut c then return (.blank p, .just c)
    else
      let (n, reach) ← content handles floor fuel c
      return (← n.withProperties p, reach)

/-- The node behind a mark, which may be left out. -/
def optionalNode (handles : Handles) (floor : Nat) : Nat → Cursor → Option (Node String × Reach)
  | 0, _ => none
  | fuel + 1, c => do
    let c := c.skipGap
    if isLeftOut c then return (.blank .none, .just c)
    else if awaitsKey floor c then none
    else
      let (n, reach) ← node handles floor fuel c
      if endsKey reach.first.skipGap then none else return (n, reach)

/-- The key behind its mark. -/
def markedKey (handles : Handles) (floor : Nat) (inList : Bool) :
    Nat → Cursor → Option (Node String × Reach)
  | 0, _ => none
  | fuel + 1, c =>
    let c := c.skipGap
    if isLost floor c then none
    else if inList && isLeftOut c then (takeMark? floor c).map fun reach => (.blank .none, reach)
    else optionalNode handles floor fuel c

/-- The value behind a key that is known to be one; it may be left out with its mark. Of the place
behind the key `fell` says whether fewer brackets are open there than where it started. -/
def value (handles : Handles) (floor : Nat) :
    Nat → (fell : Bool) → Cursor → Option (Node String × Reach)
  | 0, _, _ => none
  | fuel + 1, fell, c =>
    let c := c.skipGap
    if !isAt ':' c then some (.blank .none, .just c)
    else if startsMember floor c || (fell && !c.fresh) then
      optionalNode handles floor fuel (passMark c)
    else none

/-- A node, or a key and its value. -/
def entry (handles : Handles) (floor : Nat) (inList : Bool) :
    Nat → Cursor → Option (Node String × Option (Node String) × Reach)
  | 0, _ => none
  | fuel + 1, c =>
    if isAt '?' c then
      if !startsMember floor c then none
      else do
        let (k, reach) ← markedKey handles floor inList fuel (passMark c)
        let (v, more) ← value handles floor fuel (reach.after.depth < c.depth) reach.after
        return (k, some v, reach ++ more)
    else do
      let (k, reach) ← node handles floor fuel c
      let first := reach.first.skipGap
      if isAt ':' first && c.spansKey first then
        if !startsMember floor c then none
        else
          let (v, more) ←
            if reach.isBalanced then optionalNode handles floor fuel (first.advance 1)
            else value handles floor fuel (reach.after.depth < c.depth) reach.after
          return (k, some v, reach ++ more)
      else if endsKey first || awaitsKey floor c then none
      else return (k, none, reach)

/-- The items of a list up to its closing bracket. -/
def items (handles : Handles) (floor : Nat) : Nat → Cursor → Option (List (Node String) × Reach)
  | 0, _ => none
  | fuel + 1, c =>
    let c := c.skipGap
    if isLost floor c then none
    else if c.rest.head? = some ']' then some ([], .just c.leave)
    else do
      let (k, v, reach) ← entry handles floor true fuel c
      let item := match v with
        | some v => .mapping .none [(k, v)]
        | none => k
      let after := reach.after.skipGap
      if isLost floor after then none
      else
        match after.rest.head? with
        | some ',' => do
          let (more, last) ← items handles floor fuel (passComma after)
          return (item :: more, .enclose reach.below last)
        | some ']' => return ([item], .enclose reach.below (.just after.leave))
        | _ => none

/-- The members of a mapping up to its closing brace. -/
def members (handles : Handles) (floor : Nat) :
    Nat → Cursor → Option (List (Node String × Node String) × Reach)
  | 0, _ => none
  | fuel + 1, c =>
    let c := c.skipGap
    if isLost floor c then none
    else if c.rest.head? = some '}' then some ([], .just c.leave)
    else do
      let (k, v, reach) ← entry handles floor false fuel c
      let member := (k, v.getD (.blank .none))
      let after := reach.after.skipGap
      if isLost floor after then none
      else
        match after.rest.head? with
        | some ',' => do
          let (more, last) ← members handles floor fuel (passComma after)
          return (member :: more, .enclose reach.below last)
        | some '}' => return ([member], .enclose reach.below (.just after.leave))
        | _ => none

end

theorem items_close {floor : Nat} {c : Cursor} (h : isLost floor c.skipGap = false)
    (close : c.skipGap.rest.head? = some ']') (handles : Handles) (fuel : Nat) :
    items handles floor (fuel + 1) c = some ([], .just c.skipGap.leave) := by
  simp [items, h, close]

theorem members_close {floor : Nat} {c : Cursor} (h : isLost floor c.skipGap = false)
    (close : c.skipGap.rest.head? = some '\x7d') (handles : Handles) (fuel : Nat) :
    members handles floor (fuel + 1) c = some ([], .just c.skipGap.leave) := by
  simp [members, h, close]

end OntologyCompiler.Yaml.Flow
