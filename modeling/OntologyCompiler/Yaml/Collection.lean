import OntologyCompiler.Yaml.Flow

/-!
# Nodes by indentation

Outside of brackets the entries of a collection stand below each other in one column, deeper than
what they belong to. Only a list that is the value of a member, and a text under its mark, may stand
in the column of what they belong to.

A member is a key, a colon and a value; a key that runs over several lines, or is a collection of
its own, has a question mark in front. Properties that stand alone on a line belong to the node
below, others to the first text of their line.

* `Collection.node`: the node at a cursor, whose lines are indented by at least `floor`.
-/

namespace OntologyCompiler.Yaml.Collection

/-- What stands on one line. -/
inductive Line where
  /-- Properties that stand alone. -/
  | properties (p : Properties String) (after : Cursor)
  /-- A node and the properties in front of it. -/
  | node (p : Properties String) (n : Node String) (after : Cursor)
  /-- A key; its mark is at the cursor, unless it is a list that has taken the mark for itself. -/
  | key (k : Node String) (taken : Bool) (after : Cursor)

/-- What stands on the line of a cursor. -/
def line (handles : Handles) (fuel floor : Nat) (c : Cursor) : Option Line := do
  let (p, inner) ← Property.read handles Cursor.skipBlanks c
  if !p.isNone && (opensLine inner.rest || inner.rest.head? = some '#') then
    return .properties p inner
  else
    let (n, reach) ←
      if !p.isNone && inner.atMark ':' then some (.blank .none, .just inner)
      else Flow.content handles floor fuel inner
    let first := if reach.first.fresh then reach.first else reach.first.skipBlanks
    if first.fresh || !first.atMark ':' then return .node p n reach.after
    else if !c.fresh || !c.spansKey first then none
    else
      let k ← n.withProperties p
      return if reach.isBalanced then .key k false first else .key k true reach.after

mutual

/-- The node at a cursor behind properties. `level` says whether it may be a list in the column of
the key in front of it. -/
def node (handles : Handles) :
    Nat → Nat → Bool → Properties String → Cursor → Option (Node String × Cursor)
  | 0, _, _, _, _ => none
  | fuel + 1, floor, level, p, c =>
    let c := c.skipGap
    if c.isOver then some (.blank p, c)
    else if c.column < floor then
      if level && c.column + 1 = floor && c.fresh && c.atMark '-' then do
        let (items, after) ← sequence handles fuel c.column c
        return (.sequence p items, after)
      else if c.column + 1 = floor && Flow.atBlock c then do
        let (n, after) ← Flow.block floor c
        return (← n.withProperties p, after)
      else some (.blank p, c)
    else if c.atMark '-' then
      if !c.fresh then none
      else do
        let (items, after) ← sequence handles fuel c.column c
        return (.sequence p items, after)
    else if c.atMark '?' then do
      let (members, after) ← mapping handles fuel c.column c
      return (.mapping p members, after)
    else do
      match ← line handles fuel floor c with
      | .properties q after => node handles fuel floor level (← p.merge q) after
      | .node q n after => return (← n.withProperties (← p.merge q), after)
      | .key _ _ _ =>
        let (members, after) ← mapping handles fuel c.column c
        return (.mapping p members, after)

/-- The items of a list in a column, the first of them at a cursor. -/
def sequence (handles : Handles) : Nat → Nat → Cursor → Option (List (Node String) × Cursor)
  | 0, _, _ => none
  | fuel + 1, column, c => do
    let (item, after) ← node handles fuel (column + 1) false .none (c.advance 1).refreshed
    let after := after.skipGap
    if !after.isOver && after.column = column && after.fresh && after.atMark '-' then
      let (more, after) ← sequence handles fuel column after
      return (item :: more, after)
    else return ([item], after)

/-- The members of a mapping in a column, the key of the first of them at a cursor. -/
def mapping (handles : Handles) :
    Nat → Nat → Cursor → Option (List (Node String × Node String) × Cursor)
  | 0, _, _ => none
  | fuel + 1, column, c =>
    if !c.fresh then none
    else if c.atMark '?' then do
      let (key, after) ← node handles fuel (column + 1) true .none (c.advance 1).refreshed
      optionalValue handles fuel column key after
    else do
      match ← line handles fuel (column + 1) c with
      | .key k false after => value handles fuel column k (after.advance 1)
      | .key k true after => optionalValue handles fuel column k after
      | _ => none

/-- The members of a mapping in a column, from behind the key of the first of them on. The value may
be left out with its mark. -/
def optionalValue (handles : Handles) :
    Nat → Nat → Node String → Cursor → Option (List (Node String × Node String) × Cursor)
  | 0, _, _, _ => none
  | fuel + 1, column, key, c =>
    let c := c.skipGap
    if !c.isOver && c.column = column && c.fresh && c.atMark ':' then
      value handles fuel column key (c.advance 1).refreshed
    else next handles fuel column (key, .blank .none) c

/-- The members of a mapping in a column, from the value of the first of them on. -/
def value (handles : Handles) :
    Nat → Nat → Node String → Cursor → Option (List (Node String × Node String) × Cursor)
  | 0, _, _, _ => none
  | fuel + 1, column, key, c => do
    let (v, after) ← node handles fuel (column + 1) true .none c
    next handles fuel column (key, v) (after.skipGap)

/-- A member, and the members in its column below it. -/
def next (handles : Handles) :
    Nat → Nat → Node String × Node String → Cursor →
      Option (List (Node String × Node String) × Cursor)
  | 0, _, _, _ => none
  | fuel + 1, column, member, c =>
    if c.isOver || c.column != column then some ([member], c)
    else do
      let (more, after) ← mapping handles fuel column c
      return (member :: more, after)

end

end OntologyCompiler.Yaml.Collection
