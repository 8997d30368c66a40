import OntologyCompiler.Yaml.Collection

/-!
# Documents

A text holds one document. Directives may stand in front of it, which then begins with `---`; behind
it nothing may stand but the mark `...`. A text without a document counts as one without text.

* `Document.ofText?`: the document of a text.
-/

namespace OntologyCompiler.Yaml

/-- A document that has been read: its node, the nodes with a number, and how often its aliases may
be followed. -/
structure Document where
  root : Node Nat
  anchors : List (Nat × Node Nat)
  aliasLimit : Nat

namespace Document

/-- A bound on the depth of the recursion over a text. -/
def fuelFor (cs : List Char) : Nat :=
  5 * cs.length + 10

/-- Whether nothing more is said from here on. -/
def isDone : Nat → Cursor → Bool
  | 0, _ => false
  | fuel + 1, c =>
    let c := c.skipGap
    c.rest.isEmpty || (c.column = 0 && closesDocument c.rest && isDone fuel (c.advance 3))

/-- The node of the document in a text. -/
def rootOf? (cs : List Char) : Option (Node String) := do
  let fuel := fuelFor cs
  let c := (Cursor.start cs).skipGap
  if c.rest.isEmpty then return .blank .none
  else
    let (d, begun) ← Directives.read fuel ⟨false, []⟩ c
    let isMarked := begun.column = 0 && opensDocument begun.rest
    if !isMarked && (begun.isOver || d.version || !d.handles.isEmpty) then none
    else
      let body := if isMarked then begun.advance 3 else begun.refreshed
      let (root, after) ← Collection.node (d.handles) fuel 0 false .none body
      if isDone fuel after then return root else none

/-- A node as a document. -/
def ofRoot? (root : Node String) : Option Document := do
  let (node, _) ← root.numbered []
  return ⟨node, node.anchored, 100 * root.size⟩

/-- The document of a text. -/
def ofText? (text : String) : Option Document := do
  ofRoot? (← rootOf? (← Source.chars? text))

/-- The node that a number stands for. -/
def target? (d : Document) (number : Nat) : Option (Node Nat) :=
  d.anchors.reverse.lookup number

end Document
end OntologyCompiler.Yaml
