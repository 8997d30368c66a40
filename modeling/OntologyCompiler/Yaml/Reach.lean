import OntologyCompiler.Yaml.Cursor

/-!
# Where a node ends

Brackets need not be balanced, so fewer of them may be open behind a node than in front of it. What
counts for a key is the first place behind its start where as many are open as there.

* `Reach.append_assoc`: a reach may be put together in any order.
-/

namespace OntologyCompiler.Yaml

/-- Where something ends. -/
structure Reach where
  /-- Where behind it for the first time as many brackets are open as in front of it. -/
  first : Cursor
  /-- Where for the first time one bracket fewer is open, then one fewer than that, and so on. -/
  below : List Cursor
  after : Cursor

namespace Reach

/-- The end of what is balanced. -/
def just (c : Cursor) : Reach :=
  ⟨c, [], c⟩

/-- Whether never fewer brackets are open than at the start. -/
def isBalanced (r : Reach) : Bool :=
  r.below.isEmpty

/-- One thing and another behind it. -/
def append (r s : Reach) : Reach :=
  ⟨r.first, r.below ++ s.below, s.after⟩

instance : Append Reach := ⟨append⟩

theorem append_assoc (r s t : Reach) : (r ++ s) ++ t = r ++ (s ++ t) :=
  congrArg (Reach.mk r.first · t.after) (List.append_assoc ..)

/-- The end of brackets in which, at `places`, fewer are open than right behind the first of them;
what follows these places closes the brackets at `last`. -/
def enclose : (places : List Cursor) → (last : Reach) → Reach
  | [], last => last
  | c :: more, last => ⟨c, more ++ last.first :: last.below, last.after⟩

end Reach
end OntologyCompiler.Yaml
