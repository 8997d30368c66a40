import Mathlib.Data.List.Chain
import Mathlib.Tactic.MkIffOfInductiveProp
import OntologyCompiler.Yaml.Shape
import OntologyCompiler.Yaml.Writer

/-!
# Values that read back as they are written

The writer takes more texts for harmless than the reader does. Some characters may stand in no text,
and it writes them nevertheless; the separators of lines and of paragraphs end a line, and it takes
them for characters of the line; and a text that starts with a closing bracket is no plain text, but
it is written as one. Keys are limited in length, and so is the depth of nesting.

* `KeyLegible`, `TextLegible`: what is asked of a key, and of a text at its place.
* `Legible`: what is asked of a value.

A level is that of the lines of an entry; the root of a document is at level 0.
-/

namespace OntologyCompiler.Yaml

-- The empty sum is the literal zero, whatever else is imported.
attribute [local instance (high)] Zero.ofOfNat0

/-! ## Characters -/

/-- What is asked of the characters of a text is decided for these alone. -/
instance decidableAll (s : List Char) (p : Char → Prop) [DecidablePred p] :
    Decidable (∀ c ∈ s, p c) :=
  List.decidableBAll p s

/-- The separators of lines and of paragraphs. -/
def isSeparator (c : Char) : Bool :=
  c.toNat = 0x2028 || c.toNat = 0x2029

/-- A character that is read as it is written: it is allowed, and it is not the next-line character,
which counts as a line feed. -/
def isKept (c : Char) : Bool :=
  Source.isAllowed c && c.toNat != 0x85

/-- Of two neighbours, not one is a blank and the other one a separator. -/
def Apart (a b : Char) : Prop :=
  ¬ (isSeparator a = true ∧ b = ' ') ∧ ¬ (a = ' ' ∧ isSeparator b = true)

instance : DecidableRel Apart := fun a b => by
  unfold Apart; infer_instance

/-- Whether a text starts with a mark of documents. -/
def isDocumentMark (cs : List Char) : Bool :=
  opensDocument cs || closesDocument cs

/-- Whether a mark of documents stands right behind a separator. -/
def isCut : List Char → Bool
  | [] => false
  | c :: rest => (isSeparator c && isDocumentMark rest) || isCut rest

/-! ## Texts -/

/-- A text in quotes keeps its separators if no blank is beside them and no mark of documents right
behind them. -/
@[mk_iff]
structure QuotedLegible (s : List Char) : Prop where
  apart : s.IsChain Apart
  whole : isCut (s.flatMap escapedChar ++ ['"']) = false

/-- A reader takes a closing bracket at the start for one. -/
@[mk_iff]
structure OpensPlain (s : List Char) : Prop where
  bracket : s.head? ≠ some ']'
  brace : s.head? ≠ some '\x7d'

/-- A plain text that is the whole document. It may have separators within, as those of a text in
quotes. -/
@[mk_iff]
structure RootLegible (s : List Char) : Prop where
  opens : OpensPlain s
  mark : s.head? ≠ some byteOrderMark
  closes : closesDocument s = false
  front : ∀ c, s.head? = some c → isSeparator c = false
  back : ∀ c, s.getLast? = some c → isSeparator c = false
  apart : s.IsChain Apart
  whole : isCut s = false

/-- A plain text within a document. -/
@[mk_iff]
structure LineLegible (s : List Char) : Prop where
  opens : OpensPlain s
  line : ∀ c ∈ s, isSeparator c = false

/-- A literal block keeps its separators where its lines end; its indentation has to be shown by the
first line with text; and the last line end of the text must not be taken for a separator's. -/
@[mk_iff]
structure BlockLegible (s : List Char) : Prop where
  ends : s.IsChain fun a b => isSeparator a = true → isBreak b = true
  last : ∀ c, (body s).getLast? = some c → isSeparator c = true → 2 ≤ closing s
  shown : ∀ c, (s.dropWhile isBreak).head? = some c → isSpacing c = false

/-- How many bytes characters take. -/
def byteCount (cs : List Char) : Nat :=
  (cs.map Char.utf8Size).sum

/-- A key that reads back at a level. At the start of a line neither a byte order mark nor the mark
behind a document may stand. -/
@[mk_iff]
structure KeyLegible (level : Nat) (s : List Char) : Prop where
  kept : ∀ c ∈ s, isKept c = true
  line : ∀ c ∈ s, isSeparator c = false
  short : byteCount (quote s) ≤ Cursor.keyLimit
  opens : needsQuotes s = false → OpensPlain s
  start : needsQuotes s = false → level = 0 →
    s.head? ≠ some byteOrderMark ∧ closesDocument (s ++ [':']) = false

/-- A text that reads back at a level. -/
@[mk_iff]
structure TextLegible (level : Nat) (s : List Char) : Prop where
  kept : ∀ c ∈ s, isKept c = true
  block : isBlock s = true → BlockLegible s
  quoted : isBlock s = false → needsQuotes s = true → QuotedLegible s
  root : isBlock s = false → needsQuotes s = false → level = 0 → RootLegible s
  line : isBlock s = false → needsQuotes s = false → level ≠ 0 → LineLegible s

instance (s : List Char) : Decidable (QuotedLegible s) :=
  decidable_of_iff' _ (quotedLegible_iff s)

instance (s : List Char) : Decidable (OpensPlain s) :=
  decidable_of_iff' _ (opensPlain_iff s)

instance decidableAny (o : Option Char) (p : Char → Prop) [DecidablePred p] :
    Decidable (∀ c, o = some c → p c) :=
  match o with
  | none => isTrue fun _ h => nomatch h
  | some c => decidable_of_iff (p c) ⟨fun h _ heq => Option.some.inj heq ▸ h, fun h => h c rfl⟩

instance (s : List Char) : Decidable (RootLegible s) :=
  decidable_of_iff' _ (rootLegible_iff s)

instance (s : List Char) : Decidable (LineLegible s) :=
  decidable_of_iff' _ (lineLegible_iff s)

instance (s : List Char) : Decidable (BlockLegible s) :=
  decidable_of_iff' _ (blockLegible_iff s)

instance (level : Nat) (s : List Char) : Decidable (KeyLegible level s) :=
  decidable_of_iff' _ (keyLegible_iff level s)

instance (level : Nat) (s : List Char) : Decidable (TextLegible level s) :=
  decidable_of_iff' _ (textLegible_iff level s)

/-! ## Values -/

section Texts

variable (onKey onText : Nat → List Char → Prop)

mutual

/-- Every key of a value and every other text of it at its level. -/
def TextsAt (level : Nat) : Json → Prop
  | .str s => onText level s.toList
  | .arr items => ItemTexts level items
  | .obj members => MemberTexts level members
  | _ => True

/-- `TextsAt` for each item, a level deeper. -/
def ItemTexts (level : Nat) : List Json → Prop
  | [] => True
  | v :: rest => TextsAt (level + 1) v ∧ ItemTexts level rest

/-- Each key and, a level deeper, its value. -/
def MemberTexts (level : Nat) : List (String × Json) → Prop
  | [] => True
  | (key, v) :: rest =>
    onKey level key.toList ∧ TextsAt (level + 1) v ∧ MemberTexts level rest

end

end Texts

section Imp

variable {onKey onText onKey' onText' : Nat → List Char → Prop}

mutual

/-- What is asked of the texts of a value may be weakened. -/
theorem TextsAt.imp (hkey : ∀ level s, onKey level s → onKey' level s)
    (htext : ∀ level s, onText level s → onText' level s) : ∀ {level : Nat} {v : Json},
    TextsAt onKey onText level v → TextsAt onKey' onText' level v
  | _, .str s, h => by
    rw [TextsAt] at h ⊢
    exact htext _ _ h
  | _, .arr items, h => by
    rw [TextsAt] at h ⊢
    exact ItemTexts.imp hkey htext h
  | _, .obj members, h => by
    rw [TextsAt] at h ⊢
    exact MemberTexts.imp hkey htext h
  | _, .null, _ | _, .bool _, _ | _, .num _, _ => by
    rw [TextsAt]
    · trivial
    all_goals simp

theorem ItemTexts.imp (hkey : ∀ level s, onKey level s → onKey' level s)
    (htext : ∀ level s, onText level s → onText' level s) : ∀ {level : Nat} {items : List Json},
    ItemTexts onKey onText level items → ItemTexts onKey' onText' level items
  | _, [], _ => by
    rw [ItemTexts]
    trivial
  | _, v :: rest, h => by
    rw [ItemTexts] at h ⊢
    exact ⟨TextsAt.imp hkey htext h.1, ItemTexts.imp hkey htext h.2⟩

theorem MemberTexts.imp (hkey : ∀ level s, onKey level s → onKey' level s)
    (htext : ∀ level s, onText level s → onText' level s) :
    ∀ {level : Nat} {members : List (String × Json)},
    MemberTexts onKey onText level members → MemberTexts onKey' onText' level members
  | _, [], _ => by
    rw [MemberTexts]
    trivial
  | _, (key, v) :: rest, h => by
    rw [MemberTexts] at h ⊢
    exact ⟨hkey _ _ h.1, TextsAt.imp hkey htext h.2.1, MemberTexts.imp hkey htext h.2.2⟩

end

end Imp

section And

variable {onKey onText onKey' onText' : Nat → List Char → Prop}

mutual

/-- What is asked of the texts of a value may be asked at once. -/
theorem TextsAt.and : ∀ {level : Nat} {v : Json}, TextsAt onKey onText level v →
    TextsAt onKey' onText' level v →
    TextsAt (fun l s => onKey l s ∧ onKey' l s) (fun l s => onText l s ∧ onText' l s) level v
  | _, .str s, h, h' => by
    rw [TextsAt] at h h' ⊢
    exact ⟨h, h'⟩
  | _, .arr items, h, h' => by
    rw [TextsAt] at h h' ⊢
    exact ItemTexts.and h h'
  | _, .obj members, h, h' => by
    rw [TextsAt] at h h' ⊢
    exact MemberTexts.and h h'
  | _, .null, _, _ | _, .bool _, _, _ | _, .num _, _, _ => by
    rw [TextsAt]
    · trivial
    all_goals simp

theorem ItemTexts.and : ∀ {level : Nat} {items : List Json}, ItemTexts onKey onText level items →
    ItemTexts onKey' onText' level items →
    ItemTexts (fun l s => onKey l s ∧ onKey' l s) (fun l s => onText l s ∧ onText' l s) level items
  | _, [], _, _ => by
    rw [ItemTexts]
    trivial
  | _, v :: rest, h, h' => by
    rw [ItemTexts] at h h' ⊢
    exact ⟨TextsAt.and h.1 h'.1, ItemTexts.and h.2 h'.2⟩

theorem MemberTexts.and : ∀ {level : Nat} {members : List (String × Json)},
    MemberTexts onKey onText level members → MemberTexts onKey' onText' level members →
    MemberTexts (fun l s => onKey l s ∧ onKey' l s) (fun l s => onText l s ∧ onText' l s) level
      members
  | _, [], _, _ => by
    rw [MemberTexts]
    trivial
  | _, (key, v) :: rest, h, h' => by
    rw [MemberTexts] at h h' ⊢
    exact ⟨⟨h.1, h'.1⟩, TextsAt.and h.2.1 h'.2.1, MemberTexts.and h.2.2 h'.2.2⟩

end

end And

section Decide

variable {onKey onText : Nat → List Char → Prop} [∀ level s, Decidable (onKey level s)]
  [∀ level s, Decidable (onText level s)]

mutual

/-- What is asked of the texts of a value is decided text by text. -/
def TextsAt.decide (level : Nat) : ∀ v : Json, Decidable (TextsAt onKey onText level v)
  | .str s => decidable_of_iff (onText level s.toList) (by rw [TextsAt])
  | .arr items =>
    have := ItemTexts.decide level items
    decidable_of_iff (ItemTexts onKey onText level items) (by rw [TextsAt])
  | .obj members =>
    have := MemberTexts.decide level members
    decidable_of_iff (MemberTexts onKey onText level members) (by rw [TextsAt])
  | .null => isTrue (by simp [TextsAt])
  | .bool _ => isTrue (by simp [TextsAt])
  | .num _ => isTrue (by simp [TextsAt])

/-- `TextsAt.decide` for each item. -/
def ItemTexts.decide (level : Nat) :
    ∀ items : List Json, Decidable (ItemTexts onKey onText level items)
  | [] => isTrue (by simp [ItemTexts])
  | v :: rest =>
    have := TextsAt.decide (level + 1) v
    have := ItemTexts.decide level rest
    decidable_of_iff (TextsAt onKey onText (level + 1) v ∧ ItemTexts onKey onText level rest)
      (by rw [ItemTexts])

/-- `TextsAt.decide` for the value of each member. -/
def MemberTexts.decide (level : Nat) :
    ∀ members : List (String × Json), Decidable (MemberTexts onKey onText level members)
  | [] => isTrue (by simp [MemberTexts])
  | (key, v) :: rest =>
    have := TextsAt.decide (level + 1) v
    have := MemberTexts.decide level rest
    decidable_of_iff (onKey level key.toList ∧ TextsAt onKey onText (level + 1) v ∧
      MemberTexts onKey onText level rest) (by rw [MemberTexts])

end

instance (level : Nat) (v : Json) : Decidable (TextsAt onKey onText level v) :=
  TextsAt.decide level v

end Decide

/-- A value that reads back at a level. -/
abbrev LegibleAt (level : Nat) (v : Json) : Prop :=
  TextsAt KeyLegible TextLegible level v

/-- The items of a list that reads back. -/
abbrev LegibleItems (level : Nat) (items : List Json) : Prop :=
  ItemTexts KeyLegible TextLegible level items

/-- The members of a map that reads back. -/
abbrev LegibleMembers (level : Nat) (members : List (String × Json)) : Prop :=
  MemberTexts KeyLegible TextLegible level members

/-- A value that reads back. -/
@[mk_iff]
structure Legible (v : Json) : Prop where
  texts : LegibleAt 0 v
  depth : v.height ≤ depthLimit

instance (v : Json) : Decidable (Legible v) :=
  decidable_of_iff' _ (legible_iff v)

end OntologyCompiler.Yaml
