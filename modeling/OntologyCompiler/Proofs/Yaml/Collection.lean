import OntologyCompiler.Proofs.Yaml.Scalar

/-!
# Reading a value with its entries

The entries of a list or map stand below each other at the level of the collection. Each of them is
read up to the next one, the last up to what stands below the collection.

* `Opening`: how the text of an entry starts.
* `line_of_content`, `node_of_line`, `sequence_next`, `value_next`: what one line, entry or value
  comes to.
* `reads_of_legible`, `itemsRead_of_legible`, `membersRead_of_legible`: a value, the items of a list
  and the members of a map, by induction on the value.
-/

namespace OntologyCompiler.Yaml

/-! ## How the text of a value starts -/

/-- How the text of a value without entries or of a key starts at a column: not as an entry, a
property, a comment or a directive. -/
structure Opening (column : Nat) (cs : List Char) : Prop where
  ne_nil : cs ≠ []
  standing : Standing column cs
  directive : cs.head? ≠ some '%'
  property : Property.opens cs = false
  entry : ∀ c : Cursor, c.rest = cs → c.atMark '-' = false ∧ c.atMark '?' = false

/-- A character with which the text of a value starts. -/
theorem Opening.of_char (column : Nat) {c : Char} (hc : c ∈ ['"', '|', '[', ']', '{', '}'])
    (rest : List Char) : Opening column (c :: rest) := by
  have hchars : ∀ d ∈ ['"', '|', '[', ']', '{', '}'], isSpacing d = false ∧ isBreak d = false ∧
      d ≠ '#' ∧ d ≠ byteOrderMark ∧ d ≠ '&' ∧ d ≠ '!' ∧ d ≠ '-' ∧ d ≠ '?' ∧ d ≠ '%' := by decide
  obtain ⟨hspacing, hbreak, hcomment, hmark, hanchor, htag, hdash, hquestion, hpercent⟩ :=
    hchars c hc
  refine ⟨by simp, .entry hspacing hbreak hcomment fun _ => hmark, by simpa using hpercent, ?_,
    fun cursor hrest => ?_⟩
  · simp [Property.opens, hanchor, htag]
  · simp [Cursor.atMark, hrest, hdash, hquestion]

theorem Opening.of_bare {column : Nat} {s : List Char} (h : IsBare s) (more : List Char)
    (hmark : column = 0 → s.head? ≠ some byteOrderMark) : Opening column (s ++ more) :=
  ⟨h.append_ne_nil more, h.standing more hmark, h.head_ne more (by decide) (by decide),
    h.not_opens more,
    fun _ hrest => ⟨h.not_atMark hrest (by decide), h.not_atMark hrest (by decide)⟩⟩

theorem Cursor.not_isOver {c : Cursor} (hne : c.rest ≠ [])
    (h : c.column = 0 → isDocumentMark c.rest = false) : c.isOver = false := by
  rw [Cursor.isOver, ← isDocumentMark, Bool.or_eq_false_iff]
  refine ⟨by simpa using hne, ?_⟩
  by_cases hcolumn : c.column = 0
  · simp [h hcolumn]
  · simp [hcolumn]

/-- Not every text of the form of a mark is one. -/
theorem isDocumentMark_digits (n : Number) (more : List Char) :
    isDocumentMark (n.digits ++ more) = false := by
  obtain ⟨negative, c, rest, hdigits, hc, -⟩ := digits_chars n
  rw [hdigits, isDocumentMark_eq]
  have hdash := ne_of_isDigit hc (d := '-') (by decide)
  have hdot := ne_of_isDigit hc (d := '.') (by decide)
  cases negative with
  | false => simp [DecimalLiteral.sign, opensMark_of_ne hdash, opensMark_of_ne hdot]
  | true =>
    rw [Bool.or_eq_false_iff]
    refine ⟨?_, opensMark_of_ne (by decide) _⟩
    show opensMark '-' ('-' :: c :: (rest ++ more)) = false
    cases rest ++ more <;> simp [opensMark, hdash]

theorem head?_digits_ne (n : Number) : n.digits.head? ≠ some byteOrderMark := by
  obtain ⟨negative, c, rest, hdigits, hc, -⟩ := digits_chars n
  rw [hdigits]
  cases negative with
  | true => exact fun heq => absurd (Option.some.inj heq) (by decide)
  | false =>
    rintro ⟨⟩
    exact absurd hc (by decide)

/-- A text without quotes is no mark in front of a document. -/
theorem isDocumentMark_unquoted {s : List Char} (h : needsQuotes s = false) (more : List Char) :
    isDocumentMark (s ++ more) = closesDocument (s ++ more) := by
  obtain ⟨hne, -, hfirst, -⟩ := of_unquoted h
  obtain ⟨c, rest, rfl⟩ := List.exists_cons_of_ne_nil hne
  have hdash : c ≠ '-' := by
    rintro rfl
    exact absurd (hfirst '-' rfl) (by decide)
  rw [isDocumentMark, opensDocument_eq, List.cons_append, opensMark_of_ne hdash, Bool.false_or]

/-- A text without quotes that a reader does not pass before it starts: it starts neither with a
separator nor, at the start of a line, with a byte order mark. -/
structure Stands (level : Nat) (s : List Char) : Prop where
  front : needsQuotes s = false → ∀ c, s.head? = some c → isSeparator c = false
  mark : needsQuotes s = false → level = 0 → s.head? ≠ some byteOrderMark

theorem needsQuotes_of_isBlock {s : List Char} (h : isBlock s = true) : needsQuotes s = true := by
  have hmem : '\n' ∈ s := by
    simp only [isBlock, Bool.and_eq_true, List.contains_eq_mem, decide_eq_true_eq] at h
    exact h.1.1.1
  rw [← Bool.not_eq_false]
  intro hplain
  exact absurd ((of_unquoted hplain).2.1 '\n' hmem) (by decide)

theorem TextLegible.stands {level : Nat} {s : List Char} (h : TextLegible level s) :
    Stands level s := by
  have hnot : needsQuotes s = false → isBlock s = false := by
    intro hplain
    rw [← Bool.not_eq_true]
    intro hblock
    rw [needsQuotes_of_isBlock hblock] at hplain
    exact absurd hplain (by decide)
  refine ⟨fun hplain => ?_, fun hplain hroot => (h.root (hnot hplain) hplain hroot).mark⟩
  by_cases hroot : level = 0
  · exact (h.root (hnot hplain) hplain hroot).front
  · exact fun c hc => (h.line (hnot hplain) hplain hroot).line c (List.mem_of_head? hc)

theorem KeyLegible.stands {level : Nat} {s : List Char} (h : KeyLegible level s) :
    Stands level s :=
  ⟨fun _ c hc => h.line c (List.mem_of_head? hc), fun hplain hroot => (h.start hplain hroot).1⟩

theorem LegibleAt.stands {level : Nat} {v : Json} (h : LegibleAt level v) :
    TextsAt Stands Stands level v :=
  h.imp (fun _ _ => KeyLegible.stands) fun _ _ => TextLegible.stands

section Opening

variable {level column : Nat}

/-- How a text on one line starts, in quotes or without them. -/
theorem opening_quote {s : List Char} (h : Stands level s) (hcolumn : column = 0 → level = 0)
    (more : List Char) : Opening column (quote s ++ more) := by
  rw [quote]
  by_cases hquoted : needsQuotes s = true
  · rw [if_pos hquoted]
    exact .of_char column (by decide) _
  have hplain : needsQuotes s = false := by simpa using hquoted
  rw [if_neg hquoted]
  by_cases hopens : OpensPlain s
  · exact .of_bare (isBare_unquoted hplain hopens (h.front hplain)) _
      fun hzero => h.mark hplain (hcolumn hzero)
  · obtain ⟨c, rest, rfl, hc⟩ := exists_bracket hopens
    have hchars : ∀ d ∈ [']', '}'], d ∈ ['"', '|', '[', ']', '{', '}'] := by decide
    exact .of_char column (hchars c hc) _

theorem opening_key {s : List Char} (h : Stands level s) (more : List Char) :
    Opening (2 * level) (quote s ++ more) :=
  opening_quote h (fun hzero => by omega) more

/-- How a value without entries starts. -/
theorem opening_scalar : ∀ {v : Json}, isNested v = false → TextsAt Stands Stands level v →
    (column = 0 → level = 0) → ∀ rest : List Char, Opening column (nodeText level v ++ rest)
  | .str s, _, hv, hcolumn, rest => by
    rw [TextsAt] at hv
    rw [nodeText]
    by_cases hblock : isBlock s.toList = true
    · rw [if_pos hblock, Block.written]
      unfold blockMark
      split <;> exact .of_char column (by decide) _
    · rw [if_neg hblock, List.append_assoc]
      exact opening_quote hv hcolumn _
  | .num n, _, _, _, rest => by
    rw [nodeText, List.append_assoc]
    · exact .of_bare (isBare_digits n) _ fun _ => head?_digits_ne n
    all_goals simp
  | .null, _, _, _, rest => by
    rw [nodeText, List.append_assoc]
    · exact .of_bare (.word (by decide) (by decide) (by decide)) _ fun _ => by decide
    all_goals simp
  | .bool b, _, _, _, rest => by
    rw [nodeText, List.append_assoc]
    · cases b <;>
        exact .of_bare (.word (by decide) (by decide) (by decide)) _ fun _ => by decide
    all_goals simp
  | .arr [], _, _, _, _ => .of_char column (by decide) _
  | .obj [], _, _, _, _ => .of_char column (by decide) _
  | .arr (_ :: _), h, _, _, _ => nomatch h
  | .obj (_ :: _), h, _, _, _ => nomatch h

/-- A key in quotes is no mark of documents, another one only if it closes them. -/
theorem isDocumentMark_quote {s : List Char} (rest : List Char) :
    isDocumentMark (quote s ++ ':' :: rest) =
      (!needsQuotes s && closesDocument (s ++ [':'])) := by
  rw [quote]
  by_cases hquoted : needsQuotes s = true
  · rw [if_pos hquoted, hquoted]
    exact isDocumentMark_of_ne (by decide) (by decide) _
  · have hplain : needsQuotes s = false := by simpa using hquoted
    rw [if_neg hquoted, isDocumentMark_append (d := ':') (by decide) (by decide),
      isDocumentMark_unquoted hplain, hplain]
    rfl

/-- A legible key is no mark of documents. -/
theorem isDocumentMark_key {s : List Char} (h : KeyLegible 0 s) (rest : List Char) :
    isDocumentMark (quote s ++ ':' :: rest) = false := by
  rw [isDocumentMark_quote, Bool.and_eq_false_iff, Bool.not_eq_false']
  by_cases hquoted : needsQuotes s = true
  · exact Or.inl hquoted
  · exact Or.inr (h.start (by simpa using hquoted) rfl).2

/-- A legible document is none. -/
theorem isDocumentMark_scalar : ∀ {v : Json}, isNested v = false → LegibleAt 0 v →
    isDocumentMark (nodeText 0 v) = false
  | .str s, _, hv => by
    rw [LegibleAt, TextsAt] at hv
    rw [nodeText]
    by_cases hblock : isBlock s.toList = true
    · rw [if_pos hblock, Block.written]
      unfold blockMark
      split <;> exact isDocumentMark_of_ne (by decide) (by decide) _
    have hnot : isBlock s.toList = false := by simpa using hblock
    rw [if_neg hblock, quote]
    by_cases hquoted : needsQuotes s.toList = true
    · rw [if_pos hquoted]
      exact isDocumentMark_of_ne (by decide) (by decide) _
    · have hplain : needsQuotes s.toList = false := by simpa using hquoted
      have hmark := isDocumentMark_unquoted hplain []
      rw [List.append_nil, (hv.root hnot hplain rfl).closes] at hmark
      rw [if_neg hquoted, isDocumentMark_line, hmark]
  | .num n, _, _ => by
    rw [nodeText]
    · exact isDocumentMark_digits n _
    all_goals simp
  | .null, _, _ => isDocumentMark_of_ne (by decide) (by decide) _
  | .bool true, _, _ => isDocumentMark_of_ne (c := 't') (by decide) (by decide) _
  | .bool false, _, _ => isDocumentMark_of_ne (c := 'f') (by decide) (by decide) _
  | .arr [], _, _ => isDocumentMark_of_ne (by decide) (by decide) _
  | .obj [], _, _ => isDocumentMark_of_ne (by decide) (by decide) _
  | .arr (_ :: _), h, _ => nomatch h
  | .obj (_ :: _), h, _ => nomatch h

end Opening

/-! ## One line -/

namespace Collection

variable {handles : Handles} {fuel floor : Nat} {c after : Cursor} {n : Node String}

/-- What is read on a line that starts with no property. -/
theorem line_of_content (hproperty : Property.opens c.rest = false)
    (hcontent : Flow.content handles floor fuel c = some (n, .just after)) :
    line handles fuel floor c =
      let first := if after.fresh then after else after.skipBlanks
      if first.fresh || !first.atMark ':' then some (.node .none n after)
      else if !c.fresh || !c.spansKey first then none
      else (n.withProperties .none).map fun k => .key k false first := by
  have hread : Property.read handles Cursor.skipBlanks c = some (.none, c) := by
    simp [Property.read, hproperty]
  have hnone : (Properties.none : Properties String).isNone = true := rfl
  simp only [line, hread, hcontent, hnone, Option.bind_eq_bind, Option.bind_some, Bool.not_true,
    Bool.false_and, Bool.false_eq_true, if_false, Reach.just]
  generalize (if after.fresh = true then after else after.skipBlanks) = first
  split
  · rfl
  split
  · rfl
  · cases n.withProperties .none <;> rfl

/-- A line that ends behind its node. -/
theorem line_of_value (hproperty : Property.opens c.rest = false)
    (hcontent : Flow.content handles floor fuel c = some (n, .just after))
    (hends : after.fresh = true ∨ after.rest.head? = some '\n') :
    line handles fuel floor c = some (.node .none n after) := by
  rw [line_of_content hproperty hcontent]
  rcases hends with hfresh | hhead
  · simp [hfresh]
  · have hblanks : after.skipBlanks = after :=
      Cursor.skipBlanks_of_head fun d hd => by
        rw [hhead] at hd
        cases hd
        decide
    have hmark : after.atMark ':' = false := by
      unfold Cursor.atMark
      split
      · rename_i heq
        rw [heq] at hhead
        cases hhead
        rfl
      · rfl
    rw [hblanks, ite_self]
    simp [hmark]

/-- A line with a key, at which an entry may start. -/
theorem line_of_key {k : Node String} {rest : List Char} {column : Nat} (hfresh : c.fresh = true)
    (hproperty : Property.opens c.rest = false)
    (hcontent : Flow.content handles floor fuel c =
      some (n, .just ⟨':' :: rest, c.line, column, false, 0⟩))
    (hrest : opensGap rest = true)
    (hshort : c.bytesTo ⟨':' :: rest, c.line, column, false, 0⟩ ≤ Cursor.keyLimit)
    (hnode : n.withProperties .none = some k) :
    line handles fuel floor c = some (.key k false ⟨':' :: rest, c.line, column, false, 0⟩) := by
  have hblanks : (⟨':' :: rest, c.line, column, false, 0⟩ : Cursor).skipBlanks =
      ⟨':' :: rest, c.line, column, false, 0⟩ :=
    Cursor.skipBlanks_of_head fun d hd => by
      cases hd
      decide
  rw [line_of_content hproperty hcontent]
  simp [hblanks, Cursor.atMark, hrest, hfresh, Cursor.spansKey, hshort, hnode]

/-! ## Nodes -/

section Node

variable {place : Cursor} {level : Bool}

/-- What stands on a line of its own or behind a mark. -/
theorem node_of_line (hskip : c.skipGap = place) (hover : place.isOver = false)
    (hfloor : floor ≤ place.column) (hdash : place.atMark '-' = false)
    (hquestion : place.atMark '?' = false) :
    node handles (fuel + 1) floor level .none c = (line handles fuel floor place).bind fun
      | .properties q after => node handles fuel floor level q after
      | .node q n after => (n.withProperties q).map fun n => (n, after)
      | .key _ _ _ => (mapping handles fuel place.column place).map fun r =>
          (.mapping .none r.1, r.2) := by
  rw [node]
  simp only [hskip, hover, hdash, hquestion, Nat.not_lt.mpr hfloor, Bool.false_eq_true, if_false]
  have hmerge : ∀ q : Properties String, Properties.none.merge q = some q := fun q => by
    simp [Properties.merge, Properties.none]
  cases hline : line handles fuel floor place with
  | none => rfl
  | some l =>
    cases l with
    | properties q after => simp [hmerge]
    | node q n after =>
      simp only [Option.bind_eq_bind, Option.bind_some, hmerge]
      cases n.withProperties q <;> rfl
    | key k taken after =>
      simp only [Option.bind_eq_bind, Option.bind_some]
      cases mapping handles fuel place.column place <;> rfl

theorem node_of_sequence (hskip : c.skipGap = place) (hover : place.isOver = false)
    (hfloor : floor ≤ place.column) (hdash : place.atMark '-' = true)
    (hfresh : place.fresh = true) :
    node handles (fuel + 1) floor level .none c =
      (sequence handles fuel place.column place).map fun r => (.sequence .none r.1, r.2) := by
  rw [node]
  simp only [hskip, hover, hdash, hfresh, Nat.not_lt.mpr hfloor, Bool.false_eq_true, if_false,
    if_true, Bool.not_true]
  cases sequence handles fuel place.column place <;> rfl

end Node

/-! ## Entries -/

section Entry

variable {place : Cursor} {column : Nat}

/-- The last item is not followed by another one in its column. -/
theorem sequence_last {item : Node String}
    (hnode : node handles fuel (column + 1) false .none (c.advance 1).refreshed =
      some (item, after))
    (hskip : after.skipGap = place) (hend : place.isOver = true ∨ place.column ≠ column) :
    sequence handles (fuel + 1) column c = some ([item], place) := by
  rw [sequence]
  simp only [hnode, hskip, Option.bind_eq_bind, Option.bind_some]
  rcases hend with hover | hcolumn
  · simp [hover]
  · simp [hcolumn]

/-- Another item stands in the column of the list. -/
theorem sequence_next {item : Node String}
    (hnode : node handles fuel (column + 1) false .none (c.advance 1).refreshed =
      some (item, after))
    (hskip : after.skipGap = place) (hover : place.isOver = false) (hcolumn : place.column = column)
    (hfresh : place.fresh = true) (hdash : place.atMark '-' = true) :
    sequence handles (fuel + 1) column c =
      (sequence handles fuel column place).map fun r => (item :: r.1, r.2) := by
  rw [sequence]
  simp only [hnode, hskip, hover, hcolumn, hfresh, hdash, Option.bind_eq_bind, Option.bind_some]
  cases sequence handles fuel column place <;> rfl

/-- Behind a key stands its value. -/
theorem mapping_of_key {k : Node String} (hfresh : c.fresh = true)
    (hquestion : c.atMark '?' = false)
    (hline : line handles fuel (column + 1) c = some (.key k false after)) :
    mapping handles (fuel + 1) column c = value handles fuel column k (after.advance 1) := by
  rw [mapping]
  simp [hfresh, hquestion, hline]

/-- The last member is not followed by another one in its column. -/
theorem value_last {k v : Node String}
    (hnode : node handles (fuel + 1) (column + 1) true .none c = some (v, after))
    (hskip : after.skipGap = place) (hend : place.isOver = true ∨ place.column ≠ column) :
    value handles (fuel + 2) column k c = some ([(k, v)], place) := by
  rw [value]
  simp only [hnode, hskip, Option.bind_eq_bind, Option.bind_some]
  rw [next, if_pos]
  rcases hend with hover | hcolumn
  · simp [hover]
  · simp [hcolumn]

/-- Another member stands in the column of the map. -/
theorem value_next {k v : Node String}
    (hnode : node handles (fuel + 1) (column + 1) true .none c = some (v, after))
    (hskip : after.skipGap = place) (hover : place.isOver = false)
    (hcolumn : place.column = column) :
    value handles (fuel + 2) column k c =
      (mapping handles fuel column place).map fun r => ((k, v) :: r.1, r.2) := by
  rw [value]
  simp only [hnode, hskip, Option.bind_eq_bind, Option.bind_some]
  rw [next, if_neg (by simp [hover, hcolumn])]
  cases mapping handles fuel column place <;> rfl

end Entry

end Collection

/-! ## Values and their entries -/

theorem itemsText_cons (level : Nat) (v : Json) (rest : List Json) :
    itemsText level (v :: rest) = blanks (2 * level) ++ nodeText level (.arr (v :: rest)) := by
  rw [itemsText, nodeText]

theorem membersText_cons (level : Nat) (m : String × Json) (rest : List (String × Json)) :
    membersText level (m :: rest) = blanks (2 * level) ++ nodeText level (.obj (m :: rest)) := by
  rw [membersText, nodeText]

/-- Where the text of a value starts: the entries of a collection stand at its level, on lines of
their own or behind a dash. -/
structure Placed (level : Nat) (v : Json) (column : Nat) (fresh : Bool) : Prop where
  deep : floorOf level ≤ column
  aligned : isNested v = true → column = 2 * level ∧ fresh = true

theorem Placed.level_eq_zero {level : Nat} {v : Json} {column : Nat} {fresh : Bool}
    (h : Placed level v column fresh) (hcolumn : column = 0) : level = 0 := by
  have := h.deep
  unfold floorOf at this
  omega

section Entries

variable (handles : Handles)

/-- A value is read at every place where it may stand. -/
def Reads (level : Nat) (v : Json) : Prop :=
  ∀ {count : Nat} {t : List Char}, Below level count t →
    ∀ (next : Bool) (c : Cursor) {line column : Nat} {fresh : Bool}, Placed level v column fresh →
    c.skipGap = ⟨nodeText level v ++ (blanks count ++ t), line, column, fresh, 0⟩ →
    ∀ fuel, 5 * (nodeText level v ++ (blanks count ++ t)).length + 5 ≤ fuel →
    ∃ after, Collection.node handles fuel (floorOf level) next .none c = some (nodeOf v, after) ∧
      LeadsTo after t count

/-- The items of a list are read where the first of them stands. -/
def ItemsRead (level : Nat) (items : List Json) : Prop :=
  items ≠ [] → ∀ {count : Nat} {t : List Char}, Below level count t → ∀ line fuel : Nat,
    5 * (nodeText level (.arr items) ++ (blanks count ++ t)).length + 3 ≤ fuel →
    ∃ line', Collection.sequence handles fuel (2 * level)
        (.landing (nodeText level (.arr items) ++ (blanks count ++ t)) line (2 * level)) =
      some (itemsOf items, .landing t line' count)

/-- The members of a map are read where the key of the first of them stands. -/
def MembersRead (level : Nat) (members : List (String × Json)) : Prop :=
  members ≠ [] → ∀ {count : Nat} {t : List Char}, Below level count t → ∀ line fuel : Nat,
    5 * (nodeText level (.obj members) ++ (blanks count ++ t)).length + 3 ≤ fuel →
    ∃ line', Collection.mapping handles fuel (2 * level)
        (.landing (nodeText level (.obj members) ++ (blanks count ++ t)) line (2 * level)) =
      some (membersOf members, .landing t line' count)

variable {handles : Handles} {level : Nat}

theorem floorOf_zero : floorOf 0 = 0 := rfl

theorem floorOf_succ (level : Nat) : floorOf (level + 1) = 2 * level + 1 := rfl

/-- What is below a collection is no entry of it. -/
theorem Below.not_entry {count : Nat} {t : List Char} (h : Below level count t) (line : Nat) :
    (Cursor.landing t line count).isOver = true ∨ count ≠ 2 * level := by
  rcases eq_or_ne t [] with rfl | hne
  · exact Or.inl rfl
  · have := h.low hne
    unfold floorOf at this
    exact Or.inr (by omega)

/-- What is below a collection is below its last entry as well. -/
theorem Below.succ {count : Nat} {t : List Char} (h : Below level count t) :
    Below (level + 1) count t := by
  refine ⟨h.standing, fun hne => ?_⟩
  have := h.low hne
  unfold floorOf at this ⊢
  omega

theorem withProperties_nodeOf (v : Json) :
    (nodeOf v : Node String).withProperties .none = some (nodeOf v) := by
  cases v <;> simp only [nodeOf] <;> rfl

theorem reads_scalar {v : Json} (hnested : isNested v = false) (hv : LegibleAt level v) :
    Reads handles level v := by
  intro count t hbelow next c line column fresh hplaced hskip fuel hfuel
  obtain ⟨fuel, rfl⟩ : ∃ k, fuel = k + 3 := ⟨fuel - 3, by omega⟩
  obtain ⟨after, hcontent, hafter⟩ := content_written handles hnested hv hbelow fuel line column
    fresh
  have hopening := opening_scalar hnested hv.stands hplaced.level_eq_zero (blanks count ++ t)
  have hover : (⟨nodeText level v ++ (blanks count ++ t), line, column, fresh, 0⟩ : Cursor).isOver =
      false := by
    refine Cursor.not_isOver hopening.ne_nil fun hcolumn => ?_
    obtain rfl := hplaced.level_eq_zero hcolumn
    obtain ⟨rfl, rfl⟩ := hbelow.eq_nil
    simpa [blanks] using isDocumentMark_scalar hnested hv
  obtain ⟨hdash, hquestion⟩ := hopening.entry ⟨_, line, column, fresh, 0⟩ rfl
  refine ⟨after, ?_, hafter⟩
  rw [Collection.node_of_line hskip hover hplaced.deep hdash hquestion,
    Collection.line_of_value hopening.property hcontent hafter.ends]
  simp [withProperties_nodeOf]

/-- A dash is no mark of documents. -/
theorem isDocumentMark_dash (level : Nat) (v : Json) (rest : List Json) (more : List Char) :
    isDocumentMark (nodeText level (.arr (v :: rest)) ++ more) = false := by
  rw [nodeText, isDocumentMark_eq, List.append_assoc, List.cons_append, List.cons_append,
    opensMark_of_ne (m := '.') (by decide)]
  cases nodeText (level + 1) v ++ (itemsText level rest ++ more) <;> simp [opensMark]

theorem dash_not_isOver (v : Json) (rest : List Json) (more : List Char) (line column : Nat) :
    (Cursor.landing (nodeText level (.arr (v :: rest)) ++ more) line column).isOver = false :=
  Cursor.not_isOver (by simp [Cursor.landing, nodeText])
    fun _ => isDocumentMark_dash level v rest more

/-- It is the mark of an item. -/
theorem dash_atMark (v : Json) (rest : List Json) (more : List Char) (line column : Nat) :
    (Cursor.landing (nodeText level (.arr (v :: rest)) ++ more) line column).atMark '-' = true := by
  rw [nodeText]
  rfl

/-- What stands behind the key of a member: its colon, and its value after a gap. -/
theorem exists_value (key : String) (v : Json) (rest : List (String × Json)) (level : Nat)
    (more : List Char) : ∃ cs, nodeText level (.obj ((key, v) :: rest)) ++ more =
      quote key.toList ++ ':' :: (lead (level + 1) v ++ cs) :=
  ⟨nodeText (level + 1) v ++ (membersText level rest ++ more), by rw [nodeText]; simp⟩

/-- The document is not over at a legible key. -/
theorem key_not_isOver {s : List Char} (h : KeyLegible level s) (rest : List Char) (line : Nat) :
    (Cursor.landing (quote s ++ ':' :: rest) line (2 * level)).isOver = false := by
  refine Cursor.not_isOver (opening_key h.stands _).ne_nil fun hcolumn => ?_
  obtain rfl : level = 0 := by
    simp only [Cursor.landing] at hcolumn
    omega
  exact isDocumentMark_key h rest

theorem opensGap_lead (level : Nat) (v : Json) (more : List Char) :
    opensGap (lead level v ++ more) = true := by
  unfold lead
  split <;> rfl

/-- The key of a member is read on its line. -/
theorem line_key (handles : Handles) {key : String} (h : KeyLegible level key.toList) (v : Json)
    (cs : List Char) (floor fuel line : Nat) :
    Collection.line handles (fuel + 1) floor
        (.landing (quote key.toList ++ ':' :: (lead (level + 1) v ++ cs)) line (2 * level)) =
      some (.key (.scalar .none (keyStyle key.toList) key) false
        ⟨':' :: (lead (level + 1) v ++ cs), line, 2 * level + (quote key.toList).length, false,
          0⟩) := by
  have hgap := opensGap_lead (level + 1) v cs
  refine Collection.line_of_key rfl (opening_key h.stands _).property
    (content_key handles h.line h.opens hgap _ _ _ _ _) hgap ?_ rfl
  have hcount := h.short
  simpa [Cursor.bytesTo, Cursor.landing, byteCount] using hcount

theorem reads_arr {v : Json} {rest : List Json} (h : ItemsRead handles level (v :: rest)) :
    Reads handles level (.arr (v :: rest)) := by
  intro count t hbelow next c line column fresh hplaced hskip fuel hfuel
  obtain ⟨fuel, rfl⟩ : ∃ k, fuel = k + 1 := ⟨fuel - 1, by omega⟩
  obtain ⟨rfl, rfl⟩ := hplaced.aligned rfl
  obtain ⟨line', hitems⟩ := h (by simp) hbelow line fuel (by omega)
  refine ⟨_, ?_, LeadsTo.of_landing hbelow.standing line'⟩
  rw [Collection.node_of_sequence hskip (dash_not_isOver v rest _ line _) hplaced.deep
    (dash_atMark v rest _ line _) rfl]
  have hitems' := congrArg (Option.map fun r => (Node.sequence Properties.none r.1, r.2)) hitems
  rw [nodeOf]
  exact hitems'

theorem reads_obj {key : String} {v : Json} {rest : List (String × Json)}
    (hkey : KeyLegible level key.toList) (h : MembersRead handles level ((key, v) :: rest)) :
    Reads handles level (.obj ((key, v) :: rest)) := by
  intro count t hbelow next c line column fresh hplaced hskip fuel hfuel
  obtain ⟨fuel, rfl⟩ : ∃ k, fuel = k + 2 := ⟨fuel - 2, by omega⟩
  obtain ⟨rfl, rfl⟩ := hplaced.aligned rfl
  obtain ⟨line', hmembers⟩ := h (by simp) hbelow line (fuel + 1) (by omega)
  refine ⟨_, ?_, LeadsTo.of_landing hbelow.standing line'⟩
  obtain ⟨more, hmore⟩ := exists_value key v rest level (blanks count ++ t)
  rw [hmore] at hskip hmembers
  have hopening := opening_key hkey.stands (':' :: (lead (level + 1) v ++ more))
  obtain ⟨hdash, hquestion⟩ := hopening.entry (.landing _ line (2 * level)) rfl
  have hline := line_key handles hkey v more (floorOf level) fuel line
  have hplace : c.skipGap = .landing (quote key.toList ++ ':' :: (lead (level + 1) v ++ more)) line
      (2 * level) := hskip
  rw [Collection.node_of_line hplace (key_not_isOver hkey _ line) hplaced.deep hdash hquestion,
    hline]
  have hmembers' := congrArg (Option.map fun r => (Node.mapping Properties.none r.1, r.2)) hmembers
  rw [nodeOf]
  exact hmembers'

/-- What stands at the start of a value is not passed. -/
theorem Placed.standing {v : Json} {column : Nat} {fresh : Bool} (h : Placed level v column fresh)
    (hv : TextsAt Stands Stands level v) (more : List Char) :
    Standing column (nodeText level v ++ more) := by
  by_cases hnested : isNested v = true
  · obtain ⟨rfl, -⟩ := h.aligned hnested
    cases v with
    | arr items =>
      rcases items with _ | ⟨w, items⟩
      · exact absurd hnested (by decide)
      · rw [nodeText]
        exact Standing.entry (by decide) (by decide) (by decide) fun _ => by decide
    | obj members =>
      rcases members with _ | ⟨⟨key, w⟩, members⟩
      · exact absurd hnested (by decide)
      · rw [TextsAt, MemberTexts] at hv
        rw [nodeText, List.append_assoc, List.append_assoc]
        exact (opening_key hv.1 _).standing
    | _ => exact absurd hnested (by simp [isNested])
  · exact (opening_scalar (by simpa using hnested) hv h.level_eq_zero more).standing

/-- An item starts behind its dash and a blank. -/
theorem skipGap_dash {v : Json} (hv : TextsAt Stands Stands (level + 1) v) (more : List Char)
    (line : Nat) :
    Placed (level + 1) v (2 * (level + 1)) true ∧
      ((Cursor.landing ('-' :: ' ' :: (nodeText (level + 1) v ++ more)) line (2 * level)).advance
        1).refreshed.skipGap =
        .landing (nodeText (level + 1) v ++ more) line (2 * (level + 1)) := by
  have hplaced : Placed (level + 1) v (2 * (level + 1)) true := by
    refine ⟨?_, fun _ => ⟨rfl, rfl⟩⟩
    unfold floorOf
    omega
  have hstanding := hplaced.standing hv more
  refine ⟨hplaced, ?_⟩
  show Cursor.gapEnd 0 (blanks 1 ++ (nodeText (level + 1) v ++ more)) line (2 * level + 1) true
    false = _
  rw [Cursor.gapEnd_blanks]
  exact Cursor.gapEnd_standing hstanding line true

/-- **An item is read**, and then the others. -/
theorem itemsRead_cons {v : Json} {rest : List Json} (hv : LegibleAt (level + 1) v)
    (hread : Reads handles (level + 1) v) (hrest : ItemsRead handles level rest) :
    ItemsRead handles level (v :: rest) := by
  intro _ count t hbelow line fuel hfuel
  obtain ⟨fuel, rfl⟩ : ∃ k, fuel = k + 1 := ⟨fuel - 1, by omega⟩
  have htext : nodeText level (.arr (v :: rest)) ++ (blanks count ++ t) =
      '-' :: ' ' :: (nodeText (level + 1) v ++ (itemsText level rest ++ (blanks count ++ t))) := by
    rw [nodeText]
    simp
  rw [htext] at hfuel ⊢
  simp only [List.length_cons] at hfuel
  obtain ⟨hplaced, hskip⟩ :=
    skipGap_dash hv.stands (itemsText level rest ++ (blanks count ++ t)) line
  rcases eq_or_ne rest [] with rfl | hne
  · -- the last item
    rw [itemsText, List.nil_append] at hfuel hskip ⊢
    obtain ⟨after, hnode, -, line', hafter⟩ := hread hbelow.succ false _ hplaced hskip fuel
      (by omega)
    rw [floorOf_succ] at hnode
    exact ⟨line', Collection.sequence_last hnode hafter (hbelow.not_entry line')⟩
  · obtain ⟨w, more, rfl⟩ := List.exists_cons_of_ne_nil hne
    rw [itemsText_cons, List.append_assoc] at hfuel hskip ⊢
    have hstanding : Standing (2 * level)
        (nodeText level (.arr (w :: more)) ++ (blanks count ++ t)) :=
      Standing.entry (by decide) (by decide) (by decide) fun _ => by decide
    have hlow : Below (level + 1) (2 * level)
        (nodeText level (.arr (w :: more)) ++ (blanks count ++ t)) :=
      ⟨hstanding, fun _ => Nat.lt_succ_self (2 * level)⟩
    obtain ⟨after, hnode, -, line₁, hafter⟩ := hread hlow false _ hplaced hskip fuel (by omega)
    rw [floorOf_succ] at hnode
    rw [List.length_append, List.length_append] at hfuel
    obtain ⟨line', hitems⟩ := hrest hne hbelow line₁ fuel (by omega)
    refine ⟨line', ?_⟩
    rw [Collection.sequence_next hnode hafter (dash_not_isOver w more _ line₁ _) rfl rfl
      (dash_atMark w more _ line₁ _), hitems]
    rfl

/-- Behind the colon of a member its value starts after a blank or on the next line. -/
theorem skipGap_lead {v : Json} (hv : TextsAt Stands Stands (level + 1) v) (more : List Char)
    (line : Nat) {column : Nat} (hcolumn : 2 * level < column) : ∃ line' column' fresh',
    Placed (level + 1) v column' fresh' ∧
      (⟨lead (level + 1) v ++ (nodeText (level + 1) v ++ more), line, column, false, 0⟩ :
        Cursor).skipGap = ⟨nodeText (level + 1) v ++ more, line', column', fresh', 0⟩ := by
  rw [lead]
  by_cases hnested : isNested v = true
  · have hplaced : Placed (level + 1) v (2 * (level + 1)) true := by
      refine ⟨?_, fun _ => ⟨rfl, rfl⟩⟩
      unfold floorOf
      omega
    refine ⟨line + 1, _, true, hplaced, ?_⟩
    rw [if_pos hnested]
    exact Cursor.gapEnd_line (hplaced.standing hv more) line column false
  · have hplaced : Placed (level + 1) v (column + 1) false := by
      refine ⟨?_, fun h => absurd h hnested⟩
      unfold floorOf
      omega
    refine ⟨line, _, false, hplaced, ?_⟩
    rw [if_neg hnested]
    show Cursor.gapEnd 0 (blanks 1 ++ (nodeText (level + 1) v ++ more)) line column false false = _
    rw [Cursor.gapEnd_blanks]
    exact Cursor.gapEnd_standing (hplaced.standing hv more) line false

theorem memberText_eq (level : Nat) (key : String) (v : Json) (rest : List (String × Json))
    (more : List Char) : nodeText level (.obj ((key, v) :: rest)) ++ more =
      quote key.toList ++ ':' :: (lead (level + 1) v ++
        (nodeText (level + 1) v ++ (membersText level rest ++ more))) := by
  rw [nodeText]
  simp

/-- Behind a legible key its value is read where it starts. -/
theorem mapping_member (handles : Handles) {key : String} {v : Json}
    (hkey : KeyLegible level key.toList) (hv : TextsAt Stands Stands (level + 1) v)
    (more : List Char) (line : Nat) :
    ∃ c line' column' fresh', Placed (level + 1) v column' fresh' ∧
      c.skipGap = ⟨nodeText (level + 1) v ++ more, line', column', fresh', 0⟩ ∧
      ∀ fuel, Collection.mapping handles (fuel + 2) (2 * level) (.landing (quote key.toList ++
          ':' :: (lead (level + 1) v ++ (nodeText (level + 1) v ++ more))) line (2 * level)) =
        Collection.value handles (fuel + 1) (2 * level)
          (.scalar .none (keyStyle key.toList) key) c := by
  have hpos : 0 < (quote key.toList).length := List.length_pos_iff.mpr (quote_ne_nil key.toList)
  have hcolumn : 2 * level < 2 * level + (quote key.toList).length + 1 := by omega
  obtain ⟨line', column', fresh', hplaced, hskip⟩ := skipGap_lead hv more line hcolumn
  refine ⟨_, line', column', fresh', hplaced, hskip, fun fuel => ?_⟩
  have hopening := opening_key hkey.stands
    (':' :: (lead (level + 1) v ++ (nodeText (level + 1) v ++ more)))
  have hquestion := (hopening.entry (.landing _ line (2 * level)) rfl).2
  have hline := line_key handles hkey v (nodeText (level + 1) v ++ more) (2 * level + 1) fuel line
  exact Collection.mapping_of_key rfl hquestion hline

/-- The next member stands in the column of the map. -/
theorem below_member {key : String} {v : Json} {rest : List (String × Json)}
    (hkey : Stands level key.toList) (more : List Char) :
    Below (level + 1) (2 * level) (nodeText level (.obj ((key, v) :: rest)) ++ more) := by
  refine ⟨?_, fun _ => Nat.lt_succ_self (2 * level)⟩
  rw [memberText_eq]
  exact (opening_key hkey _).standing

/-- **A member is read**, and then the others. -/
theorem membersRead_cons {key : String} {v : Json} {rest : List (String × Json)}
    (hkey : KeyLegible level key.toList) (hv : LegibleAt (level + 1) v)
    (hlegible : LegibleMembers level rest) (hread : Reads handles (level + 1) v)
    (hrest : MembersRead handles level rest) : MembersRead handles level ((key, v) :: rest) := by
  intro _ count t hbelow line fuel hfuel
  obtain ⟨fuel, rfl⟩ : ∃ k, fuel = k + 3 := ⟨fuel - 3, by omega⟩
  obtain ⟨c, line₁, column₁, fresh₁, hplaced, hskip, hmapping⟩ := mapping_member handles hkey
    hv.stands (membersText level rest ++ (blanks count ++ t)) line
  rw [memberText_eq] at hfuel ⊢
  rw [List.length_append, List.length_cons, List.length_append] at hfuel
  rw [hmapping (fuel + 1), membersOf]
  rcases eq_or_ne rest [] with rfl | hne
  · -- the last member
    rw [membersText, List.nil_append] at hfuel hskip
    obtain ⟨after, hnode, -, line', hafter⟩ := hread hbelow.succ true c hplaced hskip (fuel + 1)
      (by omega)
    rw [floorOf_succ] at hnode
    exact ⟨line', Collection.value_last hnode hafter (hbelow.not_entry line')⟩
  · obtain ⟨⟨key', w⟩, more, rfl⟩ := List.exists_cons_of_ne_nil hne
    rw [LegibleMembers, MemberTexts] at hlegible
    rw [membersText_cons, List.append_assoc] at hfuel hskip
    have hover : (Cursor.landing (nodeText level (.obj ((key', w) :: more)) ++ (blanks count ++ t))
        line₁ (2 * level)).isOver = false := by
      rw [memberText_eq]
      exact key_not_isOver hlegible.1 _ line₁
    obtain ⟨after, hnode, -, line₂, hafter⟩ := hread (below_member hlegible.1.stands _) true c
      hplaced hskip (fuel + 1) (by omega)
    rw [floorOf_succ] at hnode
    rw [List.length_append, List.length_append] at hfuel
    obtain ⟨line', hmembers⟩ := hrest hne hbelow line₂ fuel (by omega)
    refine ⟨line', ?_⟩
    have hvalue := Collection.value_next (k := .scalar .none (keyStyle key.toList) key) hnode hafter
      hover rfl
    rw [hmembers] at hvalue
    exact hvalue

mutual

/-- **A legible value is read** at every place where it may stand. -/
theorem reads_of_legible : ∀ {level : Nat} {v : Json}, LegibleAt level v → Reads handles level v
  | level, .arr (v :: rest), h => by
    rw [LegibleAt, TextsAt] at h
    exact reads_arr (itemsRead_of_legible h)
  | level, .obj ((key, v) :: rest), h => by
    rw [LegibleAt, TextsAt] at h
    exact reads_obj (by rw [MemberTexts] at h; exact h.1) (membersRead_of_legible h)
  | _, .str _, h => reads_scalar rfl h
  | _, .num _, h => reads_scalar rfl h
  | _, .null, h => reads_scalar rfl h
  | _, .bool _, h => reads_scalar rfl h
  | _, .arr [], h => reads_scalar rfl h
  | _, .obj [], h => reads_scalar rfl h

/-- The items of a legible list are read. -/
theorem itemsRead_of_legible : ∀ {level : Nat} {items : List Json}, LegibleItems level items →
    ItemsRead handles level items
  | _, [], _ => fun h => absurd rfl h
  | level, v :: rest, h => by
    rw [LegibleItems, ItemTexts] at h
    exact itemsRead_cons h.1 (reads_of_legible h.1) (itemsRead_of_legible h.2)

/-- The members of a legible map are read. -/
theorem membersRead_of_legible : ∀ {level : Nat} {members : List (String × Json)},
    LegibleMembers level members → MembersRead handles level members
  | _, [], _ => fun h => absurd rfl h
  | level, (key, v) :: rest, h => by
    rw [LegibleMembers, MemberTexts] at h
    exact membersRead_cons h.1 h.2.1 h.2.2 (reads_of_legible h.2.1) (membersRead_of_legible h.2.2)

end

end Entries

end OntologyCompiler.Yaml
