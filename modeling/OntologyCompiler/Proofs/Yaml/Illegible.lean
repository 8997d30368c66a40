import OntologyCompiler.Proofs.Yaml.Document

/-!
# Values that are not read

Where the texts of a value have none of the characters that end a line for the reader alone, a value
that is not legible is not read at all: the reader finds a character that is not allowed, a bracket
that it cannot take for a text, a key that is too long, the end of the document in front of a key,
or lists and maps that are nested too deep.

* `IsCommon`: texts without such characters.
* `fails_of_illegible`: a value with a text that is not legible is not read, by induction on the
  value.
* `rootOf?_illegible`: nor is the document of such a value.
-/

namespace OntologyCompiler.Yaml

/-! ## Common texts -/

/-- A text without characters that end a line for the reader alone; without quotes at the start of a
line it has no byte order mark in front. -/
@[mk_iff]
structure IsCommon (level : Nat) (s : List Char) : Prop where
  next : ∀ c ∈ s, c.toNat ≠ 0x85
  line : ∀ c ∈ s, isSeparator c = false
  mark : needsQuotes s = false → level = 0 → s.head? ≠ some byteOrderMark

instance (level : Nat) (s : List Char) : Decidable (IsCommon level s) :=
  decidable_of_iff' _ (isCommon_iff level s)

/-- A common text whose characters are all allowed. -/
structure IsFit (level : Nat) (s : List Char) : Prop extends IsCommon level s where
  allowed : ∀ c ∈ s, Source.isAllowed c = true

section Fit

variable {level : Nat} {s : List Char}

theorem IsFit.stands (h : IsFit level s) : Stands level s :=
  ⟨fun _ c hc => h.line c (List.mem_of_head? hc), h.mark⟩

theorem IsFit.kept (h : IsFit level s) : ∀ c ∈ s, isKept c = true := by
  intro c hc
  simp [isKept, h.allowed c hc, h.next c hc]

/-- The first line with text is the one behind all line ends. -/
theorem find?_splitOn : ∀ {s : List Char}, (∀ c ∈ s, isSeparator c = false) →
    ((s.splitOn '\n').find? fun l => !l.isEmpty).bind List.head? = (s.dropWhile isBreak).head?
  | [], _ => rfl
  | c :: s, h => by
    have ih := find?_splitOn fun d hd => h d (List.mem_cons_of_mem c hd)
    rw [List.splitOn_cons_eq_if_modifyHead]
    by_cases hfeed : c = '\n'
    · subst hfeed
      simpa [isBreak] using ih
    · have hbreak : isBreak c = false := isBreak_eq_false_iff.mpr ⟨hfeed, h c List.mem_cons_self⟩
      obtain ⟨l, ls, hls⟩ := List.exists_cons_of_ne_nil (List.splitOn_ne_nil '\n' s)
      simp [hfeed, hbreak, hls]

theorem blockLegible_of_line (h : ∀ c ∈ s, isSeparator c = false) (hblock : isBlock s = true) :
    BlockLegible s := by
  have hbody : ∀ c ∈ body s, isSeparator c = false := fun c hc =>
    h c (by rw [← Block.body_append s]; exact List.mem_append_left _ hc)
  refine ⟨(List.pairwise_of_forall_mem_list fun a ha b _ hsep => ?_).isChain, fun c hc hsep => ?_,
    fun c hc => ?_⟩
  · rw [h a ha] at hsep
    exact absurd hsep (by decide)
  · rw [hbody c (List.mem_of_getLast? hc)] at hsep
    exact absurd hsep (by decide)
  · -- the first line with text does not start with a blank
    have hfind := find?_splitOn h
    rw [hc] at hfind
    simp only [isBlock, Bool.and_eq_true] at hblock
    have hfirst := hblock.2
    obtain ⟨l, hl, hhead⟩ := Option.bind_eq_some_iff.mp hfind
    rw [hl] at hfirst
    simp only [hhead, Bool.and_eq_true, bne_iff_ne, ne_eq, Option.some.injEq] at hfirst
    simp [isSpacing, hfirst]

/-- What makes a fit text illegible. -/
theorem IsFit.of_not_textLegible (h : IsFit level s) (hnot : ¬ TextLegible level s) :
    isBlock s = false ∧ needsQuotes s = false ∧
      (¬ OpensPlain s ∨ level = 0 ∧ closesDocument s = true) := by
  by_contra hfine
  refine hnot ⟨h.kept, blockLegible_of_line h.line, fun _ _ => .of_line h.line,
    fun hblock hplain hroot => ?_, fun hblock hplain hroot => ?_⟩
  all_goals have hor := not_or.mp fun hor => hfine ⟨hblock, hplain, hor⟩
  · have hquoted := QuotedLegible.of_line h.line
    refine ⟨not_not.mp hor.1, h.mark hplain hroot, by simpa [hroot] using hor.2,
      fun c hc => h.line c (List.mem_of_head? hc), fun c hc => h.line c (List.mem_of_getLast? hc),
      hquoted.apart, isCut_of_line h.line⟩
  · exact ⟨not_not.mp hor.1, h.line⟩

/-- What makes a fit key illegible. -/
theorem IsFit.of_not_keyLegible (h : IsFit level s) (hnot : ¬ KeyLegible level s) :
    Cursor.keyLimit < byteCount (quote s) ∨ needsQuotes s = false ∧
      (¬ OpensPlain s ∨ level = 0 ∧ closesDocument (s ++ [':']) = true) := by
  by_contra hfine
  obtain ⟨hshort, hfine⟩ := not_or.mp hfine
  refine hnot ⟨h.kept, h.line, Nat.not_lt.mp hshort, fun hplain => ?_, fun hplain hroot => ?_⟩
  all_goals have hor := not_or.mp fun hor => hfine ⟨hplain, hor⟩
  · exact not_not.mp hor.1
  · exact ⟨h.mark hplain hroot, by simpa [hroot] using hor.2⟩

/-- A key that is legible or fit. -/
def FitKey (level : Nat) (s : List Char) : Prop :=
  KeyLegible level s ∨ IsFit level s

/-- A text that is legible or fit. -/
def FitText (level : Nat) (s : List Char) : Prop :=
  TextLegible level s ∨ IsFit level s

theorem FitKey.stands (h : FitKey level s) : Stands level s :=
  h.elim KeyLegible.stands IsFit.stands

theorem FitText.stands (h : FitText level s) : Stands level s :=
  h.elim TextLegible.stands IsFit.stands

theorem FitKey.kept (h : FitKey level s) : ∀ c ∈ s, isKept c = true :=
  h.elim KeyLegible.kept IsFit.kept

theorem FitText.kept (h : FitText level s) : ∀ c ∈ s, isKept c = true :=
  h.elim TextLegible.kept IsFit.kept

theorem FitKey.line (h : FitKey level s) : ∀ c ∈ s, isSeparator c = false :=
  h.elim KeyLegible.line fun hfit => hfit.line

end Fit

/-! ## Brackets and keys -/

section Line

variable {handles : Handles} {level : Nat} {c : Cursor} {d : Char} {rest : List Char}

/-- No text starts with a bracket that closes. -/
theorem content_bracket (handles : Handles) (floor : Nat) (hd : d ∈ [']', '}'])
    (hrest : c.rest = d :: rest) : ∀ fuel, Flow.content handles floor fuel c = none
  | 0 => by rw [Flow.content]
  | fuel + 1 => by
    have hne : ∀ e ∈ [']', '}'], e ≠ '[' ∧ e ≠ '{' ∧ e ≠ '*' ∧ e ≠ '|' ∧ e ≠ '>' ∧ e ≠ '"' ∧
        e ≠ Quoted.apostrophe ∧ e ≠ '-' ∧ e ≠ '?' ∧ e ≠ ':' ∧ e ∈ Plain.marks := by decide
    obtain ⟨hbracket, hbrace, halias, hliteral, hfolded, hquote, hapostrophe, hdash, hquestion,
      hcolon, hmark⟩ := hne d hd
    have hblock : Flow.atBlock c = false := by simp [Flow.atBlock, hrest, hliteral, hfolded]
    have hquoted : Quoted.read c = none := by simp [Quoted.read, hrest, hquote, hapostrophe]
    have hplain : Plain.read floor c = none := by
      simp [Plain.read, Plain.starts, hrest, hmark, hdash, hquestion, hcolon]
    rw [content_leaf handles floor fuel (by simpa [hrest] using hbracket)
      (by simpa [hrest] using hbrace), Flow.leaf, if_neg (by simpa [hrest] using halias), hblock,
      if_neg (by decide), hquoted, hplain]
    rfl

namespace Collection

/-- A line that starts with no property and no text is not read. -/
theorem line_of_none {floor fuel : Nat} (hproperty : Property.opens c.rest = false)
    (hcontent : Flow.content handles floor fuel c = none) : line handles fuel floor c = none := by
  have hread : Property.read handles Cursor.skipBlanks c = some (.none, c) := by
    simp [Property.read, hproperty]
  have hnone : (Properties.none : Properties String).isNone = true := rfl
  simp [line, hread, hcontent, hnone]

theorem mapping_of_none {column fuel : Nat} (hfresh : c.fresh = true)
    (hquestion : c.atMark '?' = false) (hline : line handles fuel (column + 1) c = none) :
    mapping handles (fuel + 1) column c = none := by
  rw [mapping]
  simp [hfresh, hquestion, hline]

end Collection

/-- A fit key that is not legible is not read as one, unless it closes the document. -/
theorem line_illegible {key : String} (h : IsFit level key.toList)
    (hnot : ¬ KeyLegible level key.toList)
    {more : List Char}
    (hopen : level = 0 → isDocumentMark (quote key.toList ++ ':' :: more) = false)
    (hmore : opensGap more = true) (floor fuel line : Nat) :
    Collection.line handles fuel floor
      (.landing (quote key.toList ++ ':' :: more) line (2 * level)) = none := by
  have hopening := opening_key h.stands (':' :: more)
  by_cases hplain : needsQuotes key.toList = false ∧ ¬ OpensPlain key.toList
  · obtain ⟨d, rest, hkey, hd⟩ := exists_bracket hplain.2
    refine Collection.line_of_none hopening.property ?_
    rw [quote_plain hplain.1, hkey]
    exact content_bracket handles floor hd rfl fuel
  -- the key is a text, but a long one
  have hopens : needsQuotes key.toList = false → OpensPlain key.toList := fun hbare =>
    not_not.mp fun hbracket => hplain ⟨hbare, hbracket⟩
  have hlong : Cursor.keyLimit < byteCount (quote key.toList) := by
    refine (h.of_not_keyLegible hnot).resolve_right fun hbare => ?_
    rcases hbare.2 with hbracket | ⟨hroot, hcloses⟩
    · exact hbracket (hopens hbare.1)
    · have hmark := hopen hroot
      rw [isDocumentMark_quote, hbare.1, hcloses] at hmark
      exact absurd hmark (by decide)
  rcases fuel with _ | fuel
  · exact Collection.line_of_none hopening.property (by rw [Flow.content])
  have hcontent := content_key handles h.line hopens hmore floor fuel line (2 * level) true
  have hblanks : (⟨':' :: more, line, 2 * level + (quote key.toList).length, false, 0⟩ :
      Cursor).skipBlanks = ⟨':' :: more, line, 2 * level + (quote key.toList).length, false, 0⟩ :=
    Cursor.skipBlanks_of_head fun e he => by
      cases he
      decide
  have hspan : (Cursor.landing (quote key.toList ++ ':' :: more) line (2 * level)).spansKey
      ⟨':' :: more, line, 2 * level + (quote key.toList).length, false, 0⟩ = false := by
    simpa [Cursor.spansKey, Cursor.bytesTo, Cursor.landing, byteCount] using hlong
  have hline := Collection.line_of_content
    (c := .landing (quote key.toList ++ ':' :: more) line (2 * level)) hopening.property hcontent
  rw [hline]
  simp [hblanks, Cursor.atMark, hmore, hspan]

end Line

/-! ## Values -/

/-- Nothing is read, or a document that goes on where it should be done. -/
def Spoiled {α : Type} (level : Nat) (r : Option (α × Cursor)) : Prop :=
  ∀ n after, r = some (n, after) → level = 0 ∧ ∀ fuel, Document.isDone fuel after = false

section Spoiled

variable {α β : Type} {level : Nat} {r : Option (α × Cursor)}

theorem Spoiled.none : Spoiled level (.none : Option (α × Cursor)) :=
  fun _ _ h => nomatch h

theorem Spoiled.eq_none (h : Spoiled (level + 1) r) : r = .none := by
  rcases r with _ | ⟨n, after⟩
  · rfl
  · exact absurd (h n after rfl).1 (Nat.succ_ne_zero level)

theorem Spoiled.map (h : Spoiled level r) (f : α → β) :
    Spoiled level (r.map fun p => (f p.1, p.2)) := by
  intro n after heq
  obtain ⟨p, hp, hmap⟩ := Option.map_eq_some_iff.mp heq
  obtain ⟨-, rfl⟩ := Prod.mk.inj hmap
  exact h p.1 p.2 hp

end Spoiled

/-- Within a line a gap ends in front of the colon behind it. -/
theorem Cursor.gapEnd_within (more : List Char) (line : Nat) : ∀ {cs : List Char} {column : Nat},
    (∀ c ∈ cs, isBreak c = false ∧ c ≠ '#') → column ≠ 0 →
    (gapEnd 0 (cs ++ ':' :: more) line column false false).rest ≠ [] ∧
      (gapEnd 0 (cs ++ ':' :: more) line column false false).column ≠ 0
  | [], column, _, hcolumn => by
    have hstanding : Standing column (':' :: more) :=
      .entry (by decide) (by decide) (by decide) fun hzero => absurd hzero hcolumn
    rw [List.nil_append, gapEnd_standing hstanding]
    exact ⟨by simp, hcolumn⟩
  | c :: cs, column, h, hcolumn => by
    obtain ⟨hbreak, hcomment⟩ := h c List.mem_cons_self
    have ih := gapEnd_within more line (fun d hd => h d (List.mem_cons_of_mem c hd))
      (Nat.succ_ne_zero column)
    rw [List.cons_append, gapEnd, hbreak, if_neg (by decide), if_neg hcomment]
    split
    · exact ih
    · exact ⟨by simp, hcolumn⟩

/-- A document that a key without quotes closes is not done there: the key goes on. -/
theorem isDone_key {s : List Char} (hplain : needsQuotes s = false)
    (hline : ∀ c ∈ s, isSeparator c = false) (hcloses : closesDocument (s ++ [':']) = true)
    (more : List Char) (line : Nat) : ∀ fuel,
    Document.isDone fuel (.landing (s ++ ':' :: more) line 0) = false
  | 0 => rfl
  | fuel + 1 => by
    obtain ⟨rest, rfl⟩ : ∃ rest, s = '.' :: '.' :: '.' :: rest := by
      rw [closesDocument_eq] at hcloses
      match s, hcloses with
      | [], h | [_], h | [_, _], h => exact absurd h (by simp [opensMark])
      | a :: b :: c :: rest, h =>
        simp only [List.cons_append, opensMark, Bool.and_eq_true, decide_eq_true_eq] at h
        obtain ⟨⟨⟨rfl, rfl⟩, rfl⟩, -⟩ := h
        exact ⟨rest, rfl⟩
    have hrest : ∀ c ∈ rest, isBreak c = false ∧ c ≠ '#' := by
      intro c hc
      have hmem : c ∈ '.' :: '.' :: '.' :: rest := by simp [hc]
      have hnever := (of_unquoted hplain).2.1 c hmem
      simp only [isNeverPlain, List.contains_eq_mem, List.mem_cons, List.not_mem_nil, or_false,
        decide_eq_false_iff_not, not_or] at hnever
      exact ⟨isBreak_eq_false_iff.mpr ⟨hnever.2.2.2.1, hline c hmem⟩, hnever.2.1⟩
    have hstanding : Standing 0 ('.' :: '.' :: '.' :: rest ++ ':' :: more) :=
      .entry (by decide) (by decide) (by decide) fun _ => by decide
    obtain ⟨hne, hcolumn⟩ := Cursor.gapEnd_within more line hrest (Nat.succ_ne_zero 2)
    have hdone : Document.isDone fuel
        ((Cursor.landing ('.' :: '.' :: '.' :: rest ++ ':' :: more) line 0).advance 3) = false := by
      rcases fuel with _ | fuel
      · rfl
      · rw [Document.isDone]
        simp only [Bool.or_eq_false_iff, List.isEmpty_eq_false_iff, Bool.and_eq_false_iff,
          decide_eq_false_iff_not]
        exact ⟨hne, Or.inl (Or.inl hcolumn)⟩
    rw [Document.isDone, Cursor.skipGap_landing hstanding]
    simpa [Cursor.landing] using fun _ => hdone

section Entries

variable (handles : Handles)

/-- No place where a value may stand makes it one that is read, unless the document is over
there. -/
def Fails (level : Nat) (v : Json) : Prop :=
  ∀ {count : Nat} {t : List Char}, Below level count t →
    (level = 0 → isDocumentMark (nodeText level v) = false) →
    ∀ (next : Bool) (c : Cursor) {line column : Nat} {fresh : Bool}, Placed level v column fresh →
    c.skipGap = ⟨nodeText level v ++ (blanks count ++ t), line, column, fresh, 0⟩ →
    ∀ fuel, 5 * (nodeText level v ++ (blanks count ++ t)).length + 5 ≤ fuel →
    Spoiled level (Collection.node handles fuel (floorOf level) next .none c)

/-- The items of a list are not read where the first of them stands. -/
def ItemsFail (level : Nat) (items : List Json) : Prop :=
  ∀ {count : Nat} {t : List Char}, Below level count t → ∀ line fuel : Nat,
    5 * (nodeText level (.arr items) ++ (blanks count ++ t)).length + 3 ≤ fuel →
    Collection.sequence handles fuel (2 * level)
      (.landing (nodeText level (.arr items) ++ (blanks count ++ t)) line (2 * level)) = none

/-- Nor are the members of a map where the key of the first of them stands. -/
def MembersFail (level : Nat) (members : List (String × Json)) : Prop :=
  ∀ {count : Nat} {t : List Char}, Below level count t →
    (level = 0 → isDocumentMark (nodeText level (.obj members)) = false) → ∀ line fuel : Nat,
    5 * (nodeText level (.obj members) ++ (blanks count ++ t)).length + 3 ≤ fuel →
    Spoiled level (Collection.mapping handles fuel (2 * level)
      (.landing (nodeText level (.obj members) ++ (blanks count ++ t)) line (2 * level)))

variable {handles : Handles} {level : Nat}

/-- A text that is not legible is not read. -/
theorem fails_text {s : String} (h : IsFit level s.toList)
    (hnot : ¬ TextLegible level s.toList) : Fails handles level (.str s) := by
  intro count t hbelow hopen next c line column fresh hplaced hskip fuel hfuel
  obtain ⟨hblock, hplain, hor⟩ := h.of_not_textLegible hnot
  have htext : nodeText level (.str s) = s.toList ++ ['\n'] := by
    rw [nodeText, hblock, if_neg (by decide), quote_plain hplain]
  have hbracket : ¬ OpensPlain s.toList := by
    refine hor.resolve_right fun ⟨hroot, hcloses⟩ => ?_
    have hmark := hopen hroot
    rw [htext, isDocumentMark_line, isDocumentMark, hcloses, Bool.or_true] at hmark
    exact absurd hmark (by decide)
  obtain ⟨d, rest, hcons, hd⟩ := exists_bracket hbracket
  have hchars : ∀ e ∈ [']', '}'], e ∈ ['"', '|', '[', ']', '{', '}'] ∧ e ≠ '-' ∧ e ≠ '.' := by
    decide
  obtain ⟨hmem, hdash, hdot⟩ := hchars d hd
  rw [htext, hcons, List.append_assoc, List.cons_append] at hskip
  have hopening : Opening column (d :: (rest ++ (['\n'] ++ (blanks count ++ t)))) :=
    .of_char column hmem _
  have hentry := hopening.entry ⟨_, line, column, fresh, 0⟩ rfl
  have hover := Cursor.not_isOver (c := ⟨_, line, column, fresh, 0⟩) hopening.ne_nil
    fun _ => isDocumentMark_of_ne hdash hdot _
  obtain ⟨fuel, rfl⟩ : ∃ k, fuel = k + 1 := ⟨fuel - 1, by omega⟩
  rw [Collection.node_of_line hskip hover hplaced.deep hentry.1 hentry.2,
    Collection.line_of_none hopening.property (content_bracket handles _ hd rfl fuel)]
  exact Spoiled.none

theorem fails_arr {v : Json} {rest : List Json} (h : ItemsFail handles level (v :: rest)) :
    Fails handles level (.arr (v :: rest)) := by
  intro count t hbelow _ next c line column fresh hplaced hskip fuel hfuel
  obtain ⟨fuel, rfl⟩ : ∃ k, fuel = k + 1 := ⟨fuel - 1, by omega⟩
  obtain ⟨rfl, rfl⟩ := hplaced.aligned rfl
  have hplace : c.skipGap = .landing (nodeText level (.arr (v :: rest)) ++ (blanks count ++ t)) line
      (2 * level) := hskip
  rw [Collection.node_of_sequence hplace (dash_not_isOver v rest _ line _) hplaced.deep
    (dash_atMark v rest _ line _) rfl]
  have hitems : Collection.sequence handles fuel _ _ = none := h hbelow line fuel (by omega)
  rw [show (Cursor.landing (nodeText level (.arr (v :: rest)) ++ (blanks count ++ t)) line
    (2 * level)).column = 2 * level from rfl, hitems]
  exact Spoiled.none

/-- A map that is no mark of documents does not open with one at its first key either. -/
theorem exists_opening {key : String} {v : Json} {rest : List (String × Json)} {count : Nat}
    {t : List Char} (hbelow : Below level count t)
    (hopen : level = 0 → isDocumentMark (nodeText level (.obj ((key, v) :: rest))) = false) :
    ∃ more, nodeText level (.obj ((key, v) :: rest)) ++ (blanks count ++ t) =
        quote key.toList ++ ':' :: (lead (level + 1) v ++ more) ∧
      (level = 0 →
        isDocumentMark (quote key.toList ++ ':' :: (lead (level + 1) v ++ more)) = false) := by
  obtain ⟨more, hmore⟩ := exists_value key v rest level (blanks count ++ t)
  refine ⟨more, hmore, ?_⟩
  rintro rfl
  obtain ⟨rfl, rfl⟩ := hbelow.eq_nil
  rw [← hmore]
  simpa [blanks] using hopen rfl

theorem fails_obj {key : String} {v : Json} {rest : List (String × Json)}
    (hkey : FitKey level key.toList) (h : MembersFail handles level ((key, v) :: rest)) :
    Fails handles level (.obj ((key, v) :: rest)) := by
  intro count t hbelow hopen next c line column fresh hplaced hskip fuel hfuel
  obtain ⟨fuel, rfl⟩ : ∃ k, fuel = k + 2 := ⟨fuel - 2, by omega⟩
  obtain ⟨rfl, rfl⟩ := hplaced.aligned rfl
  have hmembers := h hbelow hopen line (fuel + 1) (by omega)
  obtain ⟨more, hmore, hmark⟩ := exists_opening hbelow hopen
  rw [hmore] at hskip hmembers
  have hopening := opening_key hkey.stands (':' :: (lead (level + 1) v ++ more))
  obtain ⟨hdash, hquestion⟩ := hopening.entry (.landing _ line (2 * level)) rfl
  have hover : (Cursor.landing (quote key.toList ++ ':' :: (lead (level + 1) v ++ more)) line
      (2 * level)).isOver = false :=
    Cursor.not_isOver hopening.ne_nil fun hzero =>
      hmark (by simp only [Cursor.landing] at hzero; omega)
  have hplace : c.skipGap = .landing (quote key.toList ++ ':' :: (lead (level + 1) v ++ more)) line
      (2 * level) := hskip
  rw [Collection.node_of_line hplace hover hplaced.deep hdash hquestion]
  by_cases hlegible : KeyLegible level key.toList
  · rw [line_key handles hlegible v more (floorOf level) fuel line]
    exact hmembers.map (Node.mapping Properties.none)
  · rw [line_illegible (hkey.resolve_left hlegible) hlegible hmark (opensGap_lead _ _ _)]
    exact Spoiled.none

/-- What stands behind an item is below it. -/
theorem exists_below_items {count : Nat} {t : List Char} (h : Below level count t)
    (rest : List Json) : ∃ count' t', itemsText level rest ++ (blanks count ++ t) =
      blanks count' ++ t' ∧ Below (level + 1) count' t' := by
  rcases rest with _ | ⟨w, more⟩
  · exact ⟨count, t, by rw [itemsText, List.nil_append], h.succ⟩
  · refine ⟨2 * level, nodeText level (.arr (w :: more)) ++ (blanks count ++ t), ?_, ?_,
      fun _ => Nat.lt_succ_self (2 * level)⟩
    · rw [itemsText_cons, List.append_assoc]
    · rw [nodeText]
      exact Standing.entry (by decide) (by decide) (by decide) fun _ => by decide

/-- What stands behind the value of a member is below it. -/
theorem exists_below_members {count : Nat} {t : List Char} (h : Below level count t)
    {rest : List (String × Json)} (hrest : MemberTexts Stands Stands level rest) :
    ∃ count' t', membersText level rest ++ (blanks count ++ t) = blanks count' ++ t' ∧
      Below (level + 1) count' t' := by
  rcases rest with _ | ⟨⟨key, w⟩, more⟩
  · exact ⟨count, t, by rw [membersText, List.nil_append], h.succ⟩
  · rw [MemberTexts] at hrest
    exact ⟨_, _, by rw [membersText_cons, List.append_assoc], below_member hrest.1 _⟩

theorem itemsFail_head {v : Json} {rest : List Json} (hv : TextsAt Stands Stands (level + 1) v)
    (h : Fails handles (level + 1) v) : ItemsFail handles level (v :: rest) := by
  intro count t hbelow line fuel hfuel
  obtain ⟨fuel, rfl⟩ : ∃ k, fuel = k + 1 := ⟨fuel - 1, by omega⟩
  obtain ⟨count', t', htext, hbelow'⟩ := exists_below_items hbelow rest
  have hform : nodeText level (.arr (v :: rest)) ++ (blanks count ++ t) =
      '-' :: ' ' :: (nodeText (level + 1) v ++ (blanks count' ++ t')) := by
    rw [nodeText, ← htext]
    simp
  rw [hform] at hfuel ⊢
  simp only [List.length_cons] at hfuel
  obtain ⟨hplaced, hskip⟩ := skipGap_dash hv (blanks count' ++ t') line
  have hnode := h hbelow' (fun hzero => nomatch hzero) false _ hplaced hskip fuel (by omega)
  rw [floorOf_succ] at hnode
  rw [Collection.sequence, hnode.eq_none]
  rfl

theorem itemsFail_tail {v : Json} {rest : List Json} (hv : LegibleAt (level + 1) v)
    (h : ItemsFail handles level rest) (hne : rest ≠ []) : ItemsFail handles level (v :: rest) := by
  intro count t hbelow line fuel hfuel
  obtain ⟨fuel, rfl⟩ : ∃ k, fuel = k + 1 := ⟨fuel - 1, by omega⟩
  obtain ⟨w, more, rfl⟩ := List.exists_cons_of_ne_nil hne
  have hform : nodeText level (.arr (v :: w :: more)) ++ (blanks count ++ t) = '-' :: ' ' ::
      (nodeText (level + 1) v ++
        (blanks (2 * level) ++ (nodeText level (.arr (w :: more)) ++ (blanks count ++ t)))) := by
    rw [nodeText, itemsText_cons]
    simp
  rw [hform] at hfuel ⊢
  simp only [List.length_cons, List.length_append] at hfuel
  obtain ⟨hplaced, hskip⟩ := skipGap_dash hv.stands
    (blanks (2 * level) ++ (nodeText level (.arr (w :: more)) ++ (blanks count ++ t))) line
  have hlow : Below (level + 1) (2 * level)
      (nodeText level (.arr (w :: more)) ++ (blanks count ++ t)) :=
    ⟨.entry (by decide) (by decide) (by decide) fun _ => by decide,
      fun _ => Nat.lt_succ_self (2 * level)⟩
  have hread : Reads handles (level + 1) v := reads_of_legible hv
  obtain ⟨after, hnode, -, line', hafter⟩ := hread hlow false _ hplaced hskip fuel
    (by simp only [List.length_append]; omega)
  rw [floorOf_succ] at hnode
  rw [Collection.sequence_next hnode hafter (dash_not_isOver w more _ line' _) rfl rfl
    (dash_atMark w more _ line' _),
    h hbelow line' fuel (by simp only [List.length_append]; omega)]
  rfl

theorem membersFail_key {key : String} {v : Json} {rest : List (String × Json)}
    (h : IsFit level key.toList) (hnot : ¬ KeyLegible level key.toList) :
    MembersFail handles level ((key, v) :: rest) := by
  intro count t hbelow hopen line fuel hfuel
  obtain ⟨fuel, rfl⟩ : ∃ k, fuel = k + 1 := ⟨fuel - 1, by omega⟩
  obtain ⟨more, hmore, hmark⟩ := exists_opening hbelow hopen
  rw [hmore]
  have hquestion := ((opening_key h.stands (':' :: (lead (level + 1) v ++ more))).entry
    (.landing _ line (2 * level)) rfl).2
  have hline : Collection.line handles fuel (2 * level + 1) _ = none :=
    line_illegible h hnot hmark (opensGap_lead _ v more) (2 * level + 1) fuel line
  rw [Collection.mapping_of_none rfl hquestion hline]
  exact Spoiled.none

theorem membersFail_value {key : String} {v : Json} {rest : List (String × Json)}
    (hkey : KeyLegible level key.toList) (hv : TextsAt Stands Stands (level + 1) v)
    (hrest : MemberTexts Stands Stands level rest) (h : Fails handles (level + 1) v) :
    MembersFail handles level ((key, v) :: rest) := by
  intro count t hbelow hopen line fuel hfuel
  obtain ⟨fuel, rfl⟩ : ∃ k, fuel = k + 2 := ⟨fuel - 2, by omega⟩
  obtain ⟨count', t', htext, hbelow'⟩ := exists_below_members hbelow hrest
  rw [memberText_eq, htext] at hfuel ⊢
  rw [List.length_append, List.length_cons, List.length_append] at hfuel
  obtain ⟨c, line', column', fresh', hplaced, hskip, hmapping⟩ :=
    mapping_member handles hkey hv (blanks count' ++ t') line
  have hnode := h hbelow' (fun hzero => nomatch hzero) true c hplaced hskip fuel (by omega)
  rw [floorOf_succ] at hnode
  rw [hmapping fuel, Collection.value, hnode.eq_none]
  exact Spoiled.none

theorem membersFail_rest {key : String} {v : Json} {rest : List (String × Json)}
    (hkey : KeyLegible level key.toList) (hv : LegibleAt (level + 1) v)
    (hrest : MemberTexts FitKey FitText level rest) (h : MembersFail handles level rest)
    (hne : rest ≠ []) : MembersFail handles level ((key, v) :: rest) := by
  intro count t hbelow hopen line fuel hfuel
  obtain ⟨fuel, rfl⟩ : ∃ k, fuel = k + 3 := ⟨fuel - 3, by omega⟩
  obtain ⟨⟨key', w⟩, more, rfl⟩ := List.exists_cons_of_ne_nil hne
  rw [MemberTexts] at hrest
  have htext : membersText level ((key', w) :: more) ++ (blanks count ++ t) = blanks (2 * level) ++
      (nodeText level (.obj ((key', w) :: more)) ++ (blanks count ++ t)) := by
    rw [membersText_cons, List.append_assoc]
  rw [memberText_eq, htext] at hfuel ⊢
  simp only [List.length_append, List.length_cons] at hfuel
  obtain ⟨c, line₁, column₁, fresh₁, hplaced, hskip, hmapping⟩ := mapping_member handles hkey
    hv.stands (blanks (2 * level) ++ (nodeText level (.obj ((key', w) :: more)) ++
      (blanks count ++ t))) line
  have hread : Reads handles (level + 1) v := reads_of_legible hv
  obtain ⟨after, hnode, -, line₂, hafter⟩ := hread (below_member hrest.1.stands _) true c hplaced
    hskip (fuel + 1) (by simp only [List.length_append]; omega)
  rw [floorOf_succ] at hnode
  rw [hmapping (fuel + 1)]
  obtain ⟨cs, hcs⟩ := exists_value key' w more level (blanks count ++ t)
  by_cases hover : level = 0 ∧ isDocumentMark
      (nodeText level (.obj ((key', w) :: more)) ++ (blanks count ++ t)) = true
  · -- the next key closes the document
    obtain ⟨rfl, hmark⟩ := hover
    have hend : (Cursor.landing (nodeText 0 (.obj ((key', w) :: more)) ++ (blanks count ++ t)) line₂
        (2 * 0)).isOver = true := by
      simpa [Cursor.isOver, Cursor.landing, isDocumentMark] using Or.inr hmark
    rw [Collection.value_last hnode hafter (Or.inl hend)]
    rintro n place ⟨⟩
    rw [hcs, isDocumentMark_quote, Bool.and_eq_true, Bool.not_eq_true'] at hmark
    rw [hcs, quote_plain hmark.1]
    exact ⟨rfl, isDone_key hmark.1 hrest.1.line hmark.2 _ line₂⟩
  · have hnext : level = 0 → isDocumentMark
        (nodeText level (.obj ((key', w) :: more)) ++ (blanks count ++ t)) = false := by
      simpa using hover
    have hend : (Cursor.landing (nodeText level (.obj ((key', w) :: more)) ++ (blanks count ++ t))
        line₂ (2 * level)).isOver = false :=
      Cursor.not_isOver (by simp [Cursor.landing, hcs])
        fun hzero => hnext (by simp only [Cursor.landing] at hzero; omega)
    rw [Collection.value_next hnode hafter hend rfl]
    refine (h hbelow ?_ line₂ fuel ?_).map _
    · rintro rfl
      obtain ⟨rfl, rfl⟩ := hbelow.eq_nil
      simpa [blanks] using hnext rfl
    · simp only [List.length_append]
      omega

mutual

/-- **A value with a fit text that is not legible is not read.** -/
theorem fails_of_illegible : ∀ {level : Nat} {v : Json}, TextsAt FitKey FitText level v →
    ¬ LegibleAt level v → Fails handles level v
  | level, .arr (v :: rest), h, hnot => by
    rw [TextsAt] at h
    rw [LegibleAt, TextsAt] at hnot
    exact fails_arr (itemsFail_of_illegible h hnot)
  | level, .obj ((key, v) :: rest), h, hnot => by
    rw [TextsAt] at h
    rw [LegibleAt, TextsAt] at hnot
    exact fails_obj (by rw [MemberTexts] at h; exact h.1) (membersFail_of_illegible h hnot)
  | level, .str s, h, hnot => by
    rw [TextsAt] at h
    rw [LegibleAt, TextsAt] at hnot
    exact fails_text (h.resolve_left hnot) hnot
  | _, .num _, _, hnot | _, .null, _, hnot | _, .bool _, _, hnot => by
    rw [LegibleAt, TextsAt] at hnot
    · exact absurd trivial hnot
    all_goals simp
  | _, .arr [], _, hnot => by
    rw [LegibleAt, TextsAt, ItemTexts] at hnot
    exact absurd trivial hnot
  | _, .obj [], _, hnot => by
    rw [LegibleAt, TextsAt, MemberTexts] at hnot
    exact absurd trivial hnot

theorem itemsFail_of_illegible : ∀ {level : Nat} {items : List Json},
    ItemTexts FitKey FitText level items → ¬ LegibleItems level items →
      ItemsFail handles level items
  | _, [], _, hnot => by
    rw [LegibleItems, ItemTexts] at hnot
    exact absurd trivial hnot
  | level, v :: rest, h, hnot => by
    rw [ItemTexts] at h
    by_cases hv : LegibleAt (level + 1) v
    · have hrest : ¬ LegibleItems level rest := fun hrest => hnot <| by
        rw [LegibleItems, ItemTexts]
        exact ⟨hv, hrest⟩
      refine itemsFail_tail hv (itemsFail_of_illegible h.2 hrest) ?_
      rintro rfl
      exact hrest (by rw [LegibleItems, ItemTexts]; trivial)
    · exact itemsFail_head (h.1.imp (fun _ _ => FitKey.stands) fun _ _ => FitText.stands)
        (fails_of_illegible h.1 hv)

theorem membersFail_of_illegible : ∀ {level : Nat} {members : List (String × Json)},
    MemberTexts FitKey FitText level members → ¬ LegibleMembers level members →
    MembersFail handles level members
  | _, [], _, hnot => by
    rw [LegibleMembers, MemberTexts] at hnot
    exact absurd trivial hnot
  | level, (key, v) :: rest, h, hnot => by
    rw [MemberTexts] at h
    by_cases hkey : KeyLegible level key.toList
    · by_cases hv : LegibleAt (level + 1) v
      · have hrest : ¬ LegibleMembers level rest := fun hrest => hnot <| by
          rw [LegibleMembers, MemberTexts]
          exact ⟨hkey, hv, hrest⟩
        refine membersFail_rest hkey hv h.2.2 (membersFail_of_illegible h.2.2 hrest) ?_
        rintro rfl
        exact hrest (by rw [LegibleMembers, MemberTexts]; trivial)
      · exact membersFail_value hkey
          (h.2.1.imp (fun _ _ => FitKey.stands) fun _ _ => FitText.stands)
          (MemberTexts.imp (fun _ _ => FitKey.stands) (fun _ _ => FitText.stands) h.2.2)
          (fails_of_illegible h.2.1 hv)
    · exact membersFail_key (h.1.resolve_left hkey) hkey

end

end Entries

/-! ## Documents -/

theorem opensDocument_quote (s more : List Char) : opensDocument (quote s ++ more) = false := by
  rw [quote, opensDocument_eq]
  by_cases hquoted : needsQuotes s = true
  · rw [if_pos hquoted]
    exact opensMark_of_ne (by decide) _
  · obtain ⟨hne, -, hfirst, -⟩ := of_unquoted (s := s) (by simpa using hquoted)
    obtain ⟨c, rest, rfl⟩ := List.exists_cons_of_ne_nil hne
    rw [if_neg hquoted]
    refine opensMark_of_ne ?_ _
    rintro rfl
    exact absurd (hfirst '-' rfl) (by decide)

/-- A document that was written does not start with the mark in front of one. -/
theorem opensDocument_nodeText (level : Nat) : ∀ v : Json,
    opensDocument (nodeText level v) = false
  | .obj ((key, v) :: rest) => by
    rw [nodeText, List.append_assoc]
    exact opensDocument_quote _ _
  | .arr (v :: rest) => by
    have hdash := isDocumentMark_dash level v rest []
    rw [List.append_nil, isDocumentMark, Bool.or_eq_false_iff] at hdash
    exact hdash.1
  | .str s => by
    rw [nodeText]
    split
    · unfold Block.written blockMark
      split <;> exact opensDocument_eq _ ▸ opensMark_of_ne (by decide) _
    · exact opensDocument_quote _ _
  | .num n => by
    rw [nodeText]
    · exact (Bool.or_eq_false_iff.mp (isDocumentMark_digits n ['\n'])).1
    all_goals simp
  | .null | .bool true | .bool false | .arr [] | .obj [] =>
    opensDocument_eq _ ▸ opensMark_of_ne (by decide) _

namespace Document

/-- A document that is closed at its start is not read. -/
theorem rootOf?_closes {cs : List Char} (h : closesDocument cs = true) : rootOf? cs = none := by
  obtain ⟨rest, rfl⟩ : ∃ rest, cs = '.' :: rest := by
    cases cs with
    | nil => exact absurd h (by decide)
    | cons c rest =>
      by_cases hdot : c = '.'
      · exact ⟨rest, hdot ▸ rfl⟩
      · rw [closesDocument_eq, opensMark_of_ne hdot] at h
        exact absurd h (by decide)
  have hstanding : Standing 0 ('.' :: rest) :=
    .entry (by decide) (by decide) (by decide) fun _ => by decide
  have hstart : (Cursor.start ('.' :: rest)).skipGap = .landing ('.' :: rest) 0 0 :=
    Cursor.skipGap_landing hstanding 0
  have hdirective : ('.' :: rest).head? ≠ some '%' := by simp
  have hopens : opensDocument (Cursor.landing ('.' :: rest) 0 0).rest = false :=
    opensDocument_eq _ ▸ opensMark_of_ne (by decide) _
  have hover : (Cursor.landing ('.' :: rest) 0 0).isOver = true := by
    simp [Cursor.isOver, Cursor.landing, h]
  have hempty : (Cursor.landing ('.' :: rest) 0 0).rest.isEmpty = false := rfl
  simp [rootOf?, hstart, hempty, read_directives hdirective, hopens, hover]

end Document

/-- **The root of a document with an illegible text** is not read. -/
theorem rootOf?_illegible {v : Json} (h : TextsAt FitKey FitText 0 v) (hnot : ¬ LegibleAt 0 v) :
    Document.rootOf? (nodeText 0 v) = none := by
  by_cases hcloses : closesDocument (nodeText 0 v) = true
  · exact Document.rootOf?_closes hcloses
  have hmark : isDocumentMark (nodeText 0 v) = false := by
    rw [isDocumentMark, opensDocument_nodeText, Bool.false_or]
    simpa using hcloses
  have hbegins := begins_nodeText (h.imp (fun _ _ => FitKey.stands) fun _ _ => FitText.stands) hmark
  obtain ⟨hplaced, hskip⟩ := placed_root hbegins
  have hfails : Fails [] 0 v := fails_of_illegible h hnot
  have hspoiled := hfails ⟨.ended, fun hne => absurd rfl hne⟩ (fun _ => hmark) false _ hplaced hskip
    (Document.fuelFor (nodeText 0 v)) (by simp [Document.fuelFor, blanks])
  rw [floorOf_zero] at hspoiled
  rw [Document.rootOf?_begins hbegins]
  rcases hnode : Collection.node [] (Document.fuelFor (nodeText 0 v)) 0 false .none
      (.landing (nodeText 0 v) 0 0) with _ | ⟨n, after⟩
  · rfl
  · simp [(hspoiled n after hnode).2]

/-! ## Characters that are not allowed -/

/-- All characters of a text are allowed, at whatever level it stands. -/
def Allowed (_ : Nat) (s : List Char) : Prop :=
  ∀ c ∈ s, Source.isAllowed c = true

theorem allowed_of_quote {s : List Char} (h : ∀ c ∈ quote s, Source.isAllowed c = true) :
    ∀ c ∈ s, Source.isAllowed c = true := by
  intro c hc
  rw [quote] at h
  split at h
  · rcases Quoted.escapedChar_cases c with ⟨l, hl, -⟩ | ⟨-, hesc⟩
    · have hletters : ∀ p ∈ Quoted.letters, Source.isAllowed p.1 = true := by decide
      exact hletters (c, l) hl
    · refine h c (List.mem_append_left _ (List.mem_cons_of_mem _ ?_))
      exact List.mem_flatMap.mpr ⟨c, hc, by simp [hesc]⟩
  · exact h c hc

theorem allowed_of_written {s : List Char} {level : Nat}
    (h : ∀ c ∈ Block.written s level, Source.isAllowed c = true) :
    ∀ c ∈ s, Source.isAllowed c = true := by
  intro c hc
  by_cases hfeed : c = '\n'
  · rw [hfeed]
    decide
  have hbody : c ∈ body s := by
    rw [← Block.body_append s, List.mem_append] at hc
    exact hc.resolve_right fun hend => hfeed (List.eq_of_mem_replicate hend)
  have hlines : c ∈ unlines ((body s).splitOn '\n') := by
    rw [Block.unlines_splitOn]
    exact List.mem_append_left _ hbody
  obtain ⟨l, hl, hmem⟩ := List.mem_flatMap.mp hlines
  have hmem' : c ∈ l := (List.mem_append.mp hmem).resolve_right (by simpa using hfeed)
  refine h c (List.mem_append_right _ (List.mem_cons_of_mem _ (List.mem_append_left _ ?_)))
  refine List.mem_flatMap.mpr ⟨l, hl, ?_⟩
  have hne : l.isEmpty = false := List.isEmpty_eq_false_iff.mpr (List.ne_nil_of_mem hmem')
  simp [Block.shown, hne, hmem']

mutual

/-- The characters of the texts are among those of the document. -/
theorem allowed_nodeText : ∀ {level : Nat} {v : Json},
    (∀ c ∈ nodeText level v, Source.isAllowed c = true) → TextsAt Allowed Allowed level v
  | level, .obj ((key, v) :: rest), h => by
    rw [nodeText] at h
    rw [TextsAt, MemberTexts]
    simp only [List.mem_append, List.mem_cons, or_imp, forall_and] at h
    exact ⟨allowed_of_quote h.1.1, allowed_nodeText h.1.2.2.2, allowed_membersText h.2⟩
  | level, .arr (v :: rest), h => by
    rw [nodeText] at h
    rw [TextsAt, ItemTexts]
    simp only [List.mem_append, List.mem_cons, or_imp, forall_and] at h
    exact ⟨allowed_nodeText h.1.2.2, allowed_itemsText h.2⟩
  | level, .str s, h => by
    rw [nodeText] at h
    rw [TextsAt]
    split at h
    · exact allowed_of_written h
    · exact allowed_of_quote fun c hc => h c (List.mem_append_left _ hc)
  | _, .num _, _ | _, .null, _ | _, .bool _, _ => by
    rw [TextsAt]
    · trivial
    all_goals simp
  | _, .arr [], _ => by
    rw [TextsAt, ItemTexts]
    trivial
  | _, .obj [], _ => by
    rw [TextsAt, MemberTexts]
    trivial

theorem allowed_itemsText : ∀ {level : Nat} {items : List Json},
    (∀ c ∈ itemsText level items, Source.isAllowed c = true) → ItemTexts Allowed Allowed level items
  | _, [], _ => by
    rw [ItemTexts]
    trivial
  | level, v :: rest, h => by
    rw [itemsText] at h
    rw [ItemTexts]
    simp only [List.mem_append, List.mem_cons, or_imp, forall_and] at h
    exact ⟨allowed_nodeText h.2.1.2.2, allowed_itemsText h.2.2⟩

theorem allowed_membersText : ∀ {level : Nat} {members : List (String × Json)},
    (∀ c ∈ membersText level members, Source.isAllowed c = true) →
    MemberTexts Allowed Allowed level members
  | _, [], _ => by
    rw [MemberTexts]
    trivial
  | level, (key, v) :: rest, h => by
    rw [membersText] at h
    rw [MemberTexts]
    simp only [List.mem_append, List.mem_cons, or_imp, forall_and] at h
    exact ⟨allowed_of_quote h.2.1.1, allowed_nodeText h.2.1.2.2.2, allowed_membersText h.2.2⟩

end

/-- A value all texts of which are common, unless they are legible. -/
def Common (v : Json) : Prop :=
  TextsAt (fun level s => KeyLegible level s ∨ IsCommon level s)
    (fun level s => TextLegible level s ∨ IsCommon level s) 0 v

instance (v : Json) : Decidable (Common v) := by
  unfold Common; infer_instance

/-- **The document of a common value with an illegible text** is not read. -/
theorem ofText?_illegible {v : Json} (h : Common v) (hnot : ¬ LegibleAt 0 v) :
    Document.ofText? (write v) = none := by
  by_cases hall : ∀ c ∈ nodeText 0 v, Source.isAllowed c = true
  · have hfit : TextsAt FitKey FitText 0 v :=
      (TextsAt.and h (allowed_nodeText hall)).imp
        (fun _ _ hs => hs.1.imp_right fun hcommon => ⟨hcommon, hs.2⟩)
        fun _ _ hs => hs.1.imp_right fun hcommon => ⟨hcommon, hs.2⟩
    rw [ofText?_kept (hfit.imp (fun _ _ => FitKey.kept) fun _ _ => FitText.kept),
      rootOf?_illegible hfit hnot]
    rfl
  · have hchars : Source.chars? (write v) = none := by
      rw [Source.chars?, toList_write, if_neg]
      rwa [List.all_eq_true]
    rw [Document.ofText?, hchars]
    rfl

end OntologyCompiler.Yaml
