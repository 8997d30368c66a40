import OntologyCompiler.Proofs.Yaml.Core
import OntologyCompiler.Proofs.Yaml.Layout
import OntologyCompiler.Proofs.Yaml.Plain
import OntologyCompiler.Proofs.Yaml.Quoted

/-!
# Reading a value without entries

A value without entries is a text of one of three forms, or a pair of brackets. What is read in its
place is the node that it was written for, and reading goes on at what stands behind it.

* `IsBare`: texts that open no mark of the notation.
* `content_written`: a value without entries.
* `content_key`: the key of a member.
-/

namespace OntologyCompiler.Yaml

open DecimalLiteral

/-! ## How plain texts start -/

/-- Texts that open no mark of the notation. -/
inductive IsBare : List Char → Prop
  | word {c : Char} {rest : List Char} (hmark : c ∉ Plain.marks) (hspacing : isSpacing c = false)
      (hbreak : isBreak c = false) : IsBare (c :: rest)
  | minus {c : Char} {rest : List Char} (hspacing : isSpacing c = false)
      (hbreak : isBreak c = false) : IsBare ('-' :: c :: rest)

namespace IsBare

variable {s : List Char}

theorem starts (h : IsBare s) (more : List Char) : Plain.starts false (s ++ more) = true := by
  cases h with
  | word hmark hspacing hbreak => simp [Plain.starts, opensGap, hmark, hspacing, hbreak]
  | minus hspacing hbreak =>
    have hminus : isSpacing '-' = false ∧ isBreak '-' = false := by decide
    simp [Plain.starts, opensGap, hminus, hspacing, hbreak]

theorem append_ne_nil (h : IsBare s) (more : List Char) : s ++ more ≠ [] := by
  cases h <;> simp

/-- No mark but a minus stands at the front. -/
theorem head_ne (h : IsBare s) (more : List Char) {d : Char} (hd : d ∈ Plain.marks)
    (hminus : d ≠ '-') : (s ++ more).head? ≠ some d := by
  cases h with
  | word hmark =>
    rintro ⟨⟩
    exact hmark hd
  | minus =>
    rintro ⟨⟩
    exact hminus rfl

/-- A minus is followed by something else than a gap. -/
theorem not_atMark (h : IsBare s) {c : Cursor} {more : List Char} (hrest : c.rest = s ++ more)
    {d : Char} (hd : d ∈ Plain.marks) : c.atMark d = false := by
  unfold Cursor.atMark
  rw [hrest]
  cases h with
  | @word e rest hmark =>
    have hne : e ≠ d := by
      rintro rfl
      exact hmark hd
    simp [hne]
  | minus hspacing hbreak => simp [opensGap, hspacing, hbreak]

theorem not_opens (h : IsBare s) (more : List Char) : Property.opens (s ++ more) = false := by
  cases h with
  | @word c rest hmark =>
    have hanchor : c ≠ '&' := by
      rintro rfl
      exact hmark (by decide)
    have htag : c ≠ '!' := by
      rintro rfl
      exact hmark (by decide)
    simp [Property.opens, hanchor, htag]
  | minus => rfl

theorem standing (h : IsBare s) (more : List Char) {column : Nat}
    (hmark : column = 0 → s.head? ≠ some byteOrderMark) : Standing column (s ++ more) := by
  cases h with
  | @word c rest hmarks hspacing hbreak =>
    refine Standing.entry hspacing hbreak ?_ fun hzero heq => hmark hzero (by rw [heq]; rfl)
    rintro rfl
    exact hmarks (by decide)
  | minus => exact Standing.entry (by decide) (by decide) (by decide) fun _ => by decide

end IsBare

/-- What a text without quotes is known not to hold. -/
theorem of_unquoted {s : List Char} (h : needsQuotes s = false) :
    s ≠ [] ∧ (∀ c ∈ s, isNeverPlain c = false) ∧
      (∀ c, s.head? = some c → isNeverFirst c = false) ∧ s.getLast? ≠ some ' ' := by
  simp only [needsQuotes, Bool.or_eq_false_iff] at h
  obtain ⟨⟨⟨⟨⟨hempty, hany⟩, hfirst⟩, hlast⟩, -⟩, -⟩ := h
  refine ⟨by simpa using hempty, fun c hc => ?_, fun c hc => ?_, by simpa using hlast⟩
  · exact Bool.eq_false_iff.mpr (List.any_eq_false.mp hany c hc)
  · simpa [hc] using hfirst

theorem quote_ne_nil (s : List Char) : quote s ≠ [] := by
  rw [quote]
  split
  · simp
  · exact (of_unquoted (by simpa using ‹¬ needsQuotes s = true›)).1

/-- A text that opens no plain one starts with a bracket that closes. -/
theorem exists_bracket {s : List Char} (h : ¬ OpensPlain s) :
    ∃ c rest, s = c :: rest ∧ c ∈ [']', '}'] := by
  rcases s with _ | ⟨c, rest⟩
  · exact absurd ⟨by simp, by simp⟩ h
  · refine ⟨c, rest, rfl, ?_⟩
    by_contra hc
    simp only [List.mem_cons, List.not_mem_nil, or_false, not_or] at hc
    exact h ⟨by simpa using hc.1, by simpa using hc.2⟩

theorem isBare_unquoted {s : List Char} (h : needsQuotes s = false) (hopens : OpensPlain s)
    (hline : ∀ c, s.head? = some c → isSeparator c = false) : IsBare s := by
  obtain ⟨hne, hplain, hfirst, -⟩ := of_unquoted h
  obtain ⟨c, rest, rfl⟩ := List.exists_cons_of_ne_nil hne
  have hc := hplain c List.mem_cons_self
  have hc' := hfirst c rfl
  have hbracket : c ≠ ']' := fun heq => hopens.bracket (by rw [heq]; rfl)
  have hbrace : c ≠ '}' := fun heq => hopens.brace (by rw [heq]; rfl)
  simp only [isNeverPlain, isNeverFirst, List.contains_eq_mem, List.mem_cons, List.not_mem_nil,
    or_false, decide_eq_false_iff_not, not_or] at hc hc'
  refine .word ?_ ?_ ?_
  · simp only [Plain.marks, List.mem_cons, List.not_mem_nil, or_false, not_or]
    simp [hc, hc', hbracket, hbrace]
  · simp [isSpacing, hc, hc']
  · exact isBreak_eq_false_iff.mpr ⟨hc.2.2.2.1, hline c rfl⟩

theorem isLine_unquoted {s : List Char} (h : needsQuotes s = false)
    (hline : ∀ c ∈ s, isSeparator c = false) : Plain.IsLine s := by
  obtain ⟨hne, hplain, -, hlast⟩ := of_unquoted h
  refine ⟨hne, fun c hc => ?_, hlast⟩
  have hc' := hplain c hc
  simp only [isNeverPlain, List.contains_eq_mem, List.mem_cons, List.not_mem_nil, or_false,
    decide_eq_false_iff_not, not_or] at hc'
  have hbreak : isBreak c = false := isBreak_eq_false_iff.mpr ⟨hc'.2.2.2.1, hline c hc⟩
  exact Plain.isInner_iff.mpr ⟨hbreak, hc'.2.2.2.2.2, hc'.1, hc'.2.1⟩

theorem isParagraph_unquoted {s : List Char} (h : needsQuotes s = false) (hroot : RootLegible s) :
    Plain.IsParagraph s := by
  obtain ⟨hne, hplain, -, hlast⟩ := of_unquoted h
  refine ⟨hne, fun c hc => ?_, hlast, hroot.back, hroot.apart, hroot.whole⟩
  have hc' := hplain c hc
  simp only [isNeverPlain, List.contains_eq_mem, List.mem_cons, List.not_mem_nil, or_false,
    decide_eq_false_iff_not, not_or] at hc'
  exact Plain.isWithin_iff.mpr ⟨hc'.2.2.2.1, hc'.2.2.2.2.2, hc'.1, hc'.2.1⟩

/-! ## Numbers -/

/-- A number is a sign and digits, and marks of decimal numbers between them. -/
theorem digits_chars (n : Number) : ∃ negative c rest, n.digits = sign negative ++ c :: rest ∧
    c.isDigit = true ∧ ∀ d ∈ c :: rest, d.isDigit = true ∨ d ∈ ['.', 'e', '+', '-'] := by
  cases n with
  | whole n =>
    obtain ⟨c, rest, hcons, hc⟩ := Core.toDigits_head n.natAbs
    refine ⟨decide (n < 0), c, rest, ?_, hc, fun d hd => Or.inl ?_⟩
    · rw [Number.digits, Core.wholeDigits_eq, hcons]
    · rw [← hcons] at hd
      exact allDigits_toDigits n.natAbs d hd
  | real x =>
    obtain ⟨cs, d, hcs, hwritten, -⟩ := x.exists_written
    obtain ⟨c, rest, rfl, hc⟩ := hwritten.head
    exact ⟨x.negative, c, rest, hcs, hc, Core.written_chars hwritten⟩

theorem ne_of_isDigit {c : Char} (h : c.isDigit = true) {d : Char} (hd : d.isDigit = false) :
    c ≠ d := by
  rintro rfl
  rw [h] at hd
  exact absurd hd (by decide)

theorem isBreak_of_isDigit {c : Char} (h : c.isDigit = true) : isBreak c = false := by
  obtain ⟨hlow, hhigh⟩ := Text.toNat_of_isDigit h
  simp only [isBreak, Bool.or_eq_false_iff, decide_eq_false_iff_not]
  exact ⟨⟨ne_of_isDigit h (by decide), by omega⟩, by omega⟩

theorem isSpacing_of_isDigit {c : Char} (h : c.isDigit = true) : isSpacing c = false := by
  simp [isSpacing, ne_of_isDigit h (d := ' ') (by decide), ne_of_isDigit h (d := '\t') (by decide)]

theorem isLine_digits (n : Number) : Plain.IsLine n.digits := by
  obtain ⟨negative, c, rest, hdigits, -, hall⟩ := digits_chars n
  have hchars : ∀ d ∈ n.digits, d.isDigit = true ∨ d ∈ ['.', 'e', '+', '-'] := by
    intro d hd
    rw [hdigits, List.mem_append] at hd
    refine hd.elim (fun hsign => Or.inr ?_) (hall d)
    cases negative
    · exact absurd hsign List.not_mem_nil
    · rw [List.mem_singleton.mp hsign]
      decide
  refine ⟨by rw [hdigits]; simp, fun d hd => Plain.isInner_iff.mpr ?_, fun hlast => ?_⟩
  · rcases hchars d hd with hdigit | hmark
    · exact ⟨isBreak_of_isDigit hdigit, ne_of_isDigit hdigit (by decide),
        ne_of_isDigit hdigit (by decide), ne_of_isDigit hdigit (by decide)⟩
    · have hmarks : ∀ m ∈ ['.', 'e', '+', '-'],
          isBreak m = false ∧ m ≠ '\t' ∧ m ≠ ':' ∧ m ≠ '#' := by decide
      exact hmarks d hmark
  · exact absurd (hchars ' ' (List.mem_of_getLast? hlast)) (by decide)

theorem isBare_digits (n : Number) : IsBare n.digits := by
  obtain ⟨negative, c, rest, hdigits, hc, -⟩ := digits_chars n
  have hspacing := isSpacing_of_isDigit hc
  have hbreak := isBreak_of_isDigit hc
  rw [hdigits]
  cases negative with
  | true => exact .minus hspacing hbreak
  | false =>
    have hmarks : ∀ m ∈ Plain.marks, m.isDigit = false := by decide
    exact .word (fun hmark => ne_of_isDigit hc (hmarks c hmark) rfl) hspacing hbreak

/-! ## Texts of each form -/

/-- On one line there is no separator whose neighbours matter. -/
theorem QuotedLegible.of_line {s : List Char} (h : ∀ c ∈ s, isSeparator c = false) :
    QuotedLegible s := by
  refine ⟨(List.pairwise_of_forall_mem_list fun a ha b hb => ?_).isChain, isCut_of_line ?_⟩
  · exact ⟨fun hab => by simp [h a ha] at hab, fun hab => by simp [h b hb] at hab⟩
  · intro c hc
    rcases List.mem_append.mp hc with hc | hc
    · obtain ⟨d, hd, hc⟩ := List.mem_flatMap.mp hc
      exact (isBreak_eq_false_iff.mp (Quoted.escapedChar_line (h d hd) hc)).2
    · rw [List.mem_singleton.mp hc]
      decide

section Forms

variable (handles : Handles) (floor fuel : Nat) {c after : Cursor} {s more : List Char}

theorem content_leaf (hbracket : c.rest.head? ≠ some '[') (hbrace : c.rest.head? ≠ some '\x7b') :
    Flow.content handles floor (fuel + 1) c =
      (Flow.leaf floor c).map fun r => (r.1, .just r.2) := by
  rw [Flow.content]
  split
  · exact absurd ‹_› hbracket
  · exact absurd ‹_› hbrace
  · rfl

/-- A text that opens no mark is read as a plain one. -/
theorem leaf_bare (h : IsBare s) (hrest : c.rest = s ++ more) :
    Flow.leaf floor c = (Plain.read floor c).map fun r => (.scalar .none .plain r.1, r.2) := by
  have hhead : ∀ {d : Char}, d ∈ Plain.marks → d ≠ '-' → c.rest.head? ≠ some d := by
    intro d hd hminus
    rw [hrest]
    exact h.head_ne more hd hminus
  have hblock : Flow.atBlock c = false := by
    simp [Flow.atBlock, hhead (d := '|') (by decide) (by decide),
      hhead (d := '>') (by decide) (by decide)]
  have hquoted : Quoted.read c = none := by
    unfold Quoted.read
    split
    · rename_i q rest heq
      rw [if_neg, if_neg]
      · rintro rfl
        exact hhead (d := Quoted.apostrophe) (by decide) (by decide) (by rw [heq]; rfl)
      · rintro rfl
        exact hhead (d := '"') (by decide) (by decide) (by rw [heq]; rfl)
    · rfl
  rw [Flow.leaf, if_neg (hhead (by decide) (by decide)), hblock, if_neg (by decide), hquoted]

theorem content_bare (h : IsBare s) (hrest : c.rest = s ++ more) {text : String}
    (hread : Plain.read floor c = some (text, after)) :
    Flow.content handles floor (fuel + 1) c = some (.scalar .none .plain text, .just after) := by
  rw [content_leaf, leaf_bare floor h hrest, hread]
  · rfl
  · rw [hrest]
    exact h.head_ne more (by decide) (by decide)
  · rw [hrest]
    exact h.head_ne more (by decide) (by decide)

theorem content_quoted (hrest : c.rest = '"' :: more) {text : String}
    (hread : Quoted.read c = some (text, after)) :
    Flow.content handles floor (fuel + 1) c = some (.scalar .none .quoted text, .just after) := by
  have hblock : Flow.atBlock c = false := by simp [Flow.atBlock, hrest]
  have hleaf : Flow.leaf floor c = some (.scalar .none .quoted text, after) := by
    rw [Flow.leaf, if_neg (by simp [hrest]), hblock, if_neg (by decide), hread]
  rw [content_leaf handles floor fuel (by simp [hrest]) (by simp [hrest]), hleaf]
  rfl

theorem content_quotes (h : QuotedLegible s) (line column : Nat) (fresh : Bool) (rest : List Char) :
    Flow.content handles floor (fuel + 1)
        ⟨'"' :: s.flatMap escapedChar ++ ['"'] ++ rest, line, column, fresh, 0⟩ =
      some (.scalar .none .quoted (String.ofList s),
        .just (Quoted.behind rest line (column + 1) s)) := by
  have hform : '"' :: s.flatMap escapedChar ++ ['"'] ++ rest =
      '"' :: (s.flatMap escapedChar ++ '"' :: rest) := by simp
  rw [hform]
  exact content_quoted handles floor fuel rfl (Quoted.read_written h rest line column fresh)

theorem content_block (hdepth : c.depth = 0) (hrest : c.rest = '|' :: more) {text : String}
    (hread : Block.read false floor c = some (text, after)) :
    Flow.content handles floor (fuel + 1) c = some (.scalar .none .literal text, .just after) := by
  have hblock : Flow.atBlock c = true := by simp [Flow.atBlock, Cursor.isEnclosed, hdepth, hrest]
  have hleaf : Flow.leaf floor c = some (.scalar .none .literal text, after) := by
    simp [Flow.leaf, hblock, Flow.block, hrest, hread]
  rw [content_leaf handles floor fuel (by simp [hrest]) (by simp [hrest]), hleaf]
  rfl

/-- Nothing stands between the brackets of an empty list. -/
theorem content_brackets (line column : Nat) (fresh : Bool) (rest : List Char) :
    Flow.content handles floor (fuel + 2) ⟨'[' :: ']' :: rest, line, column, fresh, 0⟩ =
      some (.sequence .none [], .just ⟨rest, line, column + 2, false, 0⟩) := by
  have hgap : (Cursor.enter ⟨'[' :: ']' :: rest, line, column, fresh, 0⟩).skipGap =
      ⟨']' :: rest, line, column + 1, true, 1⟩ := by
    simp [Cursor.skipGap, Cursor.enter, Cursor.advance, Cursor.gapEnd, isBreak, byteOrderMark]
  have hlost : Flow.isLost floor
      (Cursor.enter ⟨'[' :: ']' :: rest, line, column, fresh, 0⟩).skipGap = false := by
    rw [hgap]
    simp [Flow.isLost, Cursor.isOver, Cursor.isEnclosed]
  have hitems := Flow.items_close hlost (by rw [hgap]; rfl) handles fuel
  rw [Flow.content]
  simp [hitems, hgap, Cursor.leave, Cursor.advance, Reach.just]

/-- Nor between the braces of an empty map. -/
theorem content_braces (line column : Nat) (fresh : Bool) (rest : List Char) :
    Flow.content handles floor (fuel + 2) ⟨'\x7b' :: '\x7d' :: rest, line, column, fresh, 0⟩ =
      some (.mapping .none [], .just ⟨rest, line, column + 2, false, 0⟩) := by
  have hgap : (Cursor.enter ⟨'\x7b' :: '\x7d' :: rest, line, column, fresh, 0⟩).skipGap =
      ⟨'\x7d' :: rest, line, column + 1, true, 1⟩ := by
    simp [Cursor.skipGap, Cursor.enter, Cursor.advance, Cursor.gapEnd, isBreak, byteOrderMark]
  have hlost : Flow.isLost floor
      (Cursor.enter ⟨'\x7b' :: '\x7d' :: rest, line, column, fresh, 0⟩).skipGap = false := by
    rw [hgap]
    simp [Flow.isLost, Cursor.isOver, Cursor.isEnclosed]
  have hmembers := Flow.members_close hlost (by rw [hgap]; rfl) handles fuel
  rw [Flow.content]
  simp [hmembers, hgap, Cursor.leave, Cursor.advance, Reach.just]

end Forms

/-! ## Written values -/

/-- The least indentation of the lines of a value at a level. -/
def floorOf (level : Nat) : Nat :=
  2 * level - 1

/-- What stands below a value at a level: a line that is indented less, or nothing. -/
structure Below (level count : Nat) (t : List Char) : Prop where
  standing : Standing count t
  low : t ≠ [] → count < floorOf level

theorem Below.eq_nil {count : Nat} {t : List Char} (h : Below 0 count t) : t = [] ∧ count = 0 := by
  obtain ⟨hstanding, hlow⟩ := h
  cases hstanding with
  | ended => exact ⟨rfl, rfl⟩
  | entry => exact absurd (hlow (by simp)) (Nat.not_lt_zero _)

/-- Reading goes on at what stands below. -/
structure LeadsTo (after : Cursor) (t : List Char) (count : Nat) : Prop where
  ends : after.fresh = true ∨ after.rest.head? = some '\n'
  landing : ∃ line, after.skipGap = Cursor.landing t line count

theorem LeadsTo.of_landing {t : List Char} {count : Nat} (h : Standing count t) (line : Nat) :
    LeadsTo (Cursor.landing t line count) t count :=
  ⟨Or.inl rfl, line, Cursor.skipGap_landing h line⟩

theorem LeadsTo.of_line {t : List Char} {count : Nat} (h : Standing count t)
    (line column : Nat) (fresh : Bool) :
    LeadsTo ⟨'\n' :: (blanks count ++ t), line, column, fresh, 0⟩ t count :=
  ⟨Or.inr rfl, line + 1, Cursor.gapEnd_line h line column fresh⟩

section Written

variable (handles : Handles) {level count : Nat} {t : List Char}

theorem content_word {s : List Char} (hline : Plain.IsLine s) (hbare : IsBare s)
    (hbelow : Below level count t) (fuel line column : Nat) (fresh : Bool) :
    ∃ after, Flow.content handles (floorOf level) (fuel + 1)
        ⟨s ++ '\n' :: (blanks count ++ t), line, column, fresh, 0⟩ =
      some (.scalar .none .plain (String.ofList s), .just after) ∧ LeadsTo after t count := by
  have hread := Plain.read_value hline hbelow.standing hbelow.low line column fresh
    (hbare.starts _)
  exact ⟨_, content_bare handles _ fuel hbare rfl hread, LeadsTo.of_landing hbelow.standing _⟩

theorem content_text {s : String} (h : TextLegible level s.toList)
    (hbelow : Below level count t) (fuel line column : Nat) (fresh : Bool) :
    ∃ after, Flow.content handles (floorOf level) (fuel + 1)
        ⟨nodeText level (.str s) ++ (blanks count ++ t), line, column, fresh, 0⟩ =
      some (nodeOf (.str s), .just after) ∧ LeadsTo after t count := by
  rw [nodeText, nodeOf, styleOf]
  by_cases hblock : isBlock s.toList = true
  · rw [if_pos hblock, if_pos hblock]
    have hdeep : floorOf level ≤ 2 * max level 1 := by
      unfold floorOf
      omega
    obtain ⟨line', hread⟩ := Block.read_written (h.block hblock) hblock
      (Nat.lt_of_lt_of_le Nat.zero_lt_one (Nat.le_max_right level 1)) hdeep hbelow.standing
      (fun ht => (hbelow.low ht).trans_le hdeep) line column fresh
    rw [String.ofList_toList] at hread
    obtain ⟨more, hmark⟩ : ∃ more, Block.written s.toList (max level 1) ++ (blanks count ++ t) =
        '|' :: more := by
      unfold Block.written blockMark
      split <;> exact ⟨_, rfl⟩
    exact ⟨_, content_block handles _ fuel rfl hmark hread, LeadsTo.of_landing hbelow.standing _⟩
  have hnot : isBlock s.toList = false := by simpa using hblock
  rw [if_neg hblock, if_neg hblock, keyStyle, quote, List.append_assoc, List.singleton_append]
  by_cases hquoted : needsQuotes s.toList = true
  · rw [if_pos hquoted, if_pos hquoted]
    have hread := content_quotes handles (floorOf level) fuel (h.quoted hnot hquoted) line column
      fresh ('\n' :: (blanks count ++ t))
    rw [String.ofList_toList] at hread
    exact ⟨_, hread, LeadsTo.of_line hbelow.standing _ _ false⟩
  have hplain : needsQuotes s.toList = false := by simpa using hquoted
  rw [if_neg hquoted, if_neg hquoted]
  by_cases hroot : level = 0
  · -- the whole document
    have hlegible := h.root hnot hplain hroot
    have hbare := isBare_unquoted hplain hlegible.opens hlegible.front
    subst hroot
    obtain ⟨rfl, rfl⟩ := hbelow.eq_nil
    obtain ⟨line', hread⟩ := Plain.read_root (isParagraph_unquoted hplain hlegible) line column
      fresh (hbare.starts _)
    rw [String.ofList_toList] at hread
    exact ⟨_, content_bare handles _ fuel hbare rfl hread, LeadsTo.of_landing hbelow.standing _⟩
  · have hlegible := h.line hnot hplain hroot
    have hbare := isBare_unquoted hplain hlegible.opens
      fun c hc => hlegible.line c (List.mem_of_head? hc)
    have hread := content_word handles (isLine_unquoted hplain hlegible.line) hbare
      hbelow fuel line column fresh
    rwa [String.ofList_toList] at hread

/-- **A value without entries** is read as the node that it was written for. -/
theorem content_written : ∀ {v : Json}, isNested v = false → LegibleAt level v →
    Below level count t → ∀ (fuel line column : Nat) (fresh : Bool),
    ∃ after, Flow.content handles (floorOf level) (fuel + 2)
        ⟨nodeText level v ++ (blanks count ++ t), line, column, fresh, 0⟩ =
      some (nodeOf v, .just after) ∧ LeadsTo after t count
  | .str s, _, hv, hbelow, fuel, line, column, fresh => by
    rw [LegibleAt, TextsAt] at hv
    exact content_text handles hv hbelow (fuel + 1) line column fresh
  | .num n, _, _, hbelow, fuel, line, column, fresh => by
    have hread := content_word handles (isLine_digits n) (isBare_digits n) hbelow
      (fuel + 1) line column fresh
    simpa [nodeText, nodeOf, scalar] using hread
  | .null, _, _, hbelow, fuel, line, column, fresh => by
    have hread := content_word handles (s := scalar .null)
      ⟨by decide, by decide, by decide⟩ (.word (by decide) (by decide) (by decide)) hbelow
      (fuel + 1) line column fresh
    simpa [nodeText, nodeOf] using hread
  | .bool b, _, _, hbelow, fuel, line, column, fresh => by
    have hread := content_word handles (s := scalar (.bool b))
      (by cases b <;> exact ⟨by decide, by decide, by decide⟩)
      (by cases b <;> exact .word (by decide) (by decide) (by decide)) hbelow
      (fuel + 1) line column fresh
    simpa [nodeText, nodeOf] using hread
  | .arr [], _, _, hbelow, fuel, line, column, fresh => by
    rw [nodeOf, itemsOf]
    exact ⟨_, content_brackets handles _ fuel line column fresh _,
      LeadsTo.of_line hbelow.standing _ _ false⟩
  | .obj [], _, _, hbelow, fuel, line, column, fresh => by
    rw [nodeOf, membersOf]
    exact ⟨_, content_braces handles _ fuel line column fresh _,
      LeadsTo.of_line hbelow.standing _ _ false⟩
  | .arr (_ :: _), h, _, _, _, _, _, _ => nomatch h
  | .obj (_ :: _), h, _, _, _, _, _, _ => nomatch h

/-- **The key of a member** is read up to its colon. -/
theorem content_key {s : String} (hline : ∀ c ∈ s.toList, isSeparator c = false)
    (hopens : needsQuotes s.toList = false → OpensPlain s.toList) {rest : List Char}
    (hrest : opensGap rest = true) (floor fuel line column : Nat) (fresh : Bool) :
    Flow.content handles floor (fuel + 1)
        ⟨quote s.toList ++ ':' :: rest, line, column, fresh, 0⟩ =
      some (.scalar .none (keyStyle s.toList) s,
        .just ⟨':' :: rest, line, column + (quote s.toList).length, false, 0⟩) := by
  rw [keyStyle, quote]
  by_cases hquoted : needsQuotes s.toList = true
  · rw [if_pos hquoted, if_pos hquoted]
    have hread := content_quotes handles floor fuel (.of_line hline) line column fresh (':' :: rest)
    rw [String.ofList_toList, Quoted.behind_line hline] at hread
    rw [hread]
    have hlength : ('"' :: s.toList.flatMap escapedChar ++ ['"']).length =
        1 + (s.toList.flatMap escapedChar).length + 1 := by
      simp
      omega
    rw [hlength]
    simp only [Nat.add_assoc]
  · have hplain : needsQuotes s.toList = false := by simpa using hquoted
    rw [if_neg hquoted, if_neg hquoted]
    have hbare := isBare_unquoted hplain (hopens hplain)
      fun c hc => hline c (List.mem_of_head? hc)
    have hread := Plain.read_key (isLine_unquoted hplain hline) hrest floor line column fresh
      (hbare.starts _)
    rw [String.ofList_toList] at hread
    exact content_bare handles _ fuel hbare rfl hread

end Written

end OntologyCompiler.Yaml
