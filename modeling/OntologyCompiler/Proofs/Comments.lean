import OntologyCompiler.Code.NameScope
import OntologyCompiler.Proofs.Json.Literal

/-!
# Comments in generated code

A reader of code finds its long comments: it passes over quoted texts and over comments that end
with their line, and takes what stands between the marks of a long comment. Generated code is a
sequence of rows, lines of code and comments; the reader finds just these comments when it passes
over the lines, unless some comment is closed by its own text.

* `closes_commentText`: a text for a comment holds the end of a comment just if it was given a star
  before a backslash.
* `scan_literal`, `scan_comment`: how the reader passes over a literal, and takes a comment.
* `scan_rows`, `closed_of_scan_rows`: the comments of a text in rows.
-/

namespace OntologyCompiler

/-! ## Texts for comments -/

theorem infix_pair_cons {a b c : Char} {cs : List Char} :
    [a, b] <:+: c :: cs ↔ (c = a ∧ cs.head? = some b) ∨ [a, b] <:+: cs := by
  rw [List.infix_cons_iff, List.cons_prefix_cons]
  cases cs with
  | nil => simp
  | cons d ds => simp [List.cons_prefix_cons, eq_comm]

theorem infix_pair_append {a b : Char} {cs ds : List Char} : [a, b] <:+: cs ++ ds ↔
    [a, b] <:+: cs ∨ (cs.getLast? = some a ∧ ds.head? = some b) ∨ [a, b] <:+: ds := by
  induction cs with
  | nil => simp
  | cons c cs ih =>
    rw [List.cons_append, infix_pair_cons, infix_pair_cons, ih]
    cases cs with
    | nil => simp
    | cons e cs => simp [or_assoc]

/-- A pair stands in a framed text just if it stands in the text, if the frame has no part in it. -/
theorem infix_framed {a b : Char} {front text back : List Char} (hfront : ¬ [a, b] <:+: front)
    (hlast : front.getLast? ≠ some a) (hback : ¬ [a, b] <:+: back) (hhead : back.head? ≠ some b) :
    [a, b] <:+: front ++ (text ++ back) ↔ [a, b] <:+: text := by
  simp [infix_pair_append, hfront, hlast, hback, hhead]

theorem head?_openedComment (cs : List Char) : (openedComment cs).head? = cs.head? := by
  unfold openedComment
  split <;> rfl

theorem unquotedChar_eq_star (c : Char) : unquotedChar c = '*' ↔ c = '*' := by
  unfold unquotedChar
  split
  · rename_i h
    simp [h]
  · split
    · rename_i h
      simp [h]
    · rfl

theorem unquotedChar_eq_slash (c : Char) : unquotedChar c = '/' ↔ c = '/' ∨ c = '\\' := by
  unfold unquotedChar
  split
  · rename_i h
    simp [h]
  · split
    · rename_i h
      simp [h]
    · rename_i h
      simp [h]

/-- **A text for a comment** has no double quote and no backslash. -/
theorem commentText_plain (s : String) : ∀ c ∈ (commentText s).toList, c ≠ '"' ∧ c ≠ '\\' := by
  rw [commentText, String.toList_ofList]
  intro c hc
  obtain ⟨d, -, rfl⟩ := List.mem_map.mp hc
  unfold unquotedChar
  split
  · decide
  · split
    · decide
    · exact ⟨‹_›, ‹_›⟩

theorem closes_openedComment (cs : List Char) :
    ['*', '/'] <:+: (openedComment cs).map unquotedChar ↔ ['*', '\\'] <:+: cs := by
  fun_induction openedComment cs with
  | case1 rest ih =>
    simp only [List.map_cons, infix_pair_cons, ih]
    simp [unquotedChar]
  | case2 c rest hne ih =>
    have hhead : ((openedComment rest).map unquotedChar).head? = rest.head?.map unquotedChar := by
      rw [List.head?_map, head?_openedComment]
    rw [List.map_cons, infix_pair_cons, infix_pair_cons, ih, hhead, unquotedChar_eq_star]
    refine or_congr_left (and_congr_right fun hc => ?_)
    -- a slash behind the star would have been taken away from it
    cases rest with
    | nil => simp
    | cons d ds =>
      have hd : d ≠ '/' := fun hd => hne ds hc (by rw [hd])
      simp [unquotedChar_eq_slash, hd]
  | case3 => simp

/-- **A text for a comment holds the end of one** just if a star stood before a backslash: the mark
itself is taken apart, but the backslash becomes a slash after that. -/
theorem closes_commentText (s : String) :
    ['*', '/'] <:+: (commentText s).toList ↔ ['*', '\\'] <:+: s.toList := by
  rw [commentText, String.toList_ofList]
  exact closes_openedComment s.toList

/-! ## A reader of comments -/

/-- The marks by which comments are told from the rest of a text: what opens a comment up to the end
of its line, what opens and closes a long one, the quotes of texts, and whether a backslash in a
long comment keeps the next character from closing it. -/
structure Lexis where
  line : List Char
  opening : List Char
  closing : List Char
  quotes : List Char
  escapes : Bool
  line_ne : line ≠ [] := by decide
  opening_ne : opening ≠ [] := by decide
  closing_ne : closing ≠ [] := by decide

/-- Where a reader stands; in a quoted text and in a long comment with whether the next character is
escaped. -/
inductive Mode where
  | code
  | line
  | quoted (quote : Char) (escaped : Bool)
  | comment (read : List Char) (escaped : Bool)

namespace Lexis

variable (l : Lexis)

/-- The long comments of a text, from where the reader stands on. The number counts the characters
of a mark that are still to be passed. -/
def scan : Nat → Mode → List Char → List (List Char)
  | _, _, [] => []
  | n + 1, mode, _ :: rest => scan n mode rest
  | 0, .code, c :: rest =>
    if l.opening.isPrefixOf (c :: rest) then scan (l.opening.length - 1) (.comment [] false) rest
    else if l.line.isPrefixOf (c :: rest) then scan (l.line.length - 1) .line rest
    else if c ∈ l.quotes then scan 0 (.quoted c false) rest
    else scan 0 .code rest
  | 0, .line, c :: rest => scan 0 (if c = '\n' then .code else .line) rest
  | 0, .quoted q escaped, c :: rest =>
    if escaped then scan 0 (.quoted q false) rest
    else if c = q then scan 0 .code rest
    else scan 0 (.quoted q (c == '\\')) rest
  | 0, .comment read escaped, c :: rest =>
    if !escaped && l.closing.isPrefixOf (c :: rest) then
      read.reverse :: scan (l.closing.length - 1) .code rest
    else scan 0 (.comment (c :: read) (l.escapes && !escaped && c == '\\')) rest

/-- The long comments of a text. -/
def comments (s : String) : List String :=
  (l.scan 0 .code s.toList).map String.ofList

variable {l} in
theorem comments_eq_iff {s : String} {cs : List String} :
    l.comments s = cs ↔ l.scan 0 .code s.toList = cs.map String.toList := by
  unfold comments
  constructor
  · rintro rfl
    simp
  · intro h
    simp [h]

theorem scan_skip (mode : Mode) (rest : List Char) : ∀ xs : List Char,
    l.scan xs.length mode (xs ++ rest) = l.scan 0 mode rest
  | [] => rfl
  | x :: xs => by
    rw [List.length_cons, List.cons_append, scan, scan_skip mode rest xs]

/-- A mark is passed as a whole. -/
theorem scan_mark {mark : List Char} {c : Char} {cs : List Char} (mode : Mode) (rest : List Char)
    (h : mark = c :: cs) : l.scan (mark.length - 1) mode (cs ++ rest) = l.scan 0 mode rest := by
  rw [h, List.length_cons, Nat.add_sub_cancel, scan_skip]

/-! ## Code -/

/-- The reader passes over a text and finds no comment. -/
def Passed (cs : List Char) : Prop :=
  ∀ rest, l.scan 0 .code (cs ++ rest) = l.scan 0 .code rest

/-- The characters that may open something. -/
def openers : List Char :=
  l.opening.take 1 ++ (l.line.take 1 ++ l.quotes)

variable {l}

theorem passed_nil : l.Passed [] :=
  fun _ => rfl

theorem Passed.append {cs ds : List Char} (hc : l.Passed cs) (hd : l.Passed ds) :
    l.Passed (cs ++ ds) := by
  intro rest
  rw [List.append_assoc, hc, hd]

theorem passed_append {a b : String} (ha : l.Passed a.toList) (hb : l.Passed b.toList) :
    l.Passed (a ++ b).toList := by
  rw [String.toList_append]
  exact ha.append hb

theorem passed_intercalate {sep : String} (hsep : l.Passed sep.toList) : ∀ {parts : List String},
    (∀ x ∈ parts, l.Passed x.toList) → l.Passed (sep.intercalate parts).toList
  | [], _ => by rw [String.intercalate_nil]; exact passed_nil
  | [x], h => by rw [String.intercalate_singleton]; exact h x List.mem_cons_self
  | x :: y :: more, h => by
    rw [String.intercalate_cons_cons]
    exact passed_append (passed_append (h x List.mem_cons_self) hsep)
      (passed_intercalate hsep fun z hz => h z (List.mem_cons_of_mem _ hz))

theorem isPrefixOf_eq_false {mark : List Char} {c : Char} {rest : List Char} (hne : mark ≠ [])
    (h : c ∉ mark.take 1) : mark.isPrefixOf (c :: rest) = false := by
  obtain ⟨d, ds, rfl⟩ := List.exists_cons_of_ne_nil hne
  have hd : (d == c) = false := beq_eq_false_iff_ne.mpr fun heq => h (by simp [heq])
  rw [List.isPrefixOf, hd, Bool.false_and]

/-- **Characters that open nothing** are passed. -/
theorem passed_plain : ∀ {cs : List Char}, (∀ c ∈ cs, c ∉ l.openers) → l.Passed cs
  | [], _ => passed_nil
  | c :: cs, h => by
    intro rest
    have hc := h c List.mem_cons_self
    simp only [openers, List.mem_append, not_or] at hc
    rw [List.cons_append, scan, isPrefixOf_eq_false l.opening_ne hc.1,
      isPrefixOf_eq_false l.line_ne hc.2.1, if_neg (by decide), if_neg (by decide), if_neg hc.2.2]
    exact passed_plain (fun d hd => h d (List.mem_cons_of_mem _ hd)) rest

/-- Characters of a class to which nothing belongs that opens something are passed. -/
theorem passed_class {p : Char → Bool} (hp : l.openers.any p = false) {cs : List Char}
    (h : ∀ c ∈ cs, p c = true) : l.Passed cs :=
  passed_plain fun c hc hmem => List.any_eq_false.mp hp c hmem (h c hc)

/-- Known characters are looked at one by one. -/
theorem passed_chars {cs : List Char} (h : cs.all (· ∉ l.openers) = true) : l.Passed cs :=
  passed_plain fun c hc => of_decide_eq_true (List.all_eq_true.mp h c hc)

theorem passed_text {cs : List Char} (h : cs.all (· ∉ l.openers) = true) :
    l.Passed (String.ofList cs).toList := by
  rw [String.toList_ofList]
  exact passed_chars h

/-- A comment up to the end of its line is passed. -/
theorem scan_line : ∀ {cs : List Char}, '\n' ∉ cs → ∀ rest,
    l.scan 0 .line (cs ++ '\n' :: rest) = l.scan 0 .code rest
  | [], _, rest => by rw [List.nil_append, scan, if_pos rfl]
  | c :: cs, h, rest => by
    have hc : c ≠ '\n' := fun heq => h (heq ▸ List.mem_cons_self)
    rw [List.cons_append, scan, if_neg hc, scan_line fun hmem => h (List.mem_cons_of_mem _ hmem)]

/-! ## Literals -/

theorem scan_quoted_plain {c : Char} (hq : c ≠ '"') (hb : c ≠ '\\') (rest : List Char) :
    l.scan 0 (.quoted '"' false) (c :: rest) = l.scan 0 (.quoted '"' false) rest := by
  rw [scan, if_neg (by decide), if_neg hq, beq_eq_false_iff_ne.mpr hb]

theorem scan_quoted_escape (c : Char) (rest : List Char) :
    l.scan 0 (.quoted '"' false) ('\\' :: c :: rest) = l.scan 0 (.quoted '"' false) rest := by
  simp [scan]

theorem plain_of_all {cs : List Char} (h : cs.all (fun c => c != '"' && c != '\\') = true) :
    ∀ c ∈ cs, c ≠ '"' ∧ c ≠ '\\' := by
  intro c hc
  simpa using List.all_eq_true.mp h c hc

theorem plain_text {cs : List Char} (h : cs.all (fun c => c != '"' && c != '\\') = true) :
    ∀ c ∈ (String.ofList cs).toList, c ≠ '"' ∧ c ≠ '\\' := by
  rw [String.toList_ofList]
  exact plain_of_all h

theorem hexDigits_plain : ∀ n < 32, ((if n < 16 then ['0'] else []) ++ Text.hexDigits n).all
    (fun c => c != '"' && c != '\\') = true := by
  decide

theorem scan_quoted_plains : ∀ {cs : List Char}, (∀ c ∈ cs, c ≠ '"' ∧ c ≠ '\\') → ∀ rest,
    l.scan 0 (.quoted '"' false) (cs ++ rest) = l.scan 0 (.quoted '"' false) rest
  | [], _, _ => rfl
  | c :: cs, h, rest => by
    obtain ⟨hq, hb⟩ := h c List.mem_cons_self
    rw [List.cons_append, scan_quoted_plain hq hb,
      scan_quoted_plains (fun d hd => h d (List.mem_cons_of_mem _ hd))]

theorem scan_literalChar (c : Char) (rest : List Char) :
    l.scan 0 (.quoted '"' false) (Json.literalChar c ++ rest) =
      l.scan 0 (.quoted '"' false) rest := by
  rcases Json.Raw.literalChar_cases c with ⟨e, -, -, heq⟩ | ⟨hlow, heq⟩ | ⟨hq, hb, -, heq⟩
  · rw [heq]
    exact scan_quoted_escape e rest
  · rw [heq]
    simp only [List.cons_append]
    rw [scan_quoted_escape, scan_quoted_plain (by decide) (by decide),
      scan_quoted_plain (by decide) (by decide),
      scan_quoted_plains (plain_of_all (hexDigits_plain _ hlow))]
  · rw [heq]
    exact scan_quoted_plain hq hb rest

/-- **A literal** is passed behind its opening quote. -/
theorem scan_literal (s : String) (rest : List Char) :
    l.scan 0 (.quoted '"' false) (s.toList.flatMap Json.literalChar ++ '"' :: rest) =
      l.scan 0 .code rest := by
  induction s.toList with
  | nil => simp [scan]
  | cons c cs ih => rw [List.flatMap_cons, List.append_assoc, scan_literalChar, ih]

/-! ## Long comments -/

variable (l) in
/-- Nothing in a text closes the comment that it is the text of. -/
structure Closed (body : List Char) : Prop where
  mark : ∀ front c back rest, body = front ++ c :: back →
    ¬ l.closing <+: c :: (back ++ (l.closing ++ rest))
  escape : l.escapes = true → '\\' ∉ body

theorem Closed.tail {c : Char} {body : List Char} (h : l.Closed (c :: body)) : l.Closed body where
  mark front d back rest heq := h.mark (c :: front) d back rest (by rw [heq]; rfl)
  escape he hmem := h.escape he (List.mem_cons_of_mem _ hmem)

/-- **A comment** is taken up to the mark that closes it. -/
theorem scan_comment : ∀ {body : List Char}, l.Closed body → ∀ read rest,
    l.scan 0 (.comment read false) (body ++ (l.closing ++ rest)) =
      (read.reverse ++ body) :: l.scan 0 .code rest
  | [], _, read, rest => by
    obtain ⟨c, cs, hmark⟩ := List.exists_cons_of_ne_nil l.closing_ne
    have hprefix : l.closing.isPrefixOf (c :: (cs ++ rest)) = true := by
      rw [hmark, List.isPrefixOf_iff_prefix]
      exact List.prefix_append (c :: cs) rest
    have hcons : [] ++ (l.closing ++ rest) = c :: (cs ++ rest) := by
      rw [hmark]
      rfl
    rw [hcons, scan, hprefix, Bool.not_false, Bool.and_self, if_pos rfl,
      l.scan_mark .code rest hmark, List.append_nil]
  | c :: body, h, read, rest => by
    have hprefix : l.closing.isPrefixOf (c :: (body ++ (l.closing ++ rest))) = false := by
      rw [Bool.eq_false_iff, ne_eq, List.isPrefixOf_iff_prefix]
      exact h.mark [] c body rest rfl
    have hescape : (l.escapes && !false && c == '\\') = false := by
      cases he : l.escapes with
      | false => rfl
      | true =>
        have hne : c ≠ '\\' := fun hc => h.escape he (hc ▸ List.mem_cons_self)
        simpa using hne
    have ih := scan_comment h.tail (c :: read) rest
    rw [List.cons_append, scan, hprefix, hescape]
    simpa using ih

/-! ## Rows -/

/-- A line of code, or the lines of a comment behind some blanks. -/
inductive Row where
  | line (cs : List Char)
  | comment (pad body : List Char)

namespace Row

variable (l) in
/-- The text of a row, with the line end behind it. -/
def chars : Row → List Char
  | line cs => cs ++ ['\n']
  | comment pad body => pad ++ (l.opening ++ (body ++ (l.closing ++ ['\n'])))

/-- The line of code that a row is. -/
def code? : Row → Option (List Char)
  | line cs => some cs
  | comment _ _ => none

/-- The text of a comment. -/
def body? : Row → Option (List Char)
  | line _ => none
  | comment _ body => some body

variable (l) in
/-- Outside its comment a row opens none. -/
def Quiet : Row → Prop
  | line cs => l.Passed (cs ++ ['\n'])
  | comment pad _ => l.Passed pad ∧ l.Passed ['\n']

end Row

/-- Lines as rows. -/
theorem flatMap_lines (lines : List (List Char)) :
    (lines.map Row.line).flatMap (Row.chars l) = lines.flatMap (· ++ ['\n']) := by
  rw [List.flatMap_map]
  rfl

theorem filterMap_body?_lines (lines : List (List Char)) :
    (lines.map Row.line).filterMap Row.body? = [] := by
  rw [List.filterMap_map]
  exact List.filterMap_eq_nil_iff.mpr fun _ _ => rfl

/-- Texts in rows, put together. -/
theorem toList_join_rows {α : Type} {text : α → String} {rows : α → List Row}
    (h : ∀ x, (text x).toList = (rows x).flatMap (Row.chars l)) (xs : List α) :
    (String.join (xs.map text)).toList = (xs.flatMap rows).flatMap (Row.chars l) := by
  rw [String.toList_join, List.flatMap_map, List.flatMap_assoc]
  exact List.flatMap_congr fun x _ => h x

/-- A line whose characters open nothing is quiet. -/
theorem quiet_text {cs : List Char} (h : (cs ++ ['\n']).all (· ∉ l.openers) = true) :
    (Row.line (String.ofList cs).toList).Quiet l := by
  rw [String.toList_ofList]
  exact passed_chars h

theorem scan_opening (rest : List Char) :
    l.scan 0 .code (l.opening ++ rest) = l.scan 0 (.comment [] false) rest := by
  obtain ⟨c, cs, hmark⟩ := List.exists_cons_of_ne_nil l.opening_ne
  have hprefix : l.opening.isPrefixOf (c :: (cs ++ rest)) = true := by
    rw [hmark, List.isPrefixOf_iff_prefix]
    exact List.prefix_append (c :: cs) rest
  have hcons : l.opening ++ rest = c :: (cs ++ rest) := by
    rw [hmark]
    rfl
  rw [hcons, scan, hprefix, if_pos rfl, l.scan_mark _ rest hmark]

/-- The reader comes to the comment of a row. -/
theorem scan_row {pad : List Char} (hpad : l.Passed pad) (body rest : List Char) :
    l.scan 0 .code ((Row.comment pad body).chars l ++ rest) =
      l.scan 0 (.comment [] false) (body ++ (l.closing ++ (['\n'] ++ rest))) := by
  have hchars : (Row.comment pad body).chars l ++ rest =
      pad ++ (l.opening ++ (body ++ (l.closing ++ (['\n'] ++ rest)))) := by simp [Row.chars]
  rw [hchars, hpad, scan_opening]

/-- **The comments of a text in rows** are found, one after the other, when none is closed by its
own text. -/
theorem scan_rows (rest : List Char) : ∀ {rows : List Row}, (∀ r ∈ rows, r.Quiet l) →
    (∀ body ∈ rows.filterMap Row.body?, l.Closed body) →
    l.scan 0 .code (rows.flatMap (Row.chars l) ++ rest) =
      rows.filterMap Row.body? ++ l.scan 0 .code rest
  | [], _, _ => rfl
  | .line cs :: rows, hquiet, hclosed => by
    obtain ⟨hline, hrows⟩ := List.forall_mem_cons.mp hquiet
    rw [List.filterMap_cons_none (by rfl)] at hclosed ⊢
    rw [List.flatMap_cons, List.append_assoc, Row.chars, hline, scan_rows rest hrows hclosed]
  | .comment pad body :: rows, hquiet, hclosed => by
    obtain ⟨⟨hpad, hend⟩, hrows⟩ := List.forall_mem_cons.mp hquiet
    have hbody : Row.body? (.comment pad body) = some body := rfl
    rw [List.filterMap_cons_some hbody, List.forall_mem_cons] at hclosed
    rw [List.filterMap_cons_some hbody, List.flatMap_cons, List.append_assoc, scan_row hpad,
      scan_comment hclosed.1, hend, scan_rows rest hrows hclosed.2]
    rfl

/-- Where the reader takes something else of a comment that is closed by its own text, it finds the
comments of a text in rows only when none is. -/
theorem closed_of_scan_rows
    (hopen : ∀ body rest, ¬ l.Closed body →
      (l.scan 0 (.comment [] false) (body ++ (l.closing ++ rest))).head? ≠ some body)
    {rest : List Char} {more : List (List Char)} :
    ∀ {rows : List Row}, (∀ r ∈ rows, r.Quiet l) →
      l.scan 0 .code (rows.flatMap (Row.chars l) ++ rest) = rows.filterMap Row.body? ++ more →
      ∀ body ∈ rows.filterMap Row.body?, l.Closed body
  | [], _, _ => fun _ h => absurd h List.not_mem_nil
  | .line cs :: rows, hquiet, hscan => by
    obtain ⟨hline, hrows⟩ := List.forall_mem_cons.mp hquiet
    rw [List.flatMap_cons, List.append_assoc, Row.chars, hline,
      List.filterMap_cons_none (by rfl)] at hscan
    rw [List.filterMap_cons_none (by rfl)]
    exact closed_of_scan_rows hopen hrows hscan
  | .comment pad body :: rows, hquiet, hscan => by
    obtain ⟨⟨hpad, hend⟩, hrows⟩ := List.forall_mem_cons.mp hquiet
    have hbody : Row.body? (.comment pad body) = some body := rfl
    rw [List.flatMap_cons, List.append_assoc, scan_row hpad,
      List.filterMap_cons_some hbody] at hscan
    have hclosed : l.Closed body := by
      by_contra hnot
      exact hopen body _ hnot (by rw [hscan, List.cons_append, List.head?_cons])
    rw [scan_comment hclosed, hend] at hscan
    rw [List.filterMap_cons_some hbody, List.forall_mem_cons]
    exact ⟨hclosed, closed_of_scan_rows hopen hrows (List.cons.inj hscan).2⟩

end Lexis
end OntologyCompiler
