import OntologyCompiler.Proofs.Comments

/-!
# Statements of generated code

Generated code is read line by line. A long comment stands on lines of its own, so a reader that
knows the comments passes over as many lines as they run over; whatever else there is are lines of
code. A line of code that is not moved to the right begins a statement, and those behind it that are
moved to the right are its block.

* `Lexis.codeLines_rows`: the lines of code are found between the comments.
* `Statement.group_flatMap`: lines are put together to the statements that they were made of.
* `Lexis.statements_rows`: the statements of a text.
-/

namespace OntologyCompiler

/-! ## Lines of code -/

namespace Lexis

variable (l : Lexis)

/-- The lines of code of a text, given its lines and its long comments. A comment is told by the
mark behind the blanks of its first line; the number counts its further lines. -/
def codeLines : List (List Char) → Nat → List (List Char) → List (List Char)
  | _, _, [] => []
  | bodies, n + 1, _ :: lines => codeLines bodies n lines
  | bodies, 0, line :: lines =>
    if l.opening.isPrefixOf (line.dropWhile (· == ' ')) then
      codeLines bodies.tail ((bodies.headD []).count '\n') lines
    else line :: codeLines bodies 0 lines

/-- The marks of long comments hold no line end, and none begins with a blank. -/
structure Inline : Prop where
  opening : '\n' ∉ l.opening
  closing : '\n' ∉ l.closing
  head : l.opening.head? ≠ some ' '

namespace Row

/-- A line is just one and opens no comment, and nothing but blanks stands before a comment. -/
def Plain : Row → Prop
  | line cs => '\n' ∉ cs ∧ l.opening.isPrefixOf (cs.dropWhile (· == ' ')) = false
  | comment pad _ => ∀ c ∈ pad, c = ' '

/-- A line that is written out is plain by its characters. -/
theorem plain_text {l : Lexis} {cs : List Char} (h : (line cs).Plain l) :
    (line (String.ofList cs).toList).Plain l := by
  rw [String.toList_ofList]
  exact h

end Row

variable {l}

theorem filterMap_code?_lines (lines : List (List Char)) :
    (lines.map Row.line).filterMap Row.code? = lines := by
  rw [List.filterMap_map]
  exact List.filterMap_some

theorem plain_nil : (Row.line []).Plain l := by
  refine ⟨List.not_mem_nil, ?_⟩
  obtain ⟨c, cs, hmark⟩ := List.exists_cons_of_ne_nil l.opening_ne
  rw [hmark]
  rfl

/-- A line is plain if the first character behind its blanks opens no comment. -/
theorem plain_line {front rest : List Char} {c : Char}
    (hhead : (front.dropWhile (· == ' ')).head? = some c) (hopen : c ∉ l.opening.take 1)
    (hbreak : '\n' ∉ front ++ rest) : (Row.line (front ++ rest)).Plain l := by
  obtain ⟨cs, hfront⟩ := List.head?_eq_some_iff.mp hhead
  have hdrop : (front ++ rest).dropWhile (· == ' ') = c :: (cs ++ rest) := by
    rw [List.dropWhile_append, hfront]
    rfl
  refine ⟨hbreak, ?_⟩
  rw [hdrop, isPrefixOf_eq_false l.opening_ne hopen]

/-- Behind a front without line ends, the first line begins with the front. -/
theorem exists_splitOn_append : ∀ {front : List Char}, '\n' ∉ front → ∀ back : List Char,
    ∃ line lines, (front ++ back).splitOn '\n' = (front ++ line) :: lines ∧
      lines.length = back.count '\n'
  | [], _, [] => ⟨[], [], List.splitOn_nil _, rfl⟩
  | [], h, c :: back => by
    obtain ⟨line, lines, hsplit, hlength⟩ := exists_splitOn_append h back
    rw [List.nil_append] at hsplit
    rw [List.nil_append, List.splitOn_cons_eq_if_modifyHead, hsplit]
    by_cases hc : c = '\n'
    · subst hc
      exact ⟨[], ([] ++ line) :: lines, rfl, by simp [hlength]⟩
    · exact ⟨c :: line, lines, by simp [hc], by simp [hlength, hc]⟩
  | c :: front, h, back => by
    have hc : c ≠ '\n' := fun heq => h (heq ▸ List.mem_cons_self)
    obtain ⟨line, lines, hsplit, hlength⟩ :=
      exists_splitOn_append (fun hmem => h (List.mem_cons_of_mem _ hmem)) back
    refine ⟨line, lines, ?_, hlength⟩
    rw [List.cons_append, List.splitOn_cons_eq_if_modifyHead, hsplit]
    simp [hc]

/-- The further lines of a comment are passed. -/
theorem codeLines_skip (bodies lines : List (List Char)) : ∀ passed : List (List Char),
    l.codeLines bodies passed.length (passed ++ lines) = l.codeLines bodies 0 lines
  | [] => rfl
  | _ :: passed => by
    rw [List.length_cons, List.cons_append, codeLines, codeLines_skip bodies lines passed]

/-- **A line of code** is read. -/
theorem codeLines_line {cs : List Char} (h : (Row.line cs).Plain l) (bodies : List (List Char))
    (rest : List Char) : l.codeLines bodies 0 ((cs ++ '\n' :: rest).splitOn '\n') =
      cs :: l.codeLines bodies 0 (rest.splitOn '\n') := by
  rw [List.splitOn_append_cons_self, List.splitOn_eq_singleton h.1, List.singleton_append,
    codeLines, h.2, if_neg (by decide)]

/-- **A comment** is passed with all of its lines. -/
theorem codeLines_comment (hl : l.Inline) {pad : List Char} (hpad : ∀ c ∈ pad, c = ' ')
    (body rest : List Char) (bodies : List (List Char)) :
    l.codeLines (body :: bodies) 0
        ((pad ++ (l.opening ++ (body ++ (l.closing ++ '\n' :: rest)))).splitOn '\n') =
      l.codeLines bodies 0 (rest.splitOn '\n') := by
  have hfront : '\n' ∉ pad ++ l.opening := by
    rw [List.mem_append, not_or]
    exact ⟨fun hmem => absurd (hpad _ hmem) (by decide), hl.opening⟩
  obtain ⟨line, lines, hsplit, hlength⟩ := exists_splitOn_append hfront (body ++ l.closing)
  have hcount : lines.length = body.count '\n' := by
    rw [hlength, List.count_append, List.count_eq_zero.mpr hl.closing, Nat.add_zero]
  have hopen : l.opening.isPrefixOf ((pad ++ l.opening ++ line).dropWhile (· == ' ')) = true := by
    obtain ⟨c, cs, hc⟩ := List.exists_cons_of_ne_nil l.opening_ne
    have hhead : (c == ' ') = false := by
      rw [beq_eq_false_iff_ne]
      rintro rfl
      exact hl.head (by rw [hc, List.head?_cons])
    rw [List.append_assoc, List.dropWhile_append_of_pos (by simpa using hpad), hc, List.cons_append,
      List.dropWhile_cons_of_neg (by simp [hhead]), ← List.cons_append, ← hc,
      List.isPrefixOf_iff_prefix]
    exact List.prefix_append _ _
  have hlines : (pad ++ (l.opening ++ (body ++ (l.closing ++ '\n' :: rest)))).splitOn '\n' =
      (pad ++ l.opening ++ line) :: (lines ++ rest.splitOn '\n') := by
    rw [← List.cons_append, ← hsplit, ← List.splitOn_append_cons_self]
    simp only [List.append_assoc]
  rw [hlines, codeLines, hopen, if_pos rfl, List.headD_cons, ← hcount]
  exact codeLines_skip _ _ _

/-- **The lines of code in rows** are those between the comments. -/
theorem codeLines_rows (hl : l.Inline) (bodies : List (List Char)) (rest : List Char) :
    ∀ {rows : List Row}, (∀ r ∈ rows, r.Plain l) →
      l.codeLines (rows.filterMap Row.body? ++ bodies) 0
          ((rows.flatMap (Row.chars l) ++ rest).splitOn '\n') =
        rows.filterMap Row.code? ++ l.codeLines bodies 0 (rest.splitOn '\n')
  | [], _ => rfl
  | .line cs :: rows, h => by
    obtain ⟨hline, hrows⟩ := List.forall_mem_cons.mp h
    have hchars : (Row.line cs :: rows).flatMap (Row.chars l) ++ rest =
        cs ++ '\n' :: (rows.flatMap (Row.chars l) ++ rest) := by simp [Row.chars]
    rw [hchars, List.filterMap_cons_none rfl, codeLines_line hline, codeLines_rows hl _ _ hrows]
    rfl
  | .comment pad body :: rows, h => by
    obtain ⟨hpad, hrows⟩ := List.forall_mem_cons.mp h
    have hchars : (Row.comment pad body :: rows).flatMap (Row.chars l) ++ rest =
        pad ++ (l.opening ++ (body ++ (l.closing ++
          '\n' :: (rows.flatMap (Row.chars l) ++ rest)))) := by
      simp [Row.chars]
    have hbody : Row.body? (.comment pad body) = some body := rfl
    rw [hchars, List.filterMap_cons_some hbody, List.filterMap_cons_none (by rfl),
      List.cons_append, codeLines_comment hl hpad, codeLines_rows hl _ _ hrows]

end Lexis

/-! ## Statements -/

/-- A line at the left margin, and the lines behind it that are moved to the right. -/
structure Statement where
  head : List Char
  block : List (List Char)
  deriving DecidableEq

namespace Statement

/-- Whether a line is moved to the right. -/
def isMoved (line : List Char) : Bool :=
  line.head? == some ' '

/-- The statements that lines make up. -/
def group : List (List Char) → List Statement
  | [] => []
  | line :: lines =>
    if isMoved line then group lines else ⟨line, lines.takeWhile isMoved⟩ :: group lines

/-- The lines of a statement. -/
def lines (s : Statement) : List (List Char) :=
  s.head :: s.block

/-- A statement is in shape: the lines of its block are moved to the right, and its head is not. -/
structure Shaped (s : Statement) : Prop where
  head : isMoved s.head = false
  block : ∀ line ∈ s.block, isMoved line = true

theorem isMoved_text {cs : List Char} (rest : List Char) :
    isMoved ((String.ofList (' ' :: cs)).toList ++ rest) = true := by
  rw [String.toList_ofList]
  rfl

theorem shaped_line {line : List Char} (h : isMoved line = false) : Shaped ⟨line, []⟩ :=
  ⟨h, List.forall_mem_nil _⟩

theorem group_moved : ∀ {moved : List (List Char)}, (∀ line ∈ moved, isMoved line = true) →
    ∀ rest, group (moved ++ rest) = group rest
  | [], _, _ => rfl
  | line :: moved, h, rest => by
    obtain ⟨hline, hmoved⟩ := List.forall_mem_cons.mp h
    rw [List.cons_append, group, hline, if_pos rfl, group_moved hmoved]

/-- **Lines are put together** to the statements that they were made of. -/
theorem group_flatMap {rest : List (List Char)}
    (hrest : ∀ line ∈ rest.head?, isMoved line = false) : ∀ {ss : List Statement},
    (∀ s ∈ ss, s.Shaped) → group (ss.flatMap lines ++ rest) = ss ++ group rest
  | [], _ => rfl
  | s :: ss, h => by
    obtain ⟨hs, hss⟩ := List.forall_mem_cons.mp h
    -- the next line that is not moved ends the block
    have hstop : (ss.flatMap lines ++ rest).takeWhile isMoved = [] := by
      cases ss with
      | nil =>
        cases rest with
        | nil => rfl
        | cons line rest =>
          have hline : isMoved line = false := hrest line rfl
          exact List.takeWhile_cons_of_neg (by simp [hline])
      | cons s' ss =>
        have hline : isMoved s'.head = false := (hss s' List.mem_cons_self).head
        exact List.takeWhile_cons_of_neg (by simp [hline])
    rw [List.flatMap_cons, List.append_assoc, lines, List.cons_append, group, hs.head,
      if_neg (by decide), List.takeWhile_append_of_pos hs.block, hstop, List.append_nil,
      group_moved hs.block, group_flatMap hrest hss]
    rfl

end Statement

namespace Lexis

/-- The statements of a text whose long comments are known. -/
def statements (l : Lexis) (comments : List String) (code : String) : List Statement :=
  Statement.group ((l.codeLines (comments.map String.toList) 0 (code.toList.splitOn '\n')).filter
    (!·.isEmpty))

/-- **The statements of a text in rows**: those that the lines between its comments are made of, and
what the rest of the text comes to. -/
theorem statements_rows {l : Lexis} (hl : l.Inline) {code : String} {comments : List String}
    {rows : List Row} {rest : List Char} {more : List (List Char)} {ss : List Statement}
    (hcode : code.toList = rows.flatMap (Row.chars l) ++ rest)
    (hplain : ∀ r ∈ rows, r.Plain l)
    (hcomments : comments.map String.toList = rows.filterMap Row.body?)
    (hlines : (rows.filterMap Row.code?).filter (!·.isEmpty) = ss.flatMap Statement.lines)
    (hshaped : ∀ s ∈ ss, s.Shaped)
    (hrest : (l.codeLines [] 0 (rest.splitOn '\n')).filter (!·.isEmpty) = more)
    (hmore : ∀ line ∈ more.head?, Statement.isMoved line = false) :
    l.statements comments code = ss ++ Statement.group more := by
  have hread := codeLines_rows hl [] rest hplain
  rw [List.append_nil] at hread
  rw [statements, hcomments, hcode, hread, List.filter_append, hlines, hrest,
    Statement.group_flatMap hmore hshaped]

end Lexis
end OntologyCompiler
