import OntologyCompiler.Proofs.Yaml.Collection
import OntologyCompiler.Proofs.Yaml.Tree
import OntologyCompiler.Yaml.Document

/-!
# Reading a document that was written

The characters of a document that was written are those of its texts and of the notation. If the
texts are legible, the reader takes every character as it stands, and the document is one node with
nothing in front of it and nothing behind.

* `steady_nodeText`: all characters are taken as they stand.
* `rootOf?_begins`: a document without directives and marks is one node.
* `ofText?_write`: the document that is read.
-/

namespace OntologyCompiler.Yaml

/-! ## Characters -/

/-- A character that is taken as it stands in the text of a document. -/
def isSteady (c : Char) : Bool :=
  isKept c && c != '\r'

/-- All characters of a text are kept, at whatever level it stands. -/
def Kept (_ : Nat) (s : List Char) : Prop :=
  ∀ c ∈ s, isKept c = true

/-- A text of characters that are taken as they stand. -/
def Steady (cs : List Char) : Prop :=
  ∀ c ∈ cs, isSteady c = true

theorem steady_nil : Steady [] :=
  fun _ h => absurd h List.not_mem_nil

theorem steady_append {cs ds : List Char} (hc : Steady cs) (hd : Steady ds) : Steady (cs ++ ds) :=
  fun c h => (List.mem_append.mp h).elim (hc c) (hd c)

theorem steady_cons {c : Char} {cs : List Char} (hc : isSteady c = true) (hcs : Steady cs) :
    Steady (c :: cs) :=
  fun d h => (List.mem_cons.mp h).elim (fun heq => heq ▸ hc) (hcs d)

theorem steady_of_chars {cs : List Char} (h : cs.all isSteady = true) : Steady cs :=
  List.all_eq_true.mp h

theorem steady_blanks (count : Nat) : Steady (blanks count) := by
  intro c hc
  rw [List.eq_of_mem_replicate hc]
  decide

theorem steady_quote {s : List Char} (h : ∀ c ∈ s, isKept c = true) : Steady (quote s) := by
  rw [quote]
  split
  · refine steady_append (steady_cons (by decide) fun c hc => ?_) (steady_of_chars (by decide))
    obtain ⟨d, hd, hc⟩ := List.mem_flatMap.mp hc
    rcases Quoted.escapedChar_cases d with ⟨l, hl, hesc⟩ | ⟨hplain, hesc⟩
    · have hletters : ∀ p ∈ Quoted.letters, isSteady p.2 = true := by decide
      rw [hesc] at hc
      exact steady_cons (by decide) (steady_cons (hletters _ hl) steady_nil) c hc
    · rw [hesc, List.mem_singleton] at hc
      have hreturn : c ≠ '\r' := by
        rintro rfl
        exact hplain (hc ▸ by decide)
      simp [isSteady, hc ▸ h d hd, hreturn]
  · rename_i hplain
    obtain ⟨-, hnever, -, -⟩ := of_unquoted (s := s) (by simpa using hplain)
    intro c hc
    have hreturn : c ≠ '\r' := by
      rintro rfl
      exact absurd (hnever '\r' hc) (by decide)
    simp [isSteady, h c hc, hreturn]

theorem steady_written {s : List Char} (hblock : isBlock s = true)
    (h : ∀ c ∈ s, isKept c = true) (level : Nat) : Steady (Block.written s level) := by
  have htext : Steady (body s ++ ['\n']) := by
    refine steady_append (fun c hc => ?_) (steady_of_chars (by decide))
    have hmem : c ∈ s := by
      rw [← Block.body_append s]
      exact List.mem_append_left _ hc
    have hreturn : c ≠ '\r' := by
      rintro rfl
      simp [isBlock, hmem] at hblock
    simp [isSteady, h c hmem, hreturn]
  have hfeeds : Steady (List.replicate (closing s - 1) '\n') := by
    intro c hc
    rw [List.eq_of_mem_replicate hc]
    decide
  refine steady_append (steady_of_chars ?_) (steady_cons (by decide) (steady_append ?_ hfeeds))
  · unfold blockMark
    split <;> decide
  · intro c hc
    obtain ⟨l, hl, hc⟩ := List.mem_flatMap.mp hc
    have hline : Steady l := fun d hd => htext d <| by
      rw [← Block.unlines_splitOn, unlines, List.mem_flatMap]
      exact ⟨l, hl, List.mem_append_left _ hd⟩
    refine steady_append ?_ (steady_of_chars (by decide)) c hc
    split
    · exact steady_nil
    · exact steady_append (steady_blanks _) hline

theorem steady_digits (n : Number) : Steady n.digits := by
  obtain ⟨negative, c, rest, hdigits, -, hall⟩ := digits_chars n
  have hmarks : ∀ d ∈ ['.', 'e', '+', '-'], isSteady d = true := by decide
  rw [hdigits]
  refine steady_append ?_ fun d hd => ?_
  · cases negative
    · exact steady_nil
    · exact steady_of_chars (by decide)
  · rcases hall d hd with hdigit | hmark
    · have hreturn := ne_of_isDigit hdigit (d := '\r') (by decide)
      obtain ⟨hlow, hhigh⟩ := Text.toNat_of_isDigit hdigit
      have hlow' : 0x20 ≤ d.toNat := by omega
      have hhigh' : d.toNat ≤ 0x7E := by omega
      have hnext : d.toNat ≠ 0x85 := by omega
      simp [isSteady, isKept, Source.isAllowed, hlow', hhigh', hnext, hreturn]
    · exact hmarks d hmark

theorem steady_lead (level : Nat) (v : Json) : Steady (lead level v) := by
  rw [lead]
  split
  · exact steady_cons (by decide) (steady_blanks _)
  · exact steady_of_chars (by decide)

mutual

/-- **All characters are taken as they stand.** -/
theorem steady_nodeText : ∀ {level : Nat} {v : Json}, TextsAt Kept Kept level v →
    Steady (nodeText level v)
  | level, .obj ((key, v) :: rest), h => by
    rw [TextsAt, MemberTexts] at h
    rw [nodeText]
    exact steady_append (steady_append (steady_quote h.1) (steady_cons (by decide)
      (steady_append (steady_lead _ _) (steady_nodeText h.2.1)))) (steady_membersText h.2.2)
  | level, .arr (v :: rest), h => by
    rw [TextsAt, ItemTexts] at h
    rw [nodeText]
    exact steady_append (steady_cons (by decide) (steady_cons (by decide)
      (steady_nodeText h.1))) (steady_itemsText h.2)
  | level, .str s, h => by
    rw [TextsAt] at h
    rw [nodeText]
    split
    · exact steady_written ‹_› h _
    · exact steady_append (steady_quote h) (steady_of_chars (by decide))
  | level, .num n, _ => by
    rw [nodeText]
    · exact steady_append (steady_digits n) (steady_of_chars (by decide))
    all_goals simp
  | _, .null, _ => (steady_of_chars (by decide) : Steady (scalar .null ++ ['\n']))
  | _, .bool true, _ => (steady_of_chars (by decide) : Steady (scalar (.bool true) ++ ['\n']))
  | _, .bool false, _ => (steady_of_chars (by decide) : Steady (scalar (.bool false) ++ ['\n']))
  | _, .arr [], _ => (steady_of_chars (by decide) : Steady (scalar (.arr []) ++ ['\n']))
  | _, .obj [], _ => (steady_of_chars (by decide) : Steady (scalar (.obj []) ++ ['\n']))

theorem steady_itemsText : ∀ {level : Nat} {items : List Json}, ItemTexts Kept Kept level items →
    Steady (itemsText level items)
  | _, [], _ => by
    rw [itemsText]
    exact steady_nil
  | level, v :: rest, h => by
    rw [ItemTexts] at h
    rw [itemsText]
    exact steady_append (steady_blanks _) (steady_append (steady_cons (by decide)
      (steady_cons (by decide) (steady_nodeText h.1))) (steady_itemsText h.2))

theorem steady_membersText : ∀ {level : Nat} {members : List (String × Json)},
    MemberTexts Kept Kept level members → Steady (membersText level members)
  | _, [], _ => by
    rw [membersText]
    exact steady_nil
  | level, (key, v) :: rest, h => by
    rw [MemberTexts] at h
    rw [membersText]
    exact steady_append (steady_blanks _) (steady_append (steady_append (steady_quote h.1)
      (steady_cons (by decide) (steady_append (steady_lead _ _) (steady_nodeText h.2.1))))
      (steady_membersText h.2.2))

end

/-- Line ends of one kind stay as they are. -/
theorem unifyBreaks_steady : ∀ {cs : List Char}, Steady cs → Source.unifyBreaks cs = cs
  | [], _ => rfl
  | c :: cs, h => by
    have hc := h c List.mem_cons_self
    simp only [isSteady, isKept, Bool.and_eq_true, bne_iff_ne] at hc
    obtain ⟨⟨-, hnext⟩, hreturn⟩ := hc
    have ih := unifyBreaks_steady fun d hd => h d (List.mem_cons_of_mem c hd)
    unfold Source.unifyBreaks
    split
    · rename_i heq
      cases heq
    · rename_i heq
      exact absurd (List.cons.inj heq).1 hreturn
    · rename_i heq
      obtain ⟨rfl, rfl⟩ := List.cons.inj heq
      rw [ih, if_neg (not_or.mpr ⟨hreturn, hnext⟩)]

theorem chars?_steady {text : String} (h : Steady text.toList) :
    Source.chars? text = some text.toList := by
  have hall : text.toList.all Source.isAllowed = true := by
    rw [List.all_eq_true]
    intro c hc
    have hsteady := h c hc
    simp only [isSteady, isKept, Bool.and_eq_true] at hsteady
    exact hsteady.1.1
  rw [Source.chars?, if_pos hall, unifyBreaks_steady h]

/-! ## The document -/

/-- How a document without directives and marks starts. -/
structure Begins (cs : List Char) : Prop where
  ne_nil : cs ≠ []
  standing : Standing 0 cs
  directive : cs.head? ≠ some '%'
  document : isDocumentMark cs = false

namespace Document

theorem read_directives {cs : List Char} (h : cs.head? ≠ some '%') (d : Directives) (line : Nat) :
    ∀ fuel, Directives.read fuel d (.landing cs line 0) = some (d, .landing cs line 0)
  | 0 => rfl
  | fuel + 1 => by
    rw [Directives.read]
    split
    · rename_i heq
      exact absurd (congrArg List.head? heq) h
    · rfl

/-- **A document without directives and marks is one node.** -/
theorem rootOf?_begins {cs : List Char} (h : Begins cs) :
    rootOf? cs = (Collection.node [] (fuelFor cs) 0 false .none (.landing cs 0 0)).bind fun r =>
      if isDone (fuelFor cs) r.2 then some r.1 else none := by
  have hstart : (Cursor.start cs).skipGap = .landing cs 0 0 := Cursor.skipGap_landing h.standing 0
  have hmark : opensDocument cs = false ∧ closesDocument cs = false := by
    simpa [isDocumentMark] using h.document
  have hover : (Cursor.landing cs 0 0).isOver = false :=
    Cursor.not_isOver h.ne_nil fun _ => h.document
  have hempty : (Cursor.landing cs 0 0).rest.isEmpty = false :=
    List.isEmpty_eq_false_iff.mpr h.ne_nil
  have hrefreshed : (Cursor.landing cs 0 0).refreshed = .landing cs 0 0 := rfl
  have hopens : (decide ((Cursor.landing cs 0 0).column = 0) &&
      opensDocument (Cursor.landing cs 0 0).rest) = false := by
    rw [show (Cursor.landing cs 0 0).rest = cs from rfl, hmark.1, Bool.and_false]
  simp only [rootOf?, hstart, hempty, read_directives h.directive, hopens, hover, hrefreshed,
    Bool.not_false, Bool.false_eq_true, List.isEmpty_nil, Bool.not_true, Bool.or_self, if_false,
    Option.bind_eq_bind, Option.bind_some, Bool.true_and]
  rfl

/-- A document is over behind its last line. -/
theorem isDone_landing (fuel : Nat) {after : Cursor} (h : LeadsTo after [] 0) :
    isDone (fuel + 1) after = true := by
  obtain ⟨line', hlanding⟩ := h.landing
  rw [isDone, hlanding]
  rfl

end Document

theorem Opening.begins {cs : List Char} (h : Opening 0 cs) (hdocument : isDocumentMark cs = false) :
    Begins cs :=
  ⟨h.ne_nil, h.standing, h.directive, hdocument⟩

theorem begins_nodeText : ∀ {v : Json}, TextsAt Stands Stands 0 v →
    isDocumentMark (nodeText 0 v) = false → Begins (nodeText 0 v)
  | .arr (v :: rest), _, hdocument => by
    rw [nodeText] at hdocument ⊢
    exact ⟨by simp, .entry (by decide) (by decide) (by decide) fun _ => by decide, by simp,
      hdocument⟩
  | .obj ((key, v) :: rest), h, hdocument => by
    rw [TextsAt, MemberTexts] at h
    rw [nodeText, List.append_assoc] at hdocument ⊢
    exact (opening_key h.1 _).begins hdocument
  | .str _, h, hdocument | .num _, h, hdocument | .null, h, hdocument | .bool _, h, hdocument
  | .arr [], h, hdocument | .obj [], h, hdocument => by
    rw [← List.append_nil (nodeText 0 _)] at hdocument ⊢
    exact (opening_scalar rfl h (fun _ => rfl) []).begins hdocument

theorem isDocumentMark_legible : ∀ {v : Json}, LegibleAt 0 v → isDocumentMark (nodeText 0 v) = false
  | .arr (v :: rest), _ => by
    rw [← List.append_nil (nodeText 0 _)]
    exact isDocumentMark_dash 0 v rest []
  | .obj ((key, v) :: rest), h => by
    rw [LegibleAt, TextsAt, MemberTexts] at h
    rw [nodeText, List.append_assoc, List.cons_append]
    exact isDocumentMark_key h.1 _
  | .str _, h | .num _, h | .null, h | .bool _, h | .arr [], h | .obj [], h =>
    isDocumentMark_scalar rfl h

/-- A document begins where its value may stand. -/
theorem placed_root {v : Json} (h : Begins (nodeText 0 v)) : Placed 0 v 0 true ∧
    (Cursor.landing (nodeText 0 v) 0 0).skipGap =
      ⟨nodeText 0 v ++ (blanks 0 ++ []), 0, 0, true, 0⟩ := by
  refine ⟨⟨le_rfl, fun _ => ⟨rfl, rfl⟩⟩, ?_⟩
  rw [Cursor.skipGap_landing h.standing]
  simp [blanks, Cursor.landing]

/-- **The root of a document that was written** is the node of its value. -/
theorem rootOf?_nodeText {v : Json} (h : LegibleAt 0 v) :
    Document.rootOf? (nodeText 0 v) = some (nodeOf v) := by
  have hbegins := begins_nodeText h.stands (isDocumentMark_legible h)
  have hbelow : Below 0 0 [] := ⟨.ended, fun hne => absurd rfl hne⟩
  obtain ⟨hplaced, hskip⟩ := placed_root hbegins
  have hread : Reads [] 0 v := reads_of_legible h
  obtain ⟨after, hnode, hafter⟩ := hread hbelow false _ hplaced hskip
    (Document.fuelFor (nodeText 0 v)) (by simp [Document.fuelFor, blanks])
  have hdone : Document.isDone (Document.fuelFor (nodeText 0 v)) after = true :=
    Document.isDone_landing _ hafter
  rw [floorOf_zero] at hnode
  simp [Document.rootOf?_begins hbegins, hnode, hdone]

/-- Where all characters are kept, the document that is read has the root of that text. -/
theorem ofText?_kept {v : Json} (h : TextsAt Kept Kept 0 v) :
    Document.ofText? (write v) = (Document.rootOf? (nodeText 0 v)).bind Document.ofRoot? := by
  have hsteady : Steady (write v).toList := by
    rw [toList_write]
    exact steady_nodeText h
  rw [Document.ofText?, chars?_steady hsteady, toList_write]
  rfl

/-- **The document that is read** has that node, under whatever numbers. -/
theorem ofText?_write {v : Json} (h : LegibleAt 0 v) : ∃ anchors limit,
    Document.ofText? (write v) = some ⟨nodeOf v, anchors, limit⟩ := by
  refine ⟨(nodeOf v : Node Nat).anchored, 100 * (nodeOf v : Node String).size, ?_⟩
  rw [ofText?_kept (h.imp (fun _ _ => KeyLegible.kept) fun _ _ => TextLegible.kept),
    rootOf?_nodeText h]
  simp [Document.ofRoot?, numbered_nodeOf]

end OntologyCompiler.Yaml
