import OntologyCompiler.Proofs.Yaml.Token

/-!
# Different values are written differently

The text of a value tells the value, and also where it ends: what follows it, if anything, stands on
a line of its own and less deep. So from the text of a collection its entries can be told one after
the other, and no text can be taken for that of another value.

* `Ends`: what may follow a text of some depth.
* `shown_inj`, `written_inj`: the lines of a literal block tell its text.
* `nodeText_inj`: the text of a value tells the value, whatever follows.
* `written_apart`: so values that differ are written differently, wherever they stand.
-/

namespace OntologyCompiler.Yaml

/-! ## What follows a text -/

/-- What may stand below the text of some depth: nothing, or a line with something less deep. -/
def Ends (depth : Nat) (r : List Char) : Prop :=
  r = [] ∨ ∃ count c t, r = blanks count ++ c :: t ∧ count < depth ∧ c ≠ ' ' ∧ c ≠ '\n'

theorem Ends.mono {depth depth' : Nat} {r : List Char} (h : Ends depth r) (hle : depth ≤ depth') :
    Ends depth' r := by
  rcases h with hnil | ⟨count, c, t, hr, hlt, hc⟩
  · exact Or.inl hnil
  · exact Or.inr ⟨count, c, t, hr, hlt.trans_le hle, hc⟩

/-- What is as deep as the text does not follow it. -/
theorem not_ends_blanks (depth : Nat) (c : Char) (t : List Char) :
    ¬ Ends depth (blanks depth ++ c :: t) := by
  rintro (hnil | ⟨count, d, u, hr, hlt, hblank, -⟩)
  · simp at hnil
  · obtain ⟨more, rfl⟩ := Nat.exists_eq_add_of_lt hlt
    have hsplit : blanks (count + more + 1) = blanks count ++ ' ' :: blanks more := by
      rw [blanks, blanks, blanks, ← List.replicate_succ, ← List.replicate_add, Nat.add_assoc]
    rw [hsplit, List.append_assoc] at hr
    exact hblank (List.cons.inj (List.append_cancel_left hr)).1.symm

/-- A line end does not follow a text that is closed by one. -/
theorem not_ends_break (depth : Nat) (t : List Char) : ¬ Ends depth ('\n' :: t) := by
  rintro (hnil | ⟨count, c, u, hr, -, -, hbreak⟩)
  · simp at hnil
  · cases count with
    | zero => exact hbreak (List.cons.inj hr).1.symm
    | succ count => exact absurd (List.cons.inj hr).1 (by decide)

/-! ## Literal blocks -/

namespace Block

variable {depth : Nat} {r r' : List Char}

/-- A line that is shown tells the line. -/
theorem shown_inj (hdepth : 0 < depth) {l l' : List Char} (hl : '\n' ∉ l) (hl' : '\n' ∉ l')
    (h : shown depth l ++ r = shown depth l' ++ r') : l = l' ∧ r = r' := by
  obtain ⟨depth, rfl⟩ := Nat.exists_eq_succ_of_ne_zero hdepth.ne'
  cases l with
  | nil =>
    cases l' with
    | nil => exact ⟨rfl, (List.cons.inj h).2⟩
    | cons => exact absurd (List.cons.inj h).1 (by decide)
  | cons c l =>
    cases l' with
    | nil => exact absurd (List.cons.inj h).1 (by decide)
    | cons d l' =>
      simp only [shown, List.isEmpty_cons, Bool.false_eq_true, if_false, List.append_assoc,
        List.singleton_append] at h
      have hline := List.append_cancel_left h
      obtain ⟨heq, -, hr⟩ := cut_inj (p := fun e => e = '\n') rfl rfl
        (fun e he heq => hl (heq ▸ he)) (fun e he heq => hl' (heq ▸ he)) hline
      exact ⟨heq, hr⟩

/-- A line that is shown does not follow a text of its depth. -/
theorem not_ends_shown (depth : Nat) (l t : List Char) : ¬ Ends depth (shown depth l ++ t) := by
  cases l with
  | nil => exact not_ends_break depth t
  | cons c l =>
    have hform : shown depth (c :: l) ++ t = blanks depth ++ c :: (l ++ '\n' :: t) := by
      simp [shown]
    rw [hform]
    exact not_ends_blanks depth c _

/-- **Lines that are shown** tell the lines, whatever follows them. -/
theorem flatMap_shown_inj (hdepth : 0 < depth) (hr : Ends depth r) (hr' : Ends depth r') :
    ∀ {ls ls' : List (List Char)}, (∀ l ∈ ls, '\n' ∉ l) → (∀ l ∈ ls', '\n' ∉ l) →
      ls.flatMap (shown depth) ++ r = ls'.flatMap (shown depth) ++ r' → ls = ls' ∧ r = r'
  | [], [], _, _, h => ⟨rfl, h⟩
  | [], l :: ls', _, _, h => by
    rw [List.flatMap_nil, List.nil_append, List.flatMap_cons, List.append_assoc] at h
    exact absurd (h ▸ hr) (not_ends_shown depth l _)
  | l :: ls, [], _, _, h => by
    rw [List.flatMap_nil, List.nil_append, List.flatMap_cons, List.append_assoc] at h
    exact absurd (h ▸ hr') (not_ends_shown depth l _)
  | l :: ls, l' :: ls', hls, hls', h => by
    obtain ⟨hl, hls⟩ := List.forall_mem_cons.mp hls
    obtain ⟨hl', hls'⟩ := List.forall_mem_cons.mp hls'
    rw [List.flatMap_cons, List.flatMap_cons, List.append_assoc, List.append_assoc] at h
    obtain ⟨heq, htail⟩ := shown_inj hdepth hl hl' h
    obtain ⟨hmore, hrest⟩ := flatMap_shown_inj hdepth hr hr' hls hls' htail
    exact ⟨by rw [heq, hmore], hrest⟩

/-- All lines of a block, the empty ones at its end included. -/
def rowsShown (s : List Char) : List (List Char) :=
  (body s).splitOn '\n' ++ List.replicate (closing s - 1) []

theorem written_eq (s : List Char) (level : Nat) : written s level =
    blockMark (closing s) ++ '\n' :: (rowsShown s).flatMap (shown (2 * level)) := by
  have hempty : ∀ count : Nat, (List.replicate count []).flatMap (shown (2 * level)) =
      List.replicate count '\n' := by
    intro count
    induction count with
    | zero => rfl
    | succ count ih =>
      rw [List.replicate_succ, List.flatMap_cons, ih, List.replicate_succ]
      rfl
  rw [written, rowsShown, List.flatMap_append, hempty]

theorem rowsShown_line {s l : List Char} (h : l ∈ rowsShown s) : '\n' ∉ l := by
  rcases List.mem_append.mp h with hbody | hempty
  · exact not_mem_of_mem_splitOn hbody
  · rw [List.eq_of_mem_replicate hempty]
    exact List.not_mem_nil

/-- The lines of a block are its text, or its text and a line end that it lacks. -/
theorem unlines_rowsShown (s : List Char) :
    unlines (rowsShown s) = if closing s = 0 then s ++ ['\n'] else s := by
  have hempty : ∀ count : Nat, unlines (List.replicate count []) = List.replicate count '\n' := by
    intro count
    induction count with
    | zero => rfl
    | succ count ih => rw [List.replicate_succ, unlines_cons, ih, List.replicate_succ]; rfl
  have hs := body_append s
  rw [rowsShown, unlines_append, unlines_splitOn, hempty]
  by_cases hclosing : closing s = 0
  · rw [if_pos hclosing]
    rw [hclosing] at hs ⊢
    simpa using hs
  · obtain ⟨count, hcount⟩ := Nat.exists_eq_succ_of_ne_zero hclosing
    rw [if_neg hclosing]
    rw [hcount] at hs ⊢
    simpa [List.replicate_succ] using hs

/-- Mark and lines of a block tell its text. -/
theorem eq_of_rowsShown {s s' : List Char} (hmark : blockMark (closing s) = blockMark (closing s'))
    (hrows : rowsShown s = rowsShown s') : s = s' := by
  have hzero : closing s = 0 ↔ closing s' = 0 := by
    have hstrip : ∀ n : Nat, blockMark n = ['|', '-'] ↔ n = 0 := by
      rintro (_ | _ | n) <;> simp [blockMark]
    rw [← hstrip, ← hstrip, hmark]
  have htexts := congrArg unlines hrows
  rw [unlines_rowsShown, unlines_rowsShown] at htexts
  by_cases hclosing : closing s = 0
  · rw [if_pos hclosing, if_pos (hzero.mp hclosing)] at htexts
    exact List.append_cancel_right htexts
  · rwa [if_neg hclosing, if_neg fun h => hclosing (hzero.mpr h)] at htexts

/-- **A literal block tells its text**, whatever follows. -/
theorem written_inj {s s' : List Char} {level : Nat} (hlevel : 0 < level)
    (hr : Ends (2 * level) r) (hr' : Ends (2 * level) r')
    (h : written s level ++ r = written s' level ++ r') : s = s' ∧ r = r' := by
  have hmark : ∀ n : Nat, ∀ e ∈ blockMark n, ¬ e = '\n' := by
    rintro (_ | _ | n) <;> simp [blockMark]
  rw [written_eq, written_eq, List.append_assoc, List.append_assoc, List.cons_append,
    List.cons_append] at h
  obtain ⟨hmarks, -, hlines⟩ := cut_inj (p := fun e => e = '\n') rfl rfl (hmark _) (hmark _) h
  obtain ⟨hrows, hrest⟩ := flatMap_shown_inj (by omega) hr hr' (fun _ => rowsShown_line)
    (fun _ => rowsShown_line) hlines
  exact ⟨eq_of_rowsShown hmarks hrows, hrest⟩

end Block

/-! ## How texts start -/

/-- How a value is written. -/
inductive Form where
  | mapping
  | line
  | sequence
  | block

/-- The values of each form. -/
inductive Form.Has : Form → Json → Prop
  | mapping (m : String × Json) (ms : List (String × Json)) : Form.Has .mapping (.obj (m :: ms))
  | sequence (v : Json) (vs : List Json) : Form.Has .sequence (.arr (v :: vs))
  | block {s : String} (h : isBlock s.toList = true) : Form.Has .block (.str s)
  | line {v : Json} (hflat : isNested v = false)
      (htext : ∀ level, nodeText level v = scalar v ++ ['\n']) : Form.Has .line v

/-- How the texts of each form start. -/
inductive Opens : Form → List Char → Prop
  | mapping (key u : List Char) : Opens .mapping (quote key ++ ':' :: u)
  | line (v : Json) (u : List Char) : Opens .line (scalar v ++ '\n' :: u)
  | sequence (u : List Char) : Opens .sequence ('-' :: ' ' :: u)
  | block (u : List Char) : Opens .block ('|' :: u)

theorem exists_form_of_line {v : Json} (hflat : isNested v = false)
    (htext : ∀ level, nodeText level v = scalar v ++ ['\n']) (level : Nat) (r : List Char) :
    ∃ f : Form, f.Has v ∧ Opens f (nodeText level v ++ r) := by
  rw [htext, List.append_assoc]
  exact ⟨.line, .line hflat htext, .line v r⟩

/-- **Each value has a form**, and its text starts in it. -/
theorem exists_form (level : Nat) (r : List Char) (v : Json) :
    ∃ f : Form, f.Has v ∧ Opens f (nodeText level v ++ r) := by
  cases v with
  | obj members =>
    cases members with
    | nil => exact exists_form_of_line rfl (fun _ => rfl) level r
    | cons m ms =>
      rw [nodeText, List.append_assoc, List.append_assoc]
      exact ⟨.mapping, .mapping m ms, .mapping m.1.toList _⟩
  | arr items =>
    cases items with
    | nil => exact exists_form_of_line rfl (fun _ => rfl) level r
    | cons v vs =>
      rw [nodeText, List.append_assoc]
      exact ⟨.sequence, .sequence v vs, .sequence _⟩
  | str s =>
    by_cases hblock : isBlock s.toList = true
    · rw [nodeText, if_pos hblock, Block.written]
      refine ⟨.block, .block hblock, ?_⟩
      rcases closing s.toList with _ | _ | n <;> exact .block _
    · exact exists_form_of_line rfl (fun _ => by rw [nodeText, if_neg hblock, scalar]) level r
  | null | bool _ | num _ => exact exists_form_of_line rfl (fun _ => by simp [nodeText]) level r

/-- A key, or a text on one line, starts neither with a mark nor with a blank or line end. -/
theorem head_quote (s : List Char) :
    ∃ c rest, quote s = c :: rest ∧ c ∉ ['-', '|', ' ', '\n'] := by
  rcases quote_cases s with ⟨-, hs⟩ | ⟨hunquoted, hs⟩
  · exact ⟨'"', _, hs, by decide⟩
  · obtain ⟨c, rest, rfl, hfirst, hplain⟩ := head_unquoted hunquoted
    refine ⟨c, rest, hs, fun hmem => ?_⟩
    simp only [List.mem_cons, List.not_mem_nil, or_false] at hmem
    rcases hmem with rfl | rfl | rfl | rfl
    · exact absurd hfirst (by decide)
    · exact absurd hfirst (by decide)
    · exact absurd hfirst (by decide)
    · exact absurd (hplain '\n' List.mem_cons_self) (by decide)

theorem quote_append_ne {c : Char} (hc : c ∈ ['-', '|', ' ', '\n']) (key u u' : List Char) :
    quote key ++ u' ≠ c :: u := by
  obtain ⟨d, rest, hquote, hd⟩ := head_quote key
  rw [hquote]
  intro h
  exact hd ((List.cons.inj h).1 ▸ hc)

/-- A value on one line starts neither with a bar nor with a dash before a blank. -/
theorem head_scalar (v : Json) : ∃ c rest, scalar v = c :: rest ∧ c ≠ '|' ∧
    (c = '-' → ∃ d ds, rest = d :: ds ∧ d ≠ ' ') := by
  cases v with
  | str s =>
    obtain ⟨c, rest, hs, hc⟩ := head_quote s.toList
    exact ⟨c, rest, hs, fun h => hc (by simp [h]), fun h => absurd (by simp [h]) hc⟩
  | num n =>
    obtain ⟨c, cs, hdigits, hc, -⟩ := head_digits n
    refine ⟨c, cs, hdigits, ?_, ?_⟩
    · rintro rfl
      rcases hc with hc | ⟨hc, -⟩ <;> exact absurd hc (by decide)
    · rintro rfl
      obtain ⟨d, ds, hcs, hd⟩ := (hc.resolve_left (by decide)).2
      refine ⟨d, ds, hcs, ?_⟩
      rintro rfl
      exact absurd hd (by decide)
  | null => exact ⟨_, _, rfl, by decide, by simp⟩
  | bool b => cases b <;> exact ⟨_, _, rfl, by decide, by simp⟩
  | arr items => exact ⟨_, _, rfl, by decide, by simp⟩
  | obj members => exact ⟨_, _, rfl, by decide, by simp⟩

namespace Opens

variable {f g : Form} {t : List Char}

theorem dash_iff (h : Opens f t) : (∃ u, t = '-' :: ' ' :: u) ↔ f = .sequence := by
  cases h with
  | mapping key u =>
    exact iff_of_false (fun ⟨u, h⟩ => quote_append_ne (by decide) key _ _ h) nofun
  | line v u =>
    obtain ⟨c, rest, hscalar, -, hdash⟩ := head_scalar v
    refine iff_of_false (fun ⟨u, h⟩ => ?_) nofun
    rw [hscalar] at h
    obtain ⟨hc, htail⟩ := List.cons.inj h
    obtain ⟨d, ds, rfl, hd⟩ := hdash hc
    exact hd (List.cons.inj htail).1
  | sequence u => exact iff_of_true ⟨u, rfl⟩ rfl
  | block u => exact iff_of_false (fun ⟨u, h⟩ => absurd (List.cons.inj h).1 (by decide)) nofun

theorem bar_iff (h : Opens f t) : (∃ u, t = '|' :: u) ↔ f = .block := by
  cases h with
  | mapping key u =>
    exact iff_of_false (fun ⟨u, h⟩ => quote_append_ne (by decide) key _ _ h) nofun
  | line v u =>
    obtain ⟨c, rest, hscalar, hc, -⟩ := head_scalar v
    refine iff_of_false (fun ⟨u, h⟩ => ?_) nofun
    rw [hscalar] at h
    exact hc (List.cons.inj h).1
  | sequence u => exact iff_of_false (fun ⟨u, h⟩ => absurd (List.cons.inj h).1 (by decide)) nofun
  | block u => exact iff_of_true ⟨u, rfl⟩ rfl

theorem key_iff (h : Opens f t) : (∃ key u, t = quote key ++ ':' :: u) ↔ f = .mapping := by
  cases h with
  | mapping key u => exact iff_of_true ⟨key, u, rfl⟩ rfl
  | line v u =>
    refine iff_of_false (fun ⟨key, u', h⟩ => ?_) nofun
    obtain ⟨-, hmark, -⟩ := token_inj (isToken_scalar v) (isToken_quote key) (Or.inr rfl)
      (Or.inl rfl) h
    exact absurd hmark (by decide)
  | sequence u =>
    exact iff_of_false (fun ⟨key, u', h⟩ => quote_append_ne (by decide) key _ _ h.symm) nofun
  | block u =>
    exact iff_of_false (fun ⟨key, u', h⟩ => quote_append_ne (by decide) key _ _ h.symm) nofun

/-- **A text tells the form in which it starts.** -/
theorem unique (hf : Opens f t) (hg : Opens g t) : f = g := by
  have hdash := hf.dash_iff.symm.trans hg.dash_iff
  have hbar := hf.bar_iff.symm.trans hg.bar_iff
  have hkey := hf.key_iff.symm.trans hg.key_iff
  cases f <;> cases g <;> simp_all

end Opens

/-! ## Values -/

section Values

variable {level : Nat} {r r' : List Char}

/-- The entries of a mapping below each other are its text behind the blanks of its first line. -/
theorem blanks_mapping (level : Nat) (m : String × Json) (ms : List (String × Json)) :
    blanks (2 * level) ++ nodeText level (.obj (m :: ms)) = membersText level (m :: ms) := by
  rw [nodeText, membersText]

/-- The entries of a list below each other are its text behind the blanks of its first line. -/
theorem blanks_sequence (level : Nat) (v : Json) (vs : List Json) :
    blanks (2 * level) ++ nodeText level (.arr (v :: vs)) = itemsText level (v :: vs) := by
  rw [nodeText, itemsText]

/-- A line end or blank behind a key tells whether its value is nested, and so where the text of the
value starts. -/
theorem lead_inj {v w : Json}
    (h : lead level v ++ (nodeText level v ++ r) = lead level w ++ (nodeText level w ++ r')) :
    nodeText level v ++ r = nodeText level w ++ r' := by
  unfold lead at h
  split at h <;> split at h
  · exact List.append_cancel_left h
  · exact absurd (List.cons.inj h).1 (by decide)
  · exact absurd (List.cons.inj h).1 (by decide)
  · exact List.append_cancel_left h

/-- Behind the text of a value, one level deeper, more members may follow. -/
theorem ends_membersText (h : Ends (2 * level) r) (ms : List (String × Json)) :
    Ends (2 * (level + 1)) (membersText level ms ++ r) := by
  cases ms with
  | nil => exact h.mono (by omega)
  | cons m ms =>
    obtain ⟨c, rest, hquote, hc⟩ := head_quote m.1.toList
    rw [membersText, hquote, List.append_assoc]
    exact Or.inr ⟨2 * level, c, _, rfl, by omega, fun h => hc (by simp [h]),
      fun h => hc (by simp [h])⟩

/-- Behind the text of a value, one level deeper, more items may follow. -/
theorem ends_itemsText (h : Ends (2 * level) r) (vs : List Json) :
    Ends (2 * (level + 1)) (itemsText level vs ++ r) := by
  cases vs with
  | nil => exact h.mono (by omega)
  | cons v vs =>
    rw [itemsText, List.append_assoc]
    exact Or.inr ⟨2 * level, '-', _, rfl, by omega, by decide, by decide⟩

/-- No member follows the last one. -/
theorem membersText_cons_ne (h : Ends (2 * level) r) (m : String × Json)
    (ms : List (String × Json)) : r ≠ membersText level (m :: ms) ++ r' := by
  obtain ⟨c, rest, hquote, -⟩ := head_quote m.1.toList
  rintro rfl
  rw [membersText, hquote, List.append_assoc] at h
  exact not_ends_blanks _ c _ h

/-- No item follows the last one. -/
theorem itemsText_cons_ne (h : Ends (2 * level) r) (v : Json) (vs : List Json) :
    r ≠ itemsText level (v :: vs) ++ r' := by
  rintro rfl
  rw [itemsText, List.append_assoc] at h
  exact not_ends_blanks _ '-' _ h

/-- Texts in literal blocks. -/
theorem block_inj {s t : String} (hs : isBlock s.toList = true) (ht : isBlock t.toList = true)
    (hr : Ends (2 * level) r) (hr' : Ends (2 * level) r')
    (h : nodeText level (.str s) ++ r = nodeText level (.str t) ++ r') : s = t ∧ r = r' := by
  rw [nodeText, nodeText, if_pos hs, if_pos ht] at h
  have hdepth : 2 * level ≤ 2 * max level 1 := by omega
  obtain ⟨heq, hrest⟩ := Block.written_inj (by omega) (hr.mono hdepth) (hr'.mono hdepth) h
  exact ⟨String.toList_inj.mp heq, hrest⟩

end Values

mutual

/-- **The text of a value tells the value**, whatever follows. -/
theorem nodeText_inj {level : Nat} {r r' : List Char} (hr : Ends (2 * level) r)
    (hr' : Ends (2 * level) r') :
    ∀ v w : Json, nodeText level v ++ r = nodeText level w ++ r' → v = w ∧ r = r'
  | v, w, h => by
    obtain ⟨form, hv, hopens⟩ := exists_form level r v
    obtain ⟨form', hw, hopens'⟩ := exists_form level r' w
    -- the texts are the same, so both values are of one form
    obtain rfl := hopens.unique (h ▸ hopens')
    cases hv with
    | mapping m ms =>
      cases hw with
      | mapping n ns =>
        have hlines := congrArg (blanks (2 * level) ++ ·) h
        simp only [← List.append_assoc, blanks_mapping] at hlines
        obtain ⟨hmembers, hrest⟩ := membersText_inj hr hr' (m :: ms) (n :: ns) hlines
        exact ⟨congrArg Json.obj hmembers, hrest⟩
    | sequence v vs =>
      cases hw with
      | sequence w ws =>
        have hlines := congrArg (blanks (2 * level) ++ ·) h
        simp only [← List.append_assoc, blanks_sequence] at hlines
        obtain ⟨hitems, hrest⟩ := itemsText_inj hr hr' (v :: vs) (w :: ws) hlines
        exact ⟨congrArg Json.arr hitems, hrest⟩
    | block hs =>
      cases hw with
      | block ht =>
        obtain ⟨rfl, hrest⟩ := block_inj hs ht hr hr' h
        exact ⟨rfl, hrest⟩
    | line hflat htext =>
      cases hw with
      | line hflat' htext' =>
        rw [htext, htext', List.append_assoc, List.append_assoc] at h
        obtain ⟨hscalar, -, hrest⟩ := token_inj (isToken_scalar v) (isToken_scalar w) (Or.inr rfl)
          (Or.inr rfl) h
        exact ⟨scalar_inj hflat hflat' hscalar, hrest⟩

/-- The lines of members tell the members. -/
theorem membersText_inj {level : Nat} {r r' : List Char} (hr : Ends (2 * level) r)
    (hr' : Ends (2 * level) r') : ∀ ms ns : List (String × Json),
      membersText level ms ++ r = membersText level ns ++ r' → ms = ns ∧ r = r'
  | [], [], h => ⟨rfl, h⟩
  | [], n :: ns, h => absurd h (membersText_cons_ne hr n ns)
  | m :: ms, [], h => absurd h.symm (membersText_cons_ne hr' m ms)
  | (key, v) :: ms, (key', w) :: ns, h => by
    simp only [membersText, List.append_assoc, List.cons_append] at h
    obtain ⟨hkey, -, htail⟩ := token_inj (isToken_quote _) (isToken_quote _) (Or.inl rfl)
      (Or.inl rfl) (List.append_cancel_left h)
    obtain rfl := String.toList_inj.mp (quote_injective hkey)
    obtain ⟨rfl, hmore⟩ := nodeText_inj (ends_membersText hr ms) (ends_membersText hr' ns) v w
      (lead_inj htail)
    obtain ⟨rfl, hrest⟩ := membersText_inj hr hr' ms ns hmore
    exact ⟨rfl, hrest⟩

/-- The lines of items tell the items. -/
theorem itemsText_inj {level : Nat} {r r' : List Char} (hr : Ends (2 * level) r)
    (hr' : Ends (2 * level) r') : ∀ vs ws : List Json,
      itemsText level vs ++ r = itemsText level ws ++ r' → vs = ws ∧ r = r'
  | [], [], h => ⟨rfl, h⟩
  | [], w :: ws, h => absurd h (itemsText_cons_ne hr w ws)
  | v :: vs, [], h => absurd h.symm (itemsText_cons_ne hr' v vs)
  | v :: vs, w :: ws, h => by
    simp only [itemsText, List.append_assoc, List.cons_append] at h
    have hitem := (List.cons.inj (List.cons.inj (List.append_cancel_left h)).2).2
    obtain ⟨rfl, hmore⟩ := nodeText_inj (ends_itemsText hr vs) (ends_itemsText hr' ws) v w hitem
    obtain ⟨rfl, hrest⟩ := itemsText_inj hr hr' vs ws hmore
    exact ⟨rfl, hrest⟩

end

/-- **Values that differ are written differently**, as documents and, at every level, as members of
a map and as items of a list. -/
theorem written_apart :
    Function.Injective write ∧
      (∀ level, Function.Injective fun m : String × Json => unlines (entryLines level m.1 m.2)) ∧
      ∀ level, Function.Injective fun v : Json => unlines (itemLines level v) := by
  have hends (level : Nat) : Ends (2 * level) [] := Or.inl rfl
  refine ⟨fun v w h => ?_, fun level m n h => ?_, fun level v w h => ?_⟩
  · have htext := congrArg String.toList h
    rw [toList_write, toList_write] at htext
    exact (nodeText_inj (hends 0) (hends 0) v w (congrArg (· ++ []) htext)).1
  · have htext : membersText level [m] ++ [] = membersText level [n] ++ [] := by
      simpa [← unlines_mapLines, mapLines] using h
    exact List.singleton_inj.mp (membersText_inj (hends level) (hends level) [m] [n] htext).1
  · have htext : itemsText level [v] ++ [] = itemsText level [w] ++ [] := by
      simpa [← unlines_seqLines, seqLines] using h
    exact List.singleton_inj.mp (itemsText_inj (hends level) (hends level) [v] [w] htext).1

end OntologyCompiler.Yaml
