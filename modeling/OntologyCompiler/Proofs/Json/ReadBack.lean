import OntologyCompiler.Proofs.Json.Numeral
import OntologyCompiler.Proofs.Json.Pretty

/-!
# Pretty text is read back

The tree of a pretty text is the value that was written: names and texts character by character,
lists and objects item by item, and numbers as they are read from their digits.

* `Raw.ofJson`: the tree of a written value.
* `value_prettyChars`: a value is read back on every level, whatever follows it.
* `parse_pretty`: a written value is read back.
-/

namespace OntologyCompiler.Json

namespace Raw

mutual

/-- The tree of a written value. -/
def ofJson : Json → Raw
  | .null => .null
  | .bool b => .bool b
  | .num n => ofNumber n
  | .str s => .str s
  | .arr items => .arr (ofItems items) true
  | .obj members => .obj (ofMembers members) true

/-- The trees of the items of a list. -/
def ofItems : List Json → List Raw
  | [] => []
  | v :: rest => ofJson v :: ofItems rest

/-- The names and the trees of the members of an object. -/
def ofMembers : List (String × Json) → List (Option String × Raw)
  | [] => []
  | (k, v) :: rest => (some k, ofJson v) :: ofMembers rest

end

theorem ofItems_eq_map (items : List Json) : ofItems items = items.map ofJson := by
  induction items with
  | nil => rfl
  | cons v rest ih => rw [ofItems, ih, List.map_cons]

/-! ## Gaps -/

theorem skipGap_lineStart (level : Nat) (cs : List Char) :
    skipGap (lineStart level ++ cs) = skipGap cs := by
  refine List.dropWhile_append_of_pos fun c hc => ?_
  rcases List.mem_cons.mp hc with rfl | hc
  · rfl
  · rw [List.eq_of_mem_replicate hc]
    rfl

theorem skipGap_of_mark {c : Char} (h : isGap c = false) (cs : List Char) :
    skipGap (c :: cs) = c :: cs :=
  List.dropWhile_cons_of_neg (by simp [h])

/-- Reading begins behind the gap. -/
theorem value_lineStart (fuel level : Nat) (cs : List Char) :
    value fuel (lineStart level ++ cs) = value fuel cs := by
  cases fuel with
  | zero => rfl
  | succ fuel => rw [value, value, skipGap_lineStart]

theorem members_lineStart (fuel level : Nat) (cs : List Char) :
    members fuel (lineStart level ++ cs) = members fuel cs := by
  cases fuel with
  | zero => rfl
  | succ fuel => rw [members, members, skipGap_lineStart]

/-- What follows a line end or a comma is no part of a number. -/
theorem endsNumber_lineStart (level : Nat) (cs : List Char) :
    EndsNumber (lineStart level ++ cs) := by
  intro c hc
  obtain rfl := Option.some.inj hc
  decide

theorem endsNumber_comma (cs : List Char) : EndsNumber (',' :: cs) := by
  intro c hc
  obtain rfl := Option.some.inj hc
  decide

/-- No list or object is empty in which something begins. -/
theorem emptyRest?_of_mark {close c : Char} (hgap : isGap c = false) (hc : c ≠ close) (level : Nat)
    (cs : List Char) : emptyRest? close (lineStart level ++ c :: cs) = none := by
  rw [emptyRest?, skipGap_lineStart, skipGap_of_mark hgap]
  exact if_neg hc

/-! ## Values -/

/-- A character with which a number begins. -/
def IsNumberHead (c : Char) : Prop :=
  c = '-' ∨ c.isDigit = true

theorem IsNumberHead.ne {c d : Char} (h : IsNumberHead c) (hminus : d ≠ '-')
    (hd : d.isDigit = false) : c ≠ d := by
  rintro rfl
  exact h.elim hminus fun hc => absurd (hc.symm.trans hd) (by decide)

theorem IsNumberHead.not_gap {c : Char} (h : IsNumberHead c) : isGap c = false := by
  have hblank : c ≠ ' ' := h.ne (by decide) (by decide)
  have hline : c ≠ '\n' := h.ne (by decide) (by decide)
  have htab : c ≠ '\t' := h.ne (by decide) (by decide)
  have hreturn : c ≠ '\r' := h.ne (by decide) (by decide)
  simp [isGap, hblank, hline, htab, hreturn]

theorem exists_numberHead (n : Number) : ∃ c rest, n.digits = c :: rest ∧ IsNumberHead c := by
  obtain ⟨negative, c, cs, hdigits, hc, -⟩ := n.digits_form
  cases negative with
  | true => exact ⟨'-', c :: cs, hdigits, Or.inl rfl⟩
  | false => exact ⟨c, cs, hdigits, Or.inr hc⟩

/-- The text of a value begins with a mark, which does not close a list. -/
theorem prettyChars_head (level : Nat) (v : Json) :
    ∃ c rest, prettyChars level v = c :: rest ∧ isGap c = false ∧ c ≠ ']' := by
  cases v with
  | null => exact ⟨'n', _, rfl, by decide, by decide⟩
  | bool b =>
    cases b
    · exact ⟨'f', _, rfl, by decide, by decide⟩
    · exact ⟨'t', _, rfl, by decide, by decide⟩
  | num n =>
    obtain ⟨c, rest, hdigits, hc⟩ := exists_numberHead n
    exact ⟨c, rest, hdigits, hc.not_gap, hc.ne (by decide) (by decide)⟩
  | str s => exact ⟨'"', _, rfl, by decide, by decide⟩
  | arr items => cases items <;> exact ⟨'[', _, rfl, by decide, by decide⟩
  | obj members => cases members <;> exact ⟨'{', _, rfl, by decide, by decide⟩

theorem value_number {c : Char} (hc : IsNumberHead c) (fuel : Nat) (cs : List Char) :
    value (fuel + 1) (c :: cs) = number (c :: cs) := by
  rw [value, skipGap_of_mark hc.not_gap]
  -- no other kind of value begins like a number
  split
  iterate 6
    rename_i heq
    exact absurd (List.cons.inj heq).1 (hc.ne (by decide) (by decide))
  rfl

theorem value_literal (s : String) (fuel : Nat) (rest : List Char) :
    value (fuel + 1) (literal s ++ rest) = (.str s, some rest) := by
  rw [literal_append, value, skipGap_of_mark (by decide)]
  simp only [text?_literal]

/-! ## Steps of the reader -/

section Steps

variable {fuel : Nat} {cs rest after : List Char} {v : Raw} (hv : value fuel cs = (v, some rest))

include hv

theorem items_close (h : skipGap rest = ']' :: after) :
    items (fuel + 1) cs = ([v], some after) := by
  rw [items, hv]
  simp only [h]

theorem items_comma (h : skipGap rest = ',' :: after) :
    items (fuel + 1) cs = (v :: (items fuel after).1, (items fuel after).2) := by
  rw [items, hv]
  simp only [h]

theorem members_close (k : String) (h : skipGap rest = '}' :: after) :
    members (fuel + 1) (literal k ++ ':' :: cs) = ([(some k, v)], some after) := by
  rw [members, literal_append, skipGap_of_mark (by decide)]
  simp only [text?_literal, skipGap_of_mark (show isGap ':' = false by decide), hv, h]

theorem members_comma (k : String) (h : skipGap rest = ',' :: after) :
    members (fuel + 1) (literal k ++ ':' :: cs) =
      ((some k, v) :: (members fuel after).1, (members fuel after).2) := by
  rw [members, literal_append, skipGap_of_mark (by decide)]
  simp only [text?_literal, skipGap_of_mark (show isGap ':' = false by decide), hv, h]

end Steps

theorem value_bracket {cs : List Char} (h : emptyRest? ']' cs = none) (fuel : Nat) :
    value (fuel + 1) ('[' :: cs) =
      (.arr (items fuel cs).1 (items fuel cs).2.isSome, (items fuel cs).2) := by
  rw [value, skipGap_of_mark (by decide)]
  simp only [h]

theorem value_brace {cs : List Char} (h : emptyRest? '}' cs = none) (fuel : Nat) :
    value (fuel + 1) ('{' :: cs) =
      (.obj (members fuel cs).1 (members fuel cs).2.isSome, (members fuel cs).2) := by
  rw [value, skipGap_of_mark (by decide)]
  simp only [h]

/-- Reading begins behind a blank. -/
theorem value_blank (fuel : Nat) (cs : List Char) : value fuel (' ' :: cs) = value fuel cs := by
  cases fuel with
  | zero => rfl
  | succ fuel => rw [value, value]; rfl

/-! ## Written values -/

theorem emptyRest?_prettyItems (level : Nat) (v : Json) (vs : List Json) (cs : List Char) :
    emptyRest? ']' (joined [','] (prettyItems level (v :: vs)) ++ cs) = none := by
  obtain ⟨more, hmore⟩ := exists_joined_cons [','] (lineStart level ++ prettyChars level v)
    (prettyItems level vs)
  obtain ⟨c, rest, hhead, hgap, hc⟩ := prettyChars_head level v
  rw [prettyItems, hmore, hhead, List.append_assoc, List.append_assoc]
  exact emptyRest?_of_mark hgap hc level _

theorem emptyRest?_prettyMembers (level : Nat) (m : String × Json) (ms : List (String × Json))
    (cs : List Char) :
    emptyRest? '}' (joined [','] (prettyMembers level (m :: ms)) ++ cs) = none := by
  obtain ⟨k, v⟩ := m
  obtain ⟨more, hmore⟩ := exists_joined_cons [',']
    (lineStart level ++ literal k ++ [':', ' '] ++ prettyChars level v) (prettyMembers level ms)
  rw [prettyMembers, hmore]
  simp only [List.append_assoc, literal_append]
  exact emptyRest?_of_mark (by decide) (by decide) level _

mutual

/-- **A value is read back** on every level, whatever follows that does not belong to it. -/
theorem value_prettyChars (level : Nat) : ∀ (v : Json) {fuel : Nat} {rest : List Char},
    (prettyChars level v).length < fuel → EndsNumber rest →
    value fuel (prettyChars level v ++ rest) = (ofJson v, some rest)
  | _, 0, _, h, _ => absurd h (Nat.not_lt_zero _)
  | .null, _ + 1, _, _, _ => rfl
  | .bool true, _ + 1, _, _, _ => rfl
  | .bool false, _ + 1, _, _, _ => rfl
  | .num n, fuel + 1, rest, _, hrest => by
    obtain ⟨c, cs, hdigits, hc⟩ := exists_numberHead n
    rw [prettyChars, ofJson, ← number_digits n hrest, hdigits]
    exact value_number hc fuel _
  | .str s, fuel + 1, rest, _, _ => value_literal s fuel rest
  | .arr [], _ + 1, _, _, _ => rfl
  | .arr (v :: vs), fuel + 1, rest, h, _ => by
    rw [prettyChars_arr level (List.cons_ne_nil v vs)] at h ⊢
    simp only [List.length_append, List.length_cons] at h
    have hlength : (joined [','] (prettyItems (level + 1) (v :: vs))).length < fuel := by omega
    have hitems := items_prettyItems (level + 1) level (v :: vs) rest (List.cons_ne_nil v vs)
      hlength
    have hstep := value_bracket (emptyRest?_prettyItems (level + 1) v vs
      (lineStart level ++ ']' :: rest)) fuel
    rw [hitems] at hstep
    simpa only [ofJson, Option.isSome_some, List.append_assoc, List.cons_append,
      List.nil_append] using hstep
  | .obj [], _ + 1, _, _, _ => rfl
  | .obj ((k, v) :: ms), fuel + 1, rest, h, _ => by
    rw [prettyChars_obj level (List.cons_ne_nil (k, v) ms)] at h ⊢
    simp only [List.length_append, List.length_cons] at h
    have hlength : (joined [','] (prettyMembers (level + 1) ((k, v) :: ms))).length < fuel := by
      omega
    have hmembers := members_prettyMembers (level + 1) level ((k, v) :: ms) rest
      (List.cons_ne_nil (k, v) ms) hlength
    have hstep := value_brace (emptyRest?_prettyMembers (level + 1) (k, v) ms
      (lineStart level ++ '}' :: rest)) fuel
    rw [hmembers] at hstep
    simpa only [ofJson, Option.isSome_some, List.append_assoc, List.cons_append,
      List.nil_append] using hstep

/-- **The items of a list are read back** up to its closing bracket. -/
theorem items_prettyItems (level above : Nat) : ∀ (vs : List Json) {fuel : Nat} (rest : List Char),
    vs ≠ [] → (joined [','] (prettyItems level vs)).length < fuel →
    items fuel (joined [','] (prettyItems level vs) ++ (lineStart above ++ ']' :: rest)) =
      (ofItems vs, some rest)
  | [], _, _, h, _ => absurd rfl h
  | _, 0, _, _, h => absurd h (Nat.not_lt_zero _)
  | [v], fuel + 1, rest, _, h => by
    have hlength : (prettyChars level v).length < fuel := by
      simp [prettyItems, joined, lineStart] at h
      omega
    have hv := value_prettyChars level v hlength (endsNumber_lineStart above (']' :: rest))
    rw [← value_lineStart fuel level, ← List.append_assoc] at hv
    exact items_close hv (by rw [skipGap_lineStart, skipGap_of_mark (by decide)])
  | v :: w :: more, fuel + 1, rest, _, h => by
    rw [prettyItems, joined_cons (by simp [prettyItems])] at h ⊢
    simp only [List.length_append, List.length_cons, lineStart] at h
    have hlength : (prettyChars level v).length < fuel := by omega
    have hmore : (joined [','] (prettyItems level (w :: more))).length < fuel := by omega
    have hv := value_prettyChars level v hlength (endsNumber_comma
      (joined [','] (prettyItems level (w :: more)) ++ (lineStart above ++ ']' :: rest)))
    rw [← value_lineStart fuel level, ← List.append_assoc] at hv
    have hstep := items_comma hv (skipGap_of_mark (by decide) _)
    rw [items_prettyItems level above (w :: more) rest (List.cons_ne_nil w more) hmore] at hstep
    simpa only [ofItems, List.append_assoc, List.cons_append, List.nil_append] using hstep

/-- **The members of an object are read back** up to its closing brace. -/
theorem members_prettyMembers (level above : Nat) : ∀ (ms : List (String × Json)) {fuel : Nat}
    (rest : List Char), ms ≠ [] → (joined [','] (prettyMembers level ms)).length < fuel →
    members fuel (joined [','] (prettyMembers level ms) ++ (lineStart above ++ '}' :: rest)) =
      (ofMembers ms, some rest)
  | [], _, _, h, _ => absurd rfl h
  | _, 0, _, _, h => absurd h (Nat.not_lt_zero _)
  | [(k, v)], fuel + 1, rest, _, h => by
    simp only [prettyMembers, joined, List.length_append, List.length_cons, lineStart] at h
    have hlength : (prettyChars level v).length < fuel := by omega
    have hv := value_prettyChars level v hlength (endsNumber_lineStart above ('}' :: rest))
    rw [← value_blank] at hv
    have hstep := members_close hv k (by rw [skipGap_lineStart, skipGap_of_mark (by decide)])
    rw [← members_lineStart _ level] at hstep
    simpa only [prettyMembers, joined, ofMembers, List.append_assoc, List.cons_append,
      List.nil_append] using hstep
  | (k, v) :: m :: more, fuel + 1, rest, _, h => by
    rw [prettyMembers, joined_cons (by simp [prettyMembers])] at h ⊢
    simp only [List.length_append, List.length_cons, lineStart] at h
    have hlength : (prettyChars level v).length < fuel := by omega
    have hmore : (joined [','] (prettyMembers level (m :: more))).length < fuel := by omega
    have hv := value_prettyChars level v hlength (endsNumber_comma
      (joined [','] (prettyMembers level (m :: more)) ++ (lineStart above ++ '}' :: rest)))
    rw [← value_blank] at hv
    have hstep := members_comma hv k (skipGap_of_mark (by decide) _)
    rw [members_prettyMembers level above (m :: more) rest (List.cons_ne_nil m more) hmore,
      ← members_lineStart _ level] at hstep
    simpa only [ofMembers, List.append_assoc, List.cons_append, List.nil_append] using hstep

end

/-- **A written value is read back.** -/
theorem parse_pretty (v : Json) : parse v.pretty.toList = (ofJson v, true) := by
  have hread := value_prettyChars 0 v (Nat.lt_succ_self _) endsNumber_nil
  rw [List.append_nil] at hread
  rw [pretty, String.toList_ofList, parse, hread]
  rfl

end Raw
end OntologyCompiler.Json
