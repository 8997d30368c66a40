import OntologyCompiler.Proofs.Json.Literal
import OntologyCompiler.Proofs.Yaml.Token

/-!
# Pretty text on every level

What is written on a deeper level differs from what is written further out only in the blanks behind
the line ends: no literal and no number has a line end of its own.

* `visible_literal`, `visible_digits`: no control stands in a literal or a number.
* `deeper_prettyChars`: a value one level deeper is the value with two more blanks on its lines.
* `holds_prettyChars`: what holds of the parts of a text and of parts put together holds of it.
* `lined_prettyChars`, `prettyChars_last`: line ends are the only controls, and none is the last.
-/

namespace OntologyCompiler.Json

/-! ## Characters of scalars -/

/-- No control stands in a text. -/
def Visible (cs : List Char) : Prop :=
  ∀ c ∈ cs, 32 ≤ c.toNat

theorem Visible.append {cs ds : List Char} (hc : Visible cs) (hd : Visible ds) :
    Visible (cs ++ ds) :=
  fun c h => (List.mem_append.mp h).elim (hc c) (hd c)

theorem Visible.line_not_mem {cs : List Char} (h : Visible cs) : '\n' ∉ cs :=
  fun hmem => absurd (h _ hmem) (by decide)

instance (cs : List Char) : Decidable (Visible cs) :=
  List.decidableBAll _ cs

/-- Characters of a class without controls are visible. -/
theorem visible_class {p : Char → Bool} (hp : ∀ n < 32, p (Char.ofNat n) = false)
    {cs : List Char} (h : ∀ c ∈ cs, p c = true) : Visible cs := by
  intro c hc
  by_contra hlow
  have hcontrol := hp c.toNat (by omega)
  rw [Char.ofNat_toNat, h c hc] at hcontrol
  exact absurd hcontrol (by decide)

theorem visible_hexDigits : ∀ n < 32, Visible (Text.hexDigits n) := by
  decide

theorem visible_literalChar (c : Char) : Visible (literalChar c) := by
  rcases Raw.literalChar_cases c with ⟨e, -, he, heq⟩ | ⟨hlow, heq⟩ | ⟨-, -, hhigh, heq⟩
  · have hshort : 32 ≤ e.toNat := by
      by_contra hlow
      have hne : ∀ d : Char, 32 ≤ d.toNat → e ≠ d := fun d hd hed => hlow (hed ▸ hd)
      simp [Raw.shortEscape?, hne '"' (by decide), hne '\\' (by decide), hne '/' (by decide),
        hne 'b' (by decide), hne 'f' (by decide), hne 'n' (by decide), hne 'r' (by decide),
        hne 't' (by decide)] at he
    rw [heq]
    exact List.forall_mem_cons.mpr ⟨by decide, List.forall_mem_singleton.mpr hshort⟩
  · rw [heq]
    have hpad : Visible (if c.toNat < 16 then ['0'] else []) := by split <;> decide
    have hmark : Visible ['\\', 'u', '0', '0'] := by decide
    exact hmark.append (hpad.append (visible_hexDigits _ hlow))
  · rw [heq]
    exact List.forall_mem_singleton.mpr hhigh

theorem visible_literal (s : String) : Visible (literal s) := by
  have hchars : Visible (s.toList.flatMap literalChar) := by
    intro c hc
    obtain ⟨d, -, hd⟩ := List.mem_flatMap.mp hc
    exact visible_literalChar d c hd
  have hquote : Visible ['"'] := by decide
  exact hquote.append (hchars.append hquote)

theorem visible_digits (n : Number) : Visible n.digits := by
  obtain ⟨negative, c, cs, hdigits, -, hall⟩ := n.digits_form
  rw [hdigits]
  refine Visible.append (by cases negative <;> decide) fun d hd => ?_
  rcases hall d hd with hdigit | hmark
  · have := (Text.toNat_of_isDigit hdigit).1
    omega
  · exact (by decide : Visible ['.', 'e', '+', '-']) d hmark

/-! ## Joined parts -/

/-- The first part of a joined text is in front. -/
theorem exists_joined_cons (sep x : List Char) (rest : List (List Char)) :
    ∃ more, joined sep (x :: rest) = x ++ more := by
  cases rest with
  | nil => exact ⟨[], (List.append_nil x).symm⟩
  | cons y rest => exact ⟨sep ++ joined sep (y :: rest), List.append_assoc ..⟩

theorem joined_cons {sep x : List Char} : ∀ {rest : List (List Char)}, rest ≠ [] →
    joined sep (x :: rest) = x ++ sep ++ joined sep rest
  | [], h => absurd rfl h
  | _ :: _, _ => rfl

/-- What is put in front of the first part is in front of all. -/
theorem joined_append (sep front x : List Char) (rest : List (List Char)) :
    joined sep ((front ++ x) :: rest) = front ++ joined sep (x :: rest) := by
  cases rest with
  | nil => rfl
  | cons y rest => simp only [joined, List.append_assoc]

/-! ## Levels -/

/-- A text with two more blanks behind every line end. -/
def deeper (cs : List Char) : List Char :=
  cs.flatMap fun c => if c = '\n' then ['\n', ' ', ' '] else [c]

theorem deeper_append (cs ds : List Char) : deeper (cs ++ ds) = deeper cs ++ deeper ds :=
  List.flatMap_append

theorem deeper_of_visible {cs : List Char} (h : Visible cs) : deeper cs = cs := by
  have hsame : deeper cs = cs.flatMap fun c => [c] :=
    List.flatMap_congr fun c hc => if_neg fun heq : c = '\n' => h.line_not_mem (heq ▸ hc)
  rw [hsame, List.flatMap_singleton']

theorem deeper_lineStart (level : Nat) : deeper (lineStart level) = lineStart (level + 1) := by
  have hblanks : Visible (List.replicate (2 * level) ' ') := by
    intro c hc
    rw [List.eq_of_mem_replicate hc]
    decide
  show ['\n', ' ', ' '] ++ deeper (List.replicate (2 * level) ' ') = _
  rw [deeper_of_visible hblanks, lineStart, Nat.mul_add, Nat.add_comm, List.replicate_add]
  rfl

theorem deeper_joined {sep : List Char} (hsep : Visible sep) : ∀ parts : List (List Char),
    deeper (joined sep parts) = joined sep (parts.map deeper)
  | [] => rfl
  | [x] => rfl
  | x :: y :: rest => by
    rw [joined, deeper_append, deeper_append, deeper_of_visible hsep, deeper_joined hsep]
    rfl

mutual

/-- **A value one level deeper** has two more blanks on each of its lines but the first. -/
theorem deeper_prettyChars (level : Nat) : ∀ v : Json,
    deeper (prettyChars level v) = prettyChars (level + 1) v
  | .null => rfl
  | .bool true => rfl
  | .bool false => rfl
  | .num n => deeper_of_visible (visible_digits n)
  | .str s => deeper_of_visible (visible_literal s)
  | .arr [] => rfl
  | .arr (v :: rest) => by
    rw [prettyChars, prettyChars, ← deeper_prettyItems (level + 1) (v :: rest),
      ← deeper_joined (by decide), ← deeper_lineStart level]
    simp only [deeper_append]
    rfl
  | .obj [] => rfl
  | .obj (m :: rest) => by
    rw [prettyChars, prettyChars, ← deeper_prettyMembers (level + 1) (m :: rest),
      ← deeper_joined (by decide), ← deeper_lineStart level]
    simp only [deeper_append]
    rfl

theorem deeper_prettyItems (level : Nat) : ∀ items : List Json,
    (prettyItems level items).map deeper = prettyItems (level + 1) items
  | [] => rfl
  | v :: rest => by
    rw [prettyItems, prettyItems, List.map_cons, deeper_append, deeper_lineStart,
      deeper_prettyChars level v, deeper_prettyItems level rest]

theorem deeper_prettyMembers (level : Nat) : ∀ members : List (String × Json),
    (prettyMembers level members).map deeper = prettyMembers (level + 1) members
  | [] => rfl
  | (k, v) :: rest => by
    rw [prettyMembers, prettyMembers, List.map_cons, deeper_append, deeper_append, deeper_append,
      deeper_lineStart, deeper_of_visible (visible_literal k), deeper_of_visible (by decide),
      deeper_prettyChars level v, deeper_prettyMembers level rest]

end

/-! ## Line ends -/

/-- The only controls of a text are line ends. -/
def Lined (cs : List Char) : Prop :=
  ∀ c ∈ cs, c = '\n' ∨ 32 ≤ c.toNat

theorem Visible.lined {cs : List Char} (h : Visible cs) : Lined cs :=
  fun c hc => Or.inr (h c hc)

theorem Lined.append {cs ds : List Char} (hc : Lined cs) (hd : Lined ds) : Lined (cs ++ ds) :=
  fun c h => (List.mem_append.mp h).elim (hc c) (hd c)

theorem Lined.return_not_mem {cs : List Char} (h : Lined cs) : '\r' ∉ cs :=
  fun hmem => absurd (h _ hmem) (by decide)

theorem visible_text {cs : List Char} (h : Visible cs) : Visible (String.ofList cs).toList := by
  rw [String.toList_ofList]
  exact h

/-- The characters of a pretty text outside of literals and numbers. -/
def layout : List Char :=
  "nultrefas[]\x7b\x7d,: \n".toList

/-- What holds of the parts of pretty texts, and of parts put together. -/
structure HoldsOfParts (P : List Char → Prop) : Prop where
  append : ∀ {cs ds}, P cs → P ds → P (cs ++ ds)
  layout : ∀ {cs}, (∀ c ∈ cs, c ∈ layout) → P cs
  number : ∀ n : Number, P n.digits
  literal : ∀ s, P (literal s)

theorem layout_lineStart (level : Nat) : ∀ c ∈ lineStart level, c ∈ layout := by
  intro c hc
  rcases List.mem_cons.mp hc with rfl | hc
  · decide +kernel
  · rw [List.eq_of_mem_replicate hc]
    decide +kernel

section Parts

variable {P : List Char → Prop} (h : HoldsOfParts P)

include h

theorem holds_joined : ∀ {parts : List (List Char)}, (∀ x ∈ parts, P x) → P (joined [','] parts)
  | [], _ => h.layout (by simp [joined])
  | [x], hx => hx x List.mem_cons_self
  | x :: _ :: _, hx =>
    h.append (h.append (hx x List.mem_cons_self) (h.layout (by decide +kernel)))
      (holds_joined fun z hz => hx z (List.mem_cons_of_mem _ hz))

mutual

/-- **What holds of all parts of a pretty text** and of parts put together holds of the text. -/
theorem holds_prettyChars (level : Nat) : ∀ v : Json, P (prettyChars level v)
  | .null => h.layout (by rw [prettyChars]; decide +kernel)
  | .bool true => h.layout (by rw [prettyChars]; decide +kernel)
  | .bool false => h.layout (by rw [prettyChars]; decide +kernel)
  | .num n => h.number n
  | .str s => h.literal s
  | .arr [] => h.layout (by rw [prettyChars]; decide +kernel)
  | .arr (v :: rest) => by
    rw [prettyChars]
    have hitems := holds_joined h (holds_prettyItems (level + 1) (v :: rest))
    have hopen : P ['['] := h.layout (by decide +kernel)
    exact h.append (h.append (h.append hopen hitems) (h.layout (layout_lineStart level)))
      (h.layout (by decide +kernel))
  | .obj [] => h.layout (by rw [prettyChars]; decide +kernel)
  | .obj (m :: rest) => by
    rw [prettyChars]
    have hmembers := holds_joined h (holds_prettyMembers (level + 1) (m :: rest))
    have hopen : P ['{'] := h.layout (by decide +kernel)
    exact h.append (h.append (h.append hopen hmembers) (h.layout (layout_lineStart level)))
      (h.layout (by decide +kernel))

theorem holds_prettyItems (level : Nat) : ∀ items : List Json, ∀ x ∈ prettyItems level items, P x
  | [], _, hx => absurd hx List.not_mem_nil
  | v :: rest, x, hx => by
    rw [prettyItems] at hx
    rcases List.mem_cons.mp hx with rfl | hx
    · exact h.append (h.layout (layout_lineStart level)) (holds_prettyChars level v)
    · exact holds_prettyItems level rest x hx

theorem holds_prettyMembers (level : Nat) : ∀ members : List (String × Json),
    ∀ x ∈ prettyMembers level members, P x
  | [], _, hx => absurd hx List.not_mem_nil
  | (k, v) :: rest, x, hx => by
    rw [prettyMembers] at hx
    rcases List.mem_cons.mp hx with rfl | hx
    · exact h.append (h.append (h.append (h.layout (layout_lineStart level)) (h.literal k))
        (h.layout (by decide +kernel))) (holds_prettyChars level v)
    · exact holds_prettyMembers level rest x hx

end

end Parts

theorem lined_layout : ∀ c ∈ layout, c = '\n' ∨ 32 ≤ c.toNat := by
  decide +kernel

/-- **Line ends are the only controls** in the text of a value. -/
theorem lined_prettyChars (level : Nat) (v : Json) : Lined (prettyChars level v) :=
  holds_prettyChars ⟨Lined.append, fun h c hc => lined_layout c (h c hc),
    fun n => (visible_digits n).lined, fun s => (visible_literal s).lined⟩ level v

theorem Visible.exists_last {cs : List Char} (h : Visible cs) (hne : cs ≠ []) :
    ∃ front c, cs = front ++ [c] ∧ c ≠ '\n' := by
  refine ⟨cs.dropLast, cs.getLast hne, (List.dropLast_concat_getLast hne).symm, fun heq => ?_⟩
  exact h.line_not_mem (heq ▸ List.getLast_mem hne)

/-- The text of a value does not end with a line end. -/
theorem prettyChars_last (level : Nat) (v : Json) :
    ∃ front c, prettyChars level v = front ++ [c] ∧ c ≠ '\n' := by
  cases v with
  | null => exact ⟨['n', 'u', 'l'], 'l', rfl, by decide⟩
  | bool b =>
    cases b
    · exact ⟨['f', 'a', 'l', 's'], 'e', rfl, by decide⟩
    · exact ⟨['t', 'r', 'u'], 'e', rfl, by decide⟩
  | num n =>
    obtain ⟨negative, c, cs, hdigits, -⟩ := n.digits_form
    exact (visible_digits n).exists_last (by simp [hdigits])
  | str s => exact (visible_literal s).exists_last (List.cons_ne_nil _ _)
  | arr items =>
    cases items with
    | nil => exact ⟨['['], ']', rfl, by decide⟩
    | cons v rest => exact ⟨_, ']', prettyChars_arr level (List.cons_ne_nil v rest), by decide⟩
  | obj members =>
    cases members with
    | nil => exact ⟨['{'], '}', rfl, by decide⟩
    | cons m rest => exact ⟨_, '}', prettyChars_obj level (List.cons_ne_nil m rest), by decide⟩

theorem pretty_arr {vs : List Json} (h : vs ≠ []) :
    (arr vs).pretty = String.ofList ('[' :: joined [','] (prettyItems 1 vs)) ++ "\n]" := by
  apply String.toList_injective
  rw [pretty, prettyChars_arr 0 h, String.toList_append, String.toList_ofList,
    String.toList_ofList, List.append_assoc]
  rfl

end OntologyCompiler.Json
