import Mathlib.Data.List.Basic
import OntologyCompiler.Json.Printer
import OntologyCompiler.Json.Text.Raw

/-!
# Text literals are read back

A character stands in a literal as itself, as a short escape, or as its number; whichever it is, the
reader makes one unit of it, and of the units the text.

* `literalChar_cases`: how one character stands in a literal.
* `textUnits_literalChar`: how it is read.
* `text?_literal`: a literal is read back as its text, whatever follows it.
-/

namespace OntologyCompiler.Json

namespace Raw

/-- The unit that is read for a character of a literal. -/
def TextUnit.IsFor (u : TextUnit) (c : Char) : Prop :=
  u = .char c ∨ u = .code c.toNat ∧ c.toNat < 32

theorem pairUnits_cons {u : TextUnit} {c : Char} (h : u.IsFor c) (units : List TextUnit) :
    pairUnits (u :: units) = (c :: ·) <$> pairUnits units := by
  rcases h with rfl | ⟨rfl, hlow⟩
  · rw [pairUnits]
  · have hplain : c.toNat < 0xD800 ∨ 0xDFFF < c.toNat := Or.inl (by omega)
    conv_lhs => unfold pairUnits
    simp only [if_pos hplain, Char.ofNat_toNat]

/-- A control is spelled by two hexadecimal digits behind two zeros. -/
theorem numeral?_control : ∀ n < 32,
    ((if n < 16 then ['0'] else []) ++ Text.hexDigits n).length = 2 ∧
      Text.numeral? 16 ('0' :: '0' :: ((if n < 16 then ['0'] else []) ++ Text.hexDigits n)) =
        some n := by
  decide

/-- A short escape is read as the character that it stands for. -/
theorem textUnits_short {e c : Char} {rest tail : List Char} {units : List TextUnit} (hu : e ≠ 'u')
    (he : shortEscape? e = some c) (h : textUnits rest = some (units, tail)) :
    textUnits ('\\' :: e :: rest) = some (.char c :: units, tail) := by
  rw [textUnits, he, h]
  exact fun _ _ _ _ _ heq _ => hu heq

/-- An escape by number is read as the number. -/
theorem textUnits_code {a b c d : Char} {rest tail : List Char} {units : List TextUnit} {n : Nat}
    (hn : hexFour? a b c d = some n) (h : textUnits rest = some (units, tail)) :
    textUnits ('\\' :: 'u' :: a :: b :: c :: d :: rest) = some (.code n :: units, tail) := by
  rw [textUnits, hn, h]

/-- Any other character is read as itself. -/
theorem textUnits_plain {c : Char} {rest tail : List Char} {units : List TextUnit} (hq : c ≠ '"')
    (hb : c ≠ '\\') (hc : 32 ≤ c.toNat) (h : textUnits rest = some (units, tail)) :
    textUnits (c :: rest) = some (.char c :: units, tail) := by
  rw [textUnits, if_neg (not_or.mpr ⟨by omega, hb⟩), h]
  · exact hq
  · exact fun _ _ _ _ _ heq _ => hb heq
  · exact fun _ _ heq _ => hb heq

/-- **How a character stands in a literal**: as a short escape, by its number, or as itself. -/
theorem literalChar_cases (c : Char) :
    (∃ e, e ≠ 'u' ∧ shortEscape? e = some c ∧ literalChar c = ['\\', e]) ∨
    (c.toNat < 32 ∧ literalChar c = '\\' :: 'u' :: '0' :: '0' ::
      ((if c.toNat < 16 then ['0'] else []) ++ Text.hexDigits c.toNat)) ∨
    (c ≠ '"' ∧ c ≠ '\\' ∧ 32 ≤ c.toNat ∧ literalChar c = [c]) := by
  have hof : ∀ n, c.toNat = n → c = Char.ofNat n := fun n hn => hn ▸ (Char.ofNat_toNat c).symm
  -- the characters that have a short escape, one by one
  by_cases hquote : c = '"'
  · exact Or.inl ⟨'"', by decide, by rw [hquote]; decide, by rw [hquote]; decide⟩
  by_cases hback : c = '\\'
  · exact Or.inl ⟨'\\', by decide, by rw [hback]; decide, by rw [hback]; decide⟩
  by_cases h8 : c.toNat = 8
  · exact Or.inl ⟨'b', by decide, by rw [hof 8 h8]; decide, by rw [hof 8 h8]; decide⟩
  by_cases htab : c = '\t'
  · exact Or.inl ⟨'t', by decide, by rw [htab]; decide, by rw [htab]; decide⟩
  by_cases hline : c = '\n'
  · exact Or.inl ⟨'n', by decide, by rw [hline]; decide, by rw [hline]; decide⟩
  by_cases h12 : c.toNat = 12
  · exact Or.inl ⟨'f', by decide, by rw [hof 12 h12]; decide, by rw [hof 12 h12]; decide⟩
  by_cases hreturn : c = '\r'
  · exact Or.inl ⟨'r', by decide, by rw [hreturn]; decide, by rw [hreturn]; decide⟩
  unfold literalChar
  rw [if_neg hquote, if_neg hback, if_neg h8, if_neg htab, if_neg hline, if_neg h12,
    if_neg hreturn]
  by_cases hlow : c.toNat < 32
  · exact Or.inr (Or.inl ⟨hlow, by rw [if_pos hlow, List.append_assoc]; rfl⟩)
  · exact Or.inr (Or.inr ⟨hquote, hback, Nat.not_lt.mp hlow, if_neg hlow⟩)

/-- **A character of a literal** is read as one unit, which stands for it. -/
theorem textUnits_literalChar (c : Char) {rest tail : List Char} {units : List TextUnit}
    (h : textUnits rest = some (units, tail)) :
    ∃ u, u.IsFor c ∧ textUnits (literalChar c ++ rest) = some (u :: units, tail) := by
  rcases literalChar_cases c with ⟨e, hu, he, heq⟩ | ⟨hlow, heq⟩ | ⟨hquote, hback, hhigh, heq⟩
  · exact ⟨_, Or.inl rfl, by rw [heq]; exact textUnits_short hu he h⟩
  · obtain ⟨hlength, hvalue⟩ := numeral?_control c.toNat hlow
    obtain ⟨a, b, hdigits⟩ := List.length_eq_two.1 hlength
    rw [hdigits] at hvalue
    refine ⟨.code c.toNat, Or.inr ⟨rfl, hlow⟩, ?_⟩
    rw [heq, hdigits]
    exact textUnits_code hvalue h
  · exact ⟨_, Or.inl rfl, by rw [heq]; exact textUnits_plain hquote hback hhigh h⟩

theorem literal_append (s : String) (rest : List Char) :
    literal s ++ rest = '"' :: (s.toList.flatMap literalChar ++ '"' :: rest) := by
  simp [literal]

/-- No character begins with a quote in a literal. -/
theorem literalChar_head (c : Char) : ∃ d rest, literalChar c = d :: rest ∧ d ≠ '"' := by
  rcases literalChar_cases c with ⟨e, -, -, heq⟩ | ⟨-, heq⟩ | ⟨hquote, -, -, heq⟩
  · exact ⟨_, _, heq, by decide⟩
  · exact ⟨_, _, heq, by decide⟩
  · exact ⟨_, _, heq, hquote⟩

/-- **A literal is read back as its text**, behind its opening quote and whatever follows. -/
theorem text?_literal (s : String) (rest : List Char) :
    text? (s.toList.flatMap literalChar ++ '"' :: rest) = some (some s, rest) := by
  have hunits : ∀ cs : List Char, ∃ units,
      textUnits (cs.flatMap literalChar ++ '"' :: rest) = some (units, rest) ∧
        pairUnits units = some cs := by
    intro cs
    induction cs with
    | nil => exact ⟨[], by rw [List.flatMap_nil, List.nil_append, textUnits], rfl⟩
    | cons c cs ih =>
      obtain ⟨units, hread, hpair⟩ := ih
      obtain ⟨u, hu, hc⟩ := textUnits_literalChar c hread
      refine ⟨u :: units, ?_, ?_⟩
      · rw [List.flatMap_cons, List.append_assoc, hc]
      · rw [pairUnits_cons hu, hpair]
        rfl
  obtain ⟨units, hread, hpair⟩ := hunits s.toList
  simp [text?, hread, hpair]

end Raw
end OntologyCompiler.Json
