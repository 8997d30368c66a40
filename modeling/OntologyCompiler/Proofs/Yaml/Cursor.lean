import OntologyCompiler.Yaml.Flow

/-!
# Where reading goes on

Behind what has been read stands the rest of the document: some blanks at the start of a line, and
then the first character of an entry, or nothing at all. Whatever precedes it, skipping the gap in
front of it leads to the same cursor, at which an entry may start.

* `Standing`: what may stand behind the blanks of a line.
* `gapEnd_blanks`, `skipGap_landing`: the way to the landing, which is not passed.
-/

namespace OntologyCompiler.Yaml

/-- Blanks in front of a line. -/
def blanks (count : Nat) : List Char :=
  List.replicate count ' '

theorem blanks_succ (count : Nat) : blanks (count + 1) = ' ' :: blanks count := rfl

/-- A blank more may stand at either end. -/
theorem blanks_append_cons (count : Nat) (cs : List Char) :
    blanks count ++ ' ' :: cs = blanks (count + 1) ++ cs := by
  rw [blanks, blanks, List.replicate_succ', List.append_assoc, List.singleton_append]

/-- What may stand at a column of a line behind blanks: the first character of an entry, or the end
of the text. -/
inductive Standing : Nat → List Char → Prop
  | ended : Standing 0 []
  | entry {column : Nat} {c : Char} {rest : List Char} (hspacing : isSpacing c = false)
      (hbreak : isBreak c = false) (hcomment : c ≠ '#')
      (hmark : column = 0 → c ≠ byteOrderMark) : Standing column (c :: rest)

namespace Cursor

/-- The cursor at an entry of a line, or at the end of the text. -/
def landing (t : List Char) (line column : Nat) : Cursor :=
  ⟨t, line, column, true, 0⟩

/-- Blanks are passed. -/
theorem gapEnd_blanks (count : Nat) (t : List Char) (line column : Nat) (fresh : Bool) :
    gapEnd 0 (blanks count ++ t) line column fresh false =
      gapEnd 0 t line (column + count) fresh false := by
  induction count generalizing column with
  | zero => rfl
  | succ count ih =>
    rw [blanks_succ, List.cons_append, gapEnd, if_neg (by decide), if_pos (by simp), ih]
    congr 1
    omega

/-- What stands behind blanks is not passed. -/
theorem gapEnd_standing {t : List Char} {column : Nat} (h : Standing column t) (line : Nat)
    (fresh : Bool) : gapEnd 0 t line column fresh false = ⟨t, line, column, fresh, 0⟩ := by
  cases h with
  | ended => rfl
  | @entry column c rest hspacing hbreak hcomment hmark =>
    have hblank : c ≠ ' ' := fun h => by simp [h, isSpacing] at hspacing
    have htab : c ≠ '\t' := fun h => by simp [h, isSpacing] at hspacing
    have hbom : ¬ (c = byteOrderMark ∧ column = 0) := fun h => hmark h.2 h.1
    rw [gapEnd, if_neg (by simp [hbreak]), if_neg (by simp [hblank, htab, hbom]), if_neg hcomment]

/-- The end of a line is passed, and so are the blanks of the next one. -/
theorem gapEnd_line {t : List Char} {count : Nat} (h : Standing count t) (line column : Nat)
    (fresh : Bool) : gapEnd 0 ('\n' :: (blanks count ++ t)) line column fresh false =
      landing t (line + 1) count := by
  rw [gapEnd, if_pos (by decide)]
  have hfresh : (fresh || decide (0 = 0)) = true := by simp
  rw [hfresh, gapEnd_blanks, Nat.zero_add, gapEnd_standing h]
  rfl

/-- A landing is not passed. -/
theorem skipGap_landing {t : List Char} {column : Nat} (h : Standing column t) (line : Nat) :
    (landing t line column).skipGap = landing t line column :=
  gapEnd_standing h line true

/-- Skipping blanks passes none where there is none. -/
theorem skipBlanks_of_head {c : Cursor} (h : ∀ d, c.rest.head? = some d → isSpacing d = false) :
    c.skipBlanks = c := by
  obtain ⟨rest, line, column, fresh, depth⟩ := c
  cases rest with
  | nil => rfl
  | cons d rest =>
    have hd : isSpacing d = false := h d rfl
    simp [skipBlanks, hd]

end Cursor
end OntologyCompiler.Yaml
