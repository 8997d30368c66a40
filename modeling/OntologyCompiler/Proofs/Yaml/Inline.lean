import OntologyCompiler.Proofs.Yaml.Quoted
import OntologyCompiler.Proofs.Yaml.Quoting

/-!
# A text on one line

What is written for a text on one line is the text itself or a quotation of it. The first is
resolved to a text and to nothing else. The second has one quote at each end and none between them
that is not escaped, and it says the text once its escapes are undone; so it does for every text,
also for one that no document can hold.

* `quote_eq_self_iff`: which texts are written as they are.
* `cutAtQuote?_escaped`: the quote behind a quotation is the first that closes it.
* `unescape?_escaped`: what a quotation says.
* `resolves_as_written`: both kinds of texts.
-/

namespace OntologyCompiler.Yaml

namespace Quoted

/-! ## Quotations -/

/-- What stands in front of the first quote that no backslash escapes, and what stands behind it. -/
def cutAtQuote? : List Char → Option (List Char × List Char)
  | [] => none
  | '\\' :: l :: rest => (cutAtQuote? rest).map fun cut => ('\\' :: l :: cut.1, cut.2)
  | c :: rest =>
    if c = '"' then some ([], rest) else (cutAtQuote? rest).map fun cut => (c :: cut.1, cut.2)

/-- The text that is left when escapes of one letter are undone; none if there are others, or a
quote that is not escaped. -/
def unescape? : List Char → Option (List Char)
  | [] => some []
  | ['\\'] => none
  | '\\' :: l :: rest => do
    let c ← escapes.lookup l
    let cs ← unescape? rest
    return c :: cs
  | c :: rest => if c = '"' then none else (unescape? rest).map (c :: ·)

theorem cutAtQuote?_plain {c : Char} (hslash : c ≠ '\\') (hquote : c ≠ '"') (rest : List Char) :
    cutAtQuote? (c :: rest) = (cutAtQuote? rest).map fun cut => (c :: cut.1, cut.2) := by
  rw [cutAtQuote?.eq_def]
  split
  · exact absurd ‹_› (by simp)
  · exact absurd (List.cons.inj ‹_›).1 hslash
  · obtain ⟨rfl, rfl⟩ := List.cons.inj ‹_›
    rw [if_neg hquote]

theorem unescape?_plain {c : Char} (hslash : c ≠ '\\') (hquote : c ≠ '"') (rest : List Char) :
    unescape? (c :: rest) = (unescape? rest).map (c :: ·) := by
  rw [unescape?.eq_def]
  split
  · exact absurd ‹_› (by simp)
  · exact absurd (List.cons.inj ‹_›).1 hslash
  · exact absurd (List.cons.inj ‹_›).1 hslash
  · obtain ⟨rfl, rfl⟩ := List.cons.inj ‹_›
    rw [if_neg hquote]

/-- The letter that is written for an escaped character is an escape of that character. -/
theorem lookup_letters {c l : Char} (h : (c, l) ∈ letters) : escapes.lookup l = some c := by
  simp only [letters, List.mem_cons, Prod.mk.injEq, List.not_mem_nil, or_false] at h
  rcases h with ⟨rfl, rfl⟩ | ⟨rfl, rfl⟩ | ⟨rfl, rfl⟩ | ⟨rfl, rfl⟩ | ⟨rfl, rfl⟩ <;> rfl

theorem ne_of_notMem_letters {c : Char} (h : c ∉ letters.map Prod.fst) :
    c ≠ '\\' ∧ c ≠ '"' ∧ c ≠ '\n' ∧ c ≠ '\r' ∧ c ≠ '\t' := by
  simpa [letters] using h

/-- **A quotation ends at its own end**: none of its quotes closes it before. -/
theorem cutAtQuote?_escaped (s rest : List Char) :
    cutAtQuote? (s.flatMap escapedChar ++ '"' :: rest) = some (s.flatMap escapedChar, rest) := by
  induction s with
  | nil => rfl
  | cons c s ih =>
    rw [List.flatMap_cons, List.append_assoc]
    rcases escapedChar_cases c with ⟨l, -, hesc⟩ | ⟨hplain, hesc⟩
    · rw [hesc, List.cons_append, List.singleton_append, cutAtQuote?, ih]
      rfl
    · obtain ⟨hslash, hquote, -⟩ := ne_of_notMem_letters hplain
      rw [hesc, List.singleton_append, cutAtQuote?_plain hslash hquote, ih]
      rfl

/-- **A quotation says what was quoted.** -/
theorem unescape?_escaped (s : List Char) : unescape? (s.flatMap escapedChar) = some s := by
  induction s with
  | nil => rfl
  | cons c s ih =>
    rw [List.flatMap_cons]
    rcases escapedChar_cases c with ⟨l, hl, hesc⟩ | ⟨hplain, hesc⟩
    · rw [hesc, List.cons_append, List.singleton_append, unescape?, lookup_letters hl, ih]
      rfl
    · obtain ⟨hslash, hquote, -⟩ := ne_of_notMem_letters hplain
      rw [hesc, List.singleton_append, unescape?_plain hslash hquote, ih]
      rfl

/-- Line ends and tabs are escaped. -/
theorem not_raw_of_mem_escapedChar {c d : Char} (h : d ∈ escapedChar c) :
    d ≠ '\n' ∧ d ≠ '\r' ∧ d ≠ '\t' := by
  rcases escapedChar_cases c with ⟨l, hl, hesc⟩ | ⟨hplain, hesc⟩
  · rw [hesc, List.mem_cons, List.mem_singleton] at h
    rcases h with rfl | rfl
    · decide
    · simp only [letters, List.mem_cons, Prod.mk.injEq, List.not_mem_nil, or_false] at hl
      rcases hl with ⟨-, rfl⟩ | ⟨-, rfl⟩ | ⟨-, rfl⟩ | ⟨-, rfl⟩ | ⟨-, rfl⟩ <;> decide
  · rw [hesc, List.mem_singleton] at h
    exact h ▸ (ne_of_notMem_letters hplain).2.2

end Quoted

/-! ## Both kinds of texts -/

theorem length_le_escaped (s : List Char) : s.length ≤ (s.flatMap escapedChar).length := by
  induction s with
  | nil => exact Nat.le_refl 0
  | cons c s ih =>
    have hpos : 0 < (escapedChar c).length := List.length_pos_of_ne_nil (escapedChar_ne_nil c)
    rw [List.flatMap_cons, List.length_append, List.length_cons]
    omega

/-- A text is written as it is just if it needs no quotes. -/
theorem quote_eq_self_iff (s : List Char) : quote s = s ↔ needsQuotes s = false := by
  constructor
  · intro h
    by_contra hneeds
    have hlength := congrArg List.length h
    have hescaped := length_le_escaped s
    rw [quote, if_pos (by simpa using hneeds), List.length_append, List.length_cons] at hlength
    omega
  · exact quote_plain

/-- What is written is resolved to the text, and to nothing of another type. -/
structure ResolvesToText (s : List Char) : Prop where
  value : Core.value? s = some (.str (String.ofList s))
  notNothing : Core.isNull s = false ∧ s ≠ []
  notTruth : Core.truth? s = none
  notWhole : Core.whole? s = none
  notReal : Core.real? s = none

/-- A quotation of a text: quotes at both ends and none between them that is not escaped, neither
line ends nor tabs, and escapes that are undone to the text. -/
structure Quotes (written s : List Char) : Prop where
  ends : ∃ inner, written = '"' :: (inner ++ ['"']) ∧
    (∀ rest, Quoted.cutAtQuote? (inner ++ '"' :: rest) = some (inner, rest)) ∧
    Quoted.unescape? inner = some s
  notRaw : ∀ c ∈ written, c ≠ '\n' ∧ c ≠ '\r' ∧ c ≠ '\t'

theorem resolvesToText_unquoted {s : List Char} (h : needsQuotes s = false) : ResolvesToText s where
  value := value?_unquoted h
  notNothing := by
    refine ⟨isNull_unquoted h, ?_⟩
    rintro rfl
    exact absurd h (by decide)
  notTruth := truth?_unquoted h
  notWhole := whole?_unquoted h
  notReal := real?_unquoted h

theorem quotes_escaped (s : List Char) : Quotes ('"' :: (s.flatMap escapedChar ++ ['"'])) s where
  ends := ⟨_, rfl, Quoted.cutAtQuote?_escaped s, Quoted.unescape?_escaped s⟩
  notRaw := by
    intro c hc
    rw [List.mem_cons, List.mem_append, List.mem_singleton] at hc
    rcases hc with rfl | hc | rfl
    · decide
    · obtain ⟨d, -, hd⟩ := List.mem_flatMap.mp hc
      exact Quoted.not_raw_of_mem_escapedChar hd
    · decide

/-- **Texts on one line resolve as written.** A text that is left without quotes is resolved to
itself and to nothing of another type; for any other text a quotation of it is written. -/
theorem resolves_as_written (s : List Char) :
    (quote s = s → ResolvesToText s) ∧ (quote s ≠ s → Quotes (quote s) s) := by
  rw [Ne, quote_eq_self_iff, Bool.not_eq_false]
  refine ⟨resolvesToText_unquoted, fun hneeds => ?_⟩
  rw [quote, if_pos hneeds]
  exact quotes_escaped s

/-- A mark of base sixteen without digits of it is no number, and a number in quotes is none. -/
theorem resolves_as_written_hexadecimal :
    (quote "0xyz".toList = "0xyz".toList ∧ ResolvesToText "0xyz".toList) ∧
    (quote "-0x1F\t".toList = "\"-0x1F\\t\"".toList ∧
      Quotes "\"-0x1F\\t\"".toList "-0x1F\t".toList) := by
  have hplain : quote "0xyz".toList = "0xyz".toList := by decide
  have hquoted : quote "-0x1F\t".toList = "\"-0x1F\\t\"".toList := by decide
  refine ⟨⟨hplain, (resolves_as_written _).1 hplain⟩, hquoted, ?_⟩
  rw [← hquoted]
  refine (resolves_as_written _).2 fun hsame => ?_
  rw [hquoted] at hsame
  exact absurd hsame (by decide)

end OntologyCompiler.Yaml
