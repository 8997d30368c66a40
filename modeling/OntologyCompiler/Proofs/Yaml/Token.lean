import OntologyCompiler.Proofs.Yaml.Quoting
import OntologyCompiler.Proofs.Yaml.Scalar

/-!
# Values on one line and where they end

A value that is written on one line, and a key, is a token: a run of characters without colon and
line end, or a text between quotes. The colon or line end behind a token tells where it ends, and
the token tells what was written.

* `token_inj`: texts that start with tokens are the same only if the tokens are.
* `quote_injective`: what is written for a text tells the text.
* `Number.digits_injective`: what is written for a number tells the number.
* `scalar_inj`: what is written for a value without entries tells the value.
-/

namespace OntologyCompiler

open DecimalLiteral

/-! ## Numbers -/

namespace Number

/-- A number is written as a sign, a digit and more characters of decimal numbers. -/
theorem digits_form (n : Number) : ∃ negative c cs, n.digits = sign negative ++ c :: cs ∧
    c.isDigit = true ∧ ∀ d ∈ c :: cs, d.isDigit = true ∨ d ∈ ['.', 'e', '+', '-'] := by
  cases n with
  | whole n =>
    obtain ⟨c, cs, hcons, hc⟩ := Yaml.Core.toDigits_head n.natAbs
    refine ⟨decide (n < 0), c, cs, ?_, hc, fun d hd => Or.inl ?_⟩
    · rw [digits, Yaml.Core.wholeDigits_eq, hcons]
    · exact allDigits_toDigits n.natAbs d (hcons ▸ hd)
  | real x =>
    obtain ⟨cs, d, hcs, hwritten, -⟩ := x.exists_written
    obtain ⟨c, rest, rfl, hc⟩ := hwritten.head
    exact ⟨x.negative, c, rest, hcs, hc, Yaml.Core.written_chars hwritten⟩

/-- Sign and digits can be told apart. -/
theorem sign_inj {negative negative' : Bool} {c d : Char} {cs ds : List Char}
    (hc : c.isDigit = true) (hd : d.isDigit = true)
    (h : sign negative ++ c :: cs = sign negative' ++ d :: ds) :
    negative = negative' ∧ c :: cs = d :: ds := by
  cases negative <;> cases negative'
  · exact ⟨rfl, h⟩
  · obtain ⟨rfl, -⟩ := List.cons.inj h
    exact absurd hc (by decide)
  · obtain ⟨rfl, -⟩ := List.cons.inj h
    exact absurd hd (by decide)
  · exact ⟨rfl, (List.cons.inj h).2⟩

theorem wholeDigits_inj {n m : Int} (h : wholeDigits n = wholeDigits m) : n = m := by
  obtain ⟨c, cs, hn, hc⟩ := Yaml.Core.toDigits_head n.natAbs
  obtain ⟨d, ds, hm, hd⟩ := Yaml.Core.toDigits_head m.natAbs
  rw [Yaml.Core.wholeDigits_eq, Yaml.Core.wholeDigits_eq, hn, hm] at h
  obtain ⟨hsign, hdigits⟩ := sign_inj hc hd h
  have habs : n.natAbs = m.natAbs := by
    rw [← spelled_toDigits n.natAbs, hn, hdigits, ← hm, spelled_toDigits]
  rw [decide_eq_decide] at hsign
  omega

/-- A whole number is not written like a double, which has a point or a power of ten. -/
theorem wholeDigits_ne_digits (n : Int) (x : Double) : wholeDigits n ≠ x.digits := by
  intro h
  obtain ⟨cs, d, hcs, hwritten, -⟩ := x.exists_written
  obtain ⟨mark, hmark, hnot, -⟩ := Yaml.Core.written_mark hwritten
  obtain ⟨c, rest, rfl, hc⟩ := hwritten.head
  obtain ⟨e, es, hn, he⟩ := Yaml.Core.toDigits_head n.natAbs
  rw [Yaml.Core.wholeDigits_eq, hn, hcs] at h
  obtain ⟨-, heq⟩ := sign_inj he hc h
  have hdigit : mark.isDigit = true :=
    allDigits_toDigits n.natAbs mark (by rw [hn, heq]; exact hmark)
  exact absurd (hdigit.symm.trans hnot) (by decide)

/-- **What is written for a number tells the number.** -/
theorem digits_injective : Function.Injective digits := by
  intro n m h
  cases n with
  | whole n =>
    cases m with
    | whole m => rw [wholeDigits_inj h]
    | real y => exact absurd h (wholeDigits_ne_digits n y)
  | real x =>
    cases m with
    | whole m => exact absurd h.symm (wholeDigits_ne_digits m x)
    | real y =>
      have hdigits : x.digits = y.digits := h
      have hx := x.double?_digits
      rw [hdigits, y.double?_digits, Option.some.injEq] at hx
      rw [hx]

/-- A number is written as a literal. -/
theorem isLiteral_digits (n : Number) : isLiteral n.digits = true := by
  cases n with
  | whole n =>
    obtain ⟨c, cs, hcons, -⟩ := Yaml.Core.toDigits_head n.natAbs
    rw [digits, Yaml.Core.wholeDigits_eq]
    refine Yaml.isLiteral_digits ?_ (by rw [hcons]; exact List.cons_ne_nil _ _)
      (allDigits_toDigits _)
    cases decide (n < 0)
    · exact Or.inl rfl
    · exact Or.inr (Or.inl rfl)
  | real x =>
    have hread := x.double?_digits
    rw [digits, isLiteral]
    cases hparse : parse? x.digits with
    | none => simp [hparse] at hread
    | some l => rfl

end Number

namespace Yaml

/-! ## Tokens -/

/-- What is written on one line for a value or a key. -/
inductive IsToken : List Char → Prop
  | bare {c : Char} {t : List Char} (hquote : c ≠ '"')
      (hplain : ∀ d ∈ c :: t, ¬ (d = ':' ∨ d = '\n')) : IsToken (c :: t)
  | quoted (s : List Char) : IsToken ('"' :: (s.flatMap escapedChar ++ ['"']))

/-- Up to the first of some characters, two equal texts are the same. -/
theorem cut_inj {p : Char → Prop} {c d : Char} {r r' : List Char} (hc : p c) (hd : p d) :
    ∀ {t t' : List Char}, (∀ e ∈ t, ¬ p e) → (∀ e ∈ t', ¬ p e) →
      t ++ c :: r = t' ++ d :: r' → t = t' ∧ c = d ∧ r = r'
  | [], [], _, _, h => by
    obtain ⟨rfl, rfl⟩ := List.cons.inj h
    exact ⟨rfl, rfl, rfl⟩
  | [], e :: _, _, ht', h => by
    obtain ⟨rfl, -⟩ := List.cons.inj h
    exact absurd hc (ht' c List.mem_cons_self)
  | e :: _, [], ht, _, h => by
    obtain ⟨rfl, -⟩ := List.cons.inj h
    exact absurd hd (ht e List.mem_cons_self)
  | e :: t, e' :: t', ht, ht', h => by
    obtain ⟨rfl, htail⟩ := List.cons.inj h
    obtain ⟨rfl, hrest⟩ := cut_inj hc hd (fun a ha => ht a (List.mem_cons_of_mem e ha))
      (fun a ha => ht' a (List.mem_cons_of_mem e ha)) htail
    exact ⟨rfl, hrest⟩

/-- In quotes, what stands for a character tells the character. -/
theorem escapedChar_inj {c d : Char} {r r' : List Char}
    (h : escapedChar c ++ r = escapedChar d ++ r') : c = d ∧ r = r' := by
  have hletters : ∀ a ∈ Quoted.letters, ∀ b ∈ Quoted.letters, a.2 = b.2 → a.1 = b.1 := by decide
  have hbackslash : '\\' ∈ Quoted.letters.map Prod.fst := by decide
  rcases Quoted.escapedChar_cases c with ⟨l, hl, hc⟩ | ⟨hplain, hc⟩ <;>
    rcases Quoted.escapedChar_cases d with ⟨m, hm, hd⟩ | ⟨hplain', hd⟩ <;> rw [hc, hd] at h
  · obtain ⟨hlm, hr⟩ := List.cons.inj (List.cons.inj h).2
    exact ⟨hletters _ hl _ hm hlm, hr⟩
  · obtain ⟨rfl, -⟩ := List.cons.inj h
    exact absurd hbackslash hplain'
  · obtain ⟨rfl, -⟩ := List.cons.inj h
    exact absurd hbackslash hplain
  · exact List.cons.inj h

/-- In quotes, no character starts like the closing quote. -/
theorem escapedChar_ne_quote (c : Char) (r r' : List Char) : escapedChar c ++ r ≠ '"' :: r' := by
  have hquote : '"' ∈ Quoted.letters.map Prod.fst := by decide
  rcases Quoted.escapedChar_cases c with ⟨l, -, hc⟩ | ⟨hplain, hc⟩ <;> rw [hc] <;> intro h
  · exact absurd (List.cons.inj h).1 (by decide)
  · obtain ⟨rfl, -⟩ := List.cons.inj h
    exact hplain hquote

/-- **Up to the closing quote** two equal texts stand for the same text. -/
theorem quoted_inj {r r' : List Char} : ∀ {s s' : List Char},
    s.flatMap escapedChar ++ '"' :: r = s'.flatMap escapedChar ++ '"' :: r' → s = s' ∧ r = r'
  | [], [], h => ⟨rfl, (List.cons.inj h).2⟩
  | [], c :: s', h => by
    rw [List.flatMap_cons, List.append_assoc] at h
    exact absurd h.symm (escapedChar_ne_quote c _ _)
  | c :: s, [], h => by
    rw [List.flatMap_cons, List.append_assoc] at h
    exact absurd h (escapedChar_ne_quote c _ _)
  | c :: s, d :: s', h => by
    rw [List.flatMap_cons, List.flatMap_cons, List.append_assoc, List.append_assoc] at h
    obtain ⟨rfl, htail⟩ := escapedChar_inj h
    obtain ⟨rfl, hr⟩ := quoted_inj htail
    exact ⟨rfl, hr⟩

/-- **Texts that start with tokens** are the same only if the tokens are, and what stands behind
them. -/
theorem token_inj {t t' : List Char} {c d : Char} {r r' : List Char} (ht : IsToken t)
    (ht' : IsToken t') (hc : c = ':' ∨ c = '\n') (hd : d = ':' ∨ d = '\n')
    (h : t ++ c :: r = t' ++ d :: r') : t = t' ∧ c = d ∧ r = r' := by
  cases ht with
  | bare hquote hplain =>
    cases ht' with
    | bare _ hplain' => exact cut_inj (p := fun e => e = ':' ∨ e = '\n') hc hd hplain hplain' h
    | quoted s' => exact absurd (List.cons.inj h).1 hquote
  | quoted s =>
    cases ht' with
    | bare hquote' _ => exact absurd (List.cons.inj h).1.symm hquote'
    | quoted s' =>
      have hbody : s.flatMap escapedChar ++ '"' :: (c :: r) =
          s'.flatMap escapedChar ++ '"' :: (d :: r') := by
        simpa using h
      obtain ⟨rfl, hrest⟩ := quoted_inj hbody
      obtain ⟨rfl, rfl⟩ := List.cons.inj hrest
      exact ⟨rfl, rfl, rfl⟩

/-! ## Texts -/

theorem quote_cases (s : List Char) :
    (needsQuotes s = true ∧ quote s = '"' :: (s.flatMap escapedChar ++ ['"'])) ∨
      (needsQuotes s = false ∧ quote s = s) := by
  cases h : needsQuotes s with
  | true => exact Or.inl ⟨rfl, by simp [quote, h]⟩
  | false => exact Or.inr ⟨rfl, quote_plain h⟩

/-- The first character of a text without quotes is no mark. -/
theorem head_unquoted {s : List Char} (h : needsQuotes s = false) :
    ∃ c rest, s = c :: rest ∧ isNeverFirst c = false ∧ ∀ d ∈ s, isNeverPlain d = false := by
  obtain ⟨hne, hplain, hfirst, -⟩ := of_unquoted h
  obtain ⟨c, rest, rfl⟩ := List.exists_cons_of_ne_nil hne
  exact ⟨c, rest, rfl, hfirst c rfl, hplain⟩

theorem isToken_quote (s : List Char) : IsToken (quote s) := by
  rcases quote_cases s with ⟨-, hs⟩ | ⟨hunquoted, hs⟩
  · rw [hs]
    exact .quoted s
  · obtain ⟨c, rest, rfl, hfirst, hplain⟩ := head_unquoted hunquoted
    rw [hs]
    refine .bare ?_ fun d hd => ?_
    · rintro rfl
      exact absurd hfirst (by decide)
    · rintro (rfl | rfl) <;> exact absurd (hplain _ hd) (by decide)

/-- A text that needs quotes and has none is not what is written for a text. -/
theorem quote_ne {s t : List Char} (ht : needsQuotes t = true) (hhead : t.head? ≠ some '"') :
    quote s ≠ t := by
  rintro rfl
  rcases quote_cases s with ⟨-, hs⟩ | ⟨hunquoted, hs⟩
  · exact hhead (by rw [hs]; rfl)
  · rw [hs, hunquoted] at ht
    exact absurd ht (by decide)

/-- **What is written for a text tells the text.** -/
theorem quote_injective : Function.Injective quote := by
  intro s s' h
  rcases quote_cases s with ⟨hquoted, hs⟩ | ⟨hunquoted, hs⟩
  · rcases quote_cases s' with ⟨-, hs'⟩ | ⟨hunquoted', hs'⟩
    · rw [hs, hs'] at h
      exact (quoted_inj (List.cons.inj h).2).1
    · obtain ⟨c, rest, rfl, hfirst, -⟩ := head_unquoted hunquoted'
      rw [hs, hs'] at h
      obtain ⟨rfl, -⟩ := List.cons.inj h
      exact absurd hfirst (by decide)
  · rcases quote_cases s' with ⟨-, hs'⟩ | ⟨-, hs'⟩
    · obtain ⟨c, rest, rfl, hfirst, -⟩ := head_unquoted hunquoted
      rw [hs, hs'] at h
      obtain ⟨rfl, -⟩ := List.cons.inj h
      exact absurd hfirst (by decide)
    · rw [hs, hs'] at h
      exact h

/-! ## Values without entries -/

/-- A number opens with a minus before a digit, or with a digit. -/
theorem head_digits (n : Number) : ∃ c cs, n.digits = c :: cs ∧
    (c.isDigit = true ∨ c = '-' ∧ ∃ d ds, cs = d :: ds ∧ d.isDigit = true) ∧
    ∀ d ∈ c :: cs, d.isDigit = true ∨ d ∈ ['.', 'e', '+', '-'] := by
  obtain ⟨negative, c, cs, hdigits, hc, hchars⟩ := n.digits_form
  cases negative with
  | true =>
    refine ⟨'-', c :: cs, hdigits, Or.inr ⟨rfl, c, cs, rfl, hc⟩, ?_⟩
    rw [List.forall_mem_cons]
    exact ⟨Or.inr (by decide), hchars⟩
  | false => exact ⟨c, cs, hdigits, Or.inl hc, hchars⟩

/-- What is written for each value without entries that is neither a text nor a number. -/
def words : List (List Char × Json) :=
  [.null, .bool true, .bool false, .arr [], .obj []].map fun v => (scalar v, v)

theorem lookup_words {v : Json} (hv : isNested v = false) (hstr : ∀ s, v ≠ .str s)
    (hnum : ∀ n, v ≠ .num n) : words.lookup (scalar v) = some v := by
  cases v with
  | null => rfl
  | bool b => cases b <;> rfl
  | num n => exact absurd rfl (hnum n)
  | str s => exact absurd rfl (hstr s)
  | arr items =>
    cases items with
    | nil => rfl
    | cons => exact absurd hv (by simp [isNested])
  | obj members =>
    cases members with
    | nil => rfl
    | cons => exact absurd hv (by simp [isNested])

theorem lookup_digits (n : Number) : words.lookup n.digits = none := by
  obtain ⟨c, cs, hdigits, hc, -⟩ := head_digits n
  have hopening : ∀ w ∈ words, ∀ d, w.1.head? = some d → d.isDigit = false ∧ d ≠ '-' := by
    decide
  rw [List.lookup_eq_none_iff]
  intro w hw
  rw [bne_iff_ne]
  intro heq
  obtain ⟨hdigit, hminus⟩ := hopening w hw c (by rw [← heq, hdigits]; rfl)
  rcases hc with hc | ⟨rfl, -⟩
  · exact absurd (hc.symm.trans hdigit) (by decide)
  · exact hminus rfl

/-- What is written for a value other than a text would need quotes as a text. -/
theorem needsQuotes_scalar {v : Json} (h : ∀ s, v ≠ .str s) : needsQuotes (scalar v) = true := by
  cases v with
  | null => decide
  | bool b => cases b <;> decide
  | num n =>
    have hnumeric := looksNumeric_of_isLiteral n.isLiteral_digits
    simp [needsQuotes, scalar, hnumeric]
  | str s => exact absurd rfl (h s)
  | arr items => rw [scalar]; decide
  | obj members => rw [scalar]; decide

theorem isToken_scalar (v : Json) : IsToken (scalar v) := by
  cases v with
  | null => exact .bare (by decide) (by decide)
  | bool b => cases b <;> exact .bare (by decide) (by decide)
  | num n =>
    obtain ⟨c, cs, hdigits, hc, hchars⟩ := head_digits n
    rw [scalar, hdigits]
    refine .bare ?_ fun d hd => ?_
    · rintro rfl
      rcases hc with hc | ⟨hc, -⟩ <;> exact absurd hc (by decide)
    · rintro (rfl | rfl) <;> exact absurd (hchars _ hd) (by decide)
  | str s => exact isToken_quote s.toList
  | arr items => exact .bare (by decide) (by decide)
  | obj members => exact .bare (by decide) (by decide)

/-- What is written for a value other than a text is not what is written for a text. -/
theorem scalar_ne_quote {v : Json} (h : ∀ s, v ≠ .str s) (s : List Char) : quote s ≠ scalar v := by
  refine quote_ne (needsQuotes_scalar h) fun hhead => ?_
  cases v with
  | num n =>
    obtain ⟨c, cs, hdigits, hc, -⟩ := head_digits n
    rw [scalar, hdigits] at hhead
    obtain rfl := Option.some.inj hhead
    rcases hc with hc | ⟨hc, -⟩ <;> exact absurd hc (by decide)
  | bool b => cases b <;> exact absurd hhead (by decide)
  | str t => exact h t rfl
  | null | arr _ | obj _ => exact absurd hhead (by simp [scalar])

/-- **What is written for a value without entries** tells the value. -/
theorem scalar_inj {v w : Json} (hv : isNested v = false) (hw : isNested w = false)
    (h : scalar v = scalar w) : v = w := by
  by_cases hstr : ∃ s, v = .str s
  · obtain ⟨s, rfl⟩ := hstr
    by_cases hstr' : ∃ t, w = .str t
    · obtain ⟨t, rfl⟩ := hstr'
      rw [String.toList_inj.mp (quote_injective h)]
    · exact absurd h (scalar_ne_quote (not_exists.mp hstr') s.toList)
  by_cases hstr' : ∃ t, w = .str t
  · obtain ⟨t, rfl⟩ := hstr'
    exact absurd h.symm (scalar_ne_quote (not_exists.mp hstr) t.toList)
  by_cases hnum : ∃ n, v = .num n
  · obtain ⟨n, rfl⟩ := hnum
    by_cases hnum' : ∃ m, w = .num m
    · obtain ⟨m, rfl⟩ := hnum'
      rw [Number.digits_injective h]
    · have hlookup := lookup_words hw (not_exists.mp hstr') (not_exists.mp hnum')
      rw [← h, scalar, lookup_digits] at hlookup
      exact nomatch hlookup
  have hlookup := lookup_words hv (not_exists.mp hstr) (not_exists.mp hnum)
  by_cases hnum' : ∃ m, w = .num m
  · obtain ⟨m, rfl⟩ := hnum'
    rw [h, scalar, lookup_digits] at hlookup
    exact nomatch hlookup
  · rw [h, lookup_words hw (not_exists.mp hstr') (not_exists.mp hnum')] at hlookup
    exact (Option.some.inj hlookup).symm

end Yaml
end OntologyCompiler
