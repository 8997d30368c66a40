/-!
# Numbers for names that are taken

A name that is taken gets a number, the least one from 2 on at which the numbered name is free.
Among as many numbers as there are taken names and one more, there is always such a number.

* `leastFree_isFree`: at the number that is found the name is free, if there is such a number in
  reach.
* `leastFree_le`, `not_free_of_lt_leastFree`: no number below it will do.
* `two_le_leastFree`, `leastFree_le_tries`: where it lies.
-/

namespace OntologyCompiler

/-- The least number from 2 on at which a name is free, out of `tries` numbers; the next one if none
of them is. -/
def leastFree (free : Nat → Bool) (tries : Nat) : Nat :=
  ((List.range' 2 tries).find? free).getD (tries + 2)

theorem exists_find?_free {free : Nat → Bool} {tries n : Nat} (hlo : 2 ≤ n) (hhi : n < tries + 2)
    (h : free n = true) : ∃ m, (List.range' 2 tries).find? free = some m := by
  have hn : n ∈ List.range' 2 tries := by
    rw [List.mem_range'_1]
    omega
  exact Option.isSome_iff_exists.mp (List.find?_isSome.mpr ⟨n, hn, h⟩)

theorem leastFree_isFree {free : Nat → Bool} {tries n : Nat} (hlo : 2 ≤ n) (hhi : n < tries + 2)
    (h : free n = true) : free (leastFree free tries) = true := by
  obtain ⟨m, hf⟩ := exists_find?_free hlo hhi h
  rw [leastFree, hf]
  exact List.find?_some hf

theorem leastFree_le {free : Nat → Bool} {tries n : Nat} (hlo : 2 ≤ n) (h : free n = true)
    (hhi : n < tries + 2) : leastFree free tries ≤ n := by
  obtain ⟨m, hf⟩ := exists_find?_free hlo hhi h
  rw [leastFree, hf, Option.getD_some]
  obtain ⟨_, i, hi, hm, hbefore⟩ := List.find?_eq_some_iff_getElem.mp hf
  rw [List.getElem_range'] at hm
  refine Nat.not_lt.mp fun hlt => ?_
  have hskip := hbefore (n - 2) (by omega)
  rw [List.getElem_range', show 2 + 1 * (n - 2) = n by omega, h] at hskip
  exact absurd hskip (by decide)

theorem leastFree_eq_or_mem (free : Nat → Bool) (tries : Nat) :
    leastFree free tries = tries + 2 ∨ leastFree free tries ∈ List.range' 2 tries := by
  unfold leastFree
  cases hf : (List.range' 2 tries).find? free with
  | none => exact Or.inl rfl
  | some m => exact Or.inr (List.mem_of_find?_eq_some hf)

theorem two_le_leastFree (free : Nat → Bool) (tries : Nat) : 2 ≤ leastFree free tries := by
  rcases leastFree_eq_or_mem free tries with h | h
  · omega
  · exact (List.mem_range'_1.mp h).1

theorem leastFree_le_tries (free : Nat → Bool) (tries : Nat) :
    leastFree free tries ≤ tries + 2 := by
  rcases leastFree_eq_or_mem free tries with h | h
  · omega
  · have := (List.mem_range'_1.mp h).2
    omega

theorem not_free_of_lt_leastFree {free : Nat → Bool} {tries n : Nat} (hlo : 2 ≤ n)
    (h : n < leastFree free tries) : free n = false := by
  have hreach := leastFree_le_tries free tries
  cases hn : free n with
  | false => rfl
  | true =>
    have hle : leastFree free tries ≤ n := leastFree_le hlo hn (by omega)
    omega

end OntologyCompiler
