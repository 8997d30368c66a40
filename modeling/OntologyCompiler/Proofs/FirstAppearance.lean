import Mathlib.Data.List.Induction
import Mathlib.Data.List.Nodup
import OntologyCompiler.Identifier.PathTemplate
import OntologyCompiler.Proofs.Ordered

/-!
# Each value once

Of the values of a list `distinct` keeps the first appearances. One more value at the end changes
that just if it is new; everything here is an induction over the values from the front, one more at
a time.

* `distinct_snoc`: one more value.
* `firstUse_distinct`: what is kept, and in which order.
* `distinct_append_of_nodup`: of values that are distinct already, those that are new are kept.
* `pairwise_distinct_filterMap`: what is found along a list is kept in the order of the first finds.
-/

namespace OntologyCompiler

variable {α β : Type} [DecidableEq α]

/-- **One more value** is kept if it is new. -/
theorem distinct_snoc (xs : List α) (x : α) :
    distinct (xs ++ [x]) = if x ∈ xs then distinct xs else distinct xs ++ [x] := by
  have hstep : distinct (xs ++ [x]) =
      if x ∈ distinct xs then distinct xs else distinct xs ++ [x] := by
    unfold distinct
    rw [List.foldl_append]
    rfl
  rw [hstep]
  simp only [mem_distinct]

/-- **The values** are kept once each, in the order of their first appearances. -/
theorem firstUse_distinct (xs : List α) : Ordered.FirstUse (distinct xs) xs := by
  induction xs using List.reverseRecOn with
  | nil => exact Ordered.firstUse_nil
  | append_singleton xs x ih =>
    rw [distinct_snoc]
    simpa only [mem_distinct] using ih.snoc x

theorem nodup_distinct (xs : List α) : (distinct xs).Nodup :=
  (firstUse_distinct xs).nodup

/-- Behind other values, of distinct ones those are kept that are new. -/
theorem distinct_append_of_nodup (xs : List α) {ys : List α} (h : ys.Nodup) :
    distinct (xs ++ ys) = distinct xs ++ ys.filter fun y => y ∉ xs := by
  induction ys using List.reverseRecOn with
  | nil => simp
  | append_singleton ys y ih =>
    obtain ⟨hys, -, hnew⟩ := List.nodup_append.mp h
    have hy : y ∉ ys := fun hmem => hnew y hmem y (List.mem_singleton.mpr rfl) rfl
    rw [← List.append_assoc, distinct_snoc, ih hys, List.filter_append]
    by_cases hx : y ∈ xs
    · simp [hx]
    · simp [hx, hy]

/-- **What is found along a list** is kept in the order of the first finds: where one value stands
before another, some find of it comes before every find of the other. -/
theorem pairwise_distinct_filterMap {R : β → β → Prop} {l : List β} (hl : l.Pairwise R)
    (f : β → Option α) : (distinct (l.filterMap f)).Pairwise fun p q =>
      ∃ x ∈ l, f x = some p ∧ ∀ y ∈ l, f y = some q → R x y := by
  induction l using List.reverseRecOn with
  | nil => exact List.Pairwise.nil
  | append_singleton l z ih =>
    obtain ⟨hl, -, hlast⟩ := List.pairwise_append.mp hl
    have hz : ∀ x ∈ l, R x z := fun x hx => hlast x hx z (List.mem_singleton.mpr rfl)
    -- an order that held before the last element holds with it: it comes after all others
    have hold : (distinct (l.filterMap f)).Pairwise fun p q =>
        ∃ x ∈ l ++ [z], f x = some p ∧ ∀ y ∈ l ++ [z], f y = some q → R x y := by
      refine (ih hl).imp fun ⟨x, hx, hp, hq⟩ => ⟨x, List.mem_append_left _ hx, hp, fun y hy h => ?_⟩
      rcases List.mem_append.mp hy with hy | hy
      · exact hq y hy h
      · obtain rfl := List.mem_singleton.mp hy
        exact hz x hx
    rw [List.filterMap_append]
    cases hfind : f z with
    | none => simpa [hfind] using hold
    | some b =>
      rw [List.filterMap_cons_some hfind, List.filterMap_nil, distinct_snoc]
      split
      · exact hold
      · rename_i hnew
        refine List.pairwise_append.mpr ⟨hold, List.pairwise_singleton _ _, fun p hp q hq => ?_⟩
        obtain rfl := List.mem_singleton.mp hq
        obtain ⟨x, hx, hp⟩ := List.mem_filterMap.mp (mem_distinct.mp hp)
        refine ⟨x, List.mem_append_left _ hx, hp, fun y hy h => ?_⟩
        rcases List.mem_append.mp hy with hy | hy
        · exact absurd (List.mem_filterMap.mpr ⟨y, hy, h⟩) hnew
        · obtain rfl := List.mem_singleton.mp hy
          exact hz x hx

end OntologyCompiler
