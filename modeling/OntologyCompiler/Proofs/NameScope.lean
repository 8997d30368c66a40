import OntologyCompiler.Code.NameScope
import OntologyCompiler.Proofs.Registry

/-!
# What binding a name does to a scope

A candidate that is free is bound as it is; one that is taken gets the least number from 2 on at
which it is free. Either way the name that is bound was free, so names that are bound one after the
other are distinct, and a finding says so of each that is not its candidate.

* `fresh_cases`, `fresh_notMem`: the name that is bound for a candidate.
* `bind_eq_iff`: all that a step does.
* `binds_of_bind`, `Binds.trans`: what is bound in a step, and by steps one after the other.
* `mem_taken_of_bind`: a candidate is never free behind its step.
* `findings_of_bind`, `length_findings`: what is found in a step, and how much in many.
-/

namespace OntologyCompiler.NameScope

/-! ## The name that is bound -/

theorem numbered_injective (candidate sep : String) :
    Function.Injective (numbered candidate sep) :=
  fun _ _ h => Nat.repr_injective ((String.append_right_inj _).mp h)

/-- **The name for a candidate**: the candidate if it is free, and else the candidate with the
least number from 2 on at which it is free. -/
theorem fresh_cases (s : NameScope) (candidate sep : String) :
    (candidate ∉ s.taken ∧ s.fresh candidate sep = candidate) ∨
    (candidate ∈ s.taken ∧ ∃ n, 2 ≤ n ∧ s.fresh candidate sep = numbered candidate sep n ∧
      numbered candidate sep n ∉ s.taken ∧
      ∀ m, 2 ≤ m → m < n → numbered candidate sep m ∈ s.taken) := by
  unfold fresh
  by_cases h : candidate ∈ s.taken
  · rw [if_pos h]
    refine Or.inr ⟨h, _, two_le_leastFree _ _, rfl, ?_, fun m hlo hlt => ?_⟩
    · obtain ⟨n, hlo, hhi, hn⟩ := exists_free_number (numbered_injective candidate sep) s.taken 2
      simpa using @leastFree_isFree (fun n => !decide (numbered candidate sep n ∈ s.taken))
        _ _ hlo (by omega) (by simpa using hn)
    · simpa using not_free_of_lt_leastFree hlo hlt
  · rw [if_neg h]
    exact Or.inl ⟨h, rfl⟩

theorem fresh_notMem (s : NameScope) (candidate sep : String) :
    s.fresh candidate sep ∉ s.taken := by
  rcases fresh_cases s candidate sep with ⟨h, heq⟩ | ⟨-, n, -, heq, h, -⟩ <;> rwa [heq]

/-- **All that a step does**: it binds the name for the candidate, and says so if it is another. -/
theorem bind_eq_iff {s s' : NameScope} {candidate sep owner name : String} {found : List Finding} :
    s.bind candidate sep owner = (name, found, s') ↔ name = s.fresh candidate sep ∧
      found = (if name = candidate then [] else [.boundOtherwise s.target candidate owner name]) ∧
      s' = { s with taken := name :: s.taken } := by
  unfold bind
  simp only [Prod.mk.injEq]
  constructor
  · rintro ⟨rfl, rfl, rfl⟩
    exact ⟨rfl, rfl, rfl⟩
  · rintro ⟨rfl, rfl, rfl⟩
    exact ⟨rfl, rfl, rfl⟩

/-- A name is its candidate, maybe with a number. -/
def Stems (candidate sep name : String) : Prop :=
  name = candidate ∨ ∃ n, name = numbered candidate sep n

theorem stems_of_bind {s s' : NameScope} {candidate sep owner name : String} {found : List Finding}
    (h : s.bind candidate sep owner = (name, found, s')) : Stems candidate sep name := by
  obtain ⟨rfl, -, -⟩ := bind_eq_iff.mp h
  rcases fresh_cases s candidate sep with ⟨-, heq⟩ | ⟨-, n, -, heq, -⟩
  · exact Or.inl heq
  · exact Or.inr ⟨n, heq⟩

/-- A candidate that is not bound itself was taken. -/
theorem mem_taken_of_fresh_ne {s : NameScope} {candidate sep : String}
    (h : s.fresh candidate sep ≠ candidate) : candidate ∈ s.taken := by
  rcases fresh_cases s candidate sep with ⟨-, heq⟩ | ⟨hmem, -⟩
  · exact absurd heq h
  · exact hmem

/-! ## Steps one after the other -/

/-- From one scope to another some names are bound, each of which was free. -/
structure Binds (s : NameScope) (names : List String) (s' : NameScope) : Prop where
  target : s'.target = s.target
  taken : ∀ n, n ∈ s'.taken ↔ n ∈ names ∨ n ∈ s.taken
  nodup : names.Nodup
  free : ∀ n ∈ names, n ∉ s.taken

/-- **What is bound by two runs** one after the other is distinct. -/
theorem Binds.trans {s s' s'' : NameScope} {xs ys : List String} (h : s.Binds xs s')
    (h' : s'.Binds ys s'') : s.Binds (xs ++ ys) s'' where
  target := h'.target.trans h.target
  taken n := by
    rw [h'.taken, h.taken, List.mem_append]
    exact ⟨fun hn => hn.elim (fun hy => Or.inl (Or.inr hy)) (Or.imp_left Or.inl),
      fun hn => hn.elim (fun ha => ha.elim (fun hx => Or.inr (Or.inl hx)) Or.inl)
        fun hs => Or.inr (Or.inr hs)⟩
  nodup := by
    refine List.nodup_append.mpr ⟨h.nodup, h'.nodup, fun a ha b hb heq => ?_⟩
    exact h'.free b hb ((h.taken b).mpr (Or.inl (heq ▸ ha)))
  free n hn := by
    rcases List.mem_append.mp hn with hx | hy
    · exact h.free n hx
    · exact fun hs => h'.free n hy ((h.taken n).mpr (Or.inr hs))

theorem binds_nil (s : NameScope) : s.Binds [] s :=
  ⟨rfl, fun _ => by simp, List.nodup_nil, fun _ h => absurd h List.not_mem_nil⟩

/-- **A step binds one name.** -/
theorem binds_of_bind {s s' : NameScope} {candidate sep owner name : String} {found : List Finding}
    (h : s.bind candidate sep owner = (name, found, s')) : s.Binds [name] s' := by
  obtain ⟨rfl, -, rfl⟩ := bind_eq_iff.mp h
  exact {
    target := rfl
    taken := fun n => by simp
    nodup := by simp
    free := fun n hn => List.mem_singleton.mp hn ▸ fresh_notMem s candidate sep }

/-- A candidate is taken behind its step, whether it is what was bound or not. -/
theorem mem_taken_of_bind {s s' : NameScope} {candidate sep owner name : String}
    {found : List Finding} (h : s.bind candidate sep owner = (name, found, s')) :
    candidate ∈ s'.taken := by
  rw [(binds_of_bind h).taken]
  obtain ⟨rfl, -, -⟩ := bind_eq_iff.mp h
  by_cases heq : s.fresh candidate sep = candidate
  · exact Or.inl (List.mem_singleton.mpr heq.symm)
  · exact Or.inr (mem_taken_of_fresh_ne heq)

/-! ## What is found -/

/-- A name that is bound, the candidate that it is bound for, and the owner of that. -/
structure Binding where
  candidate : String
  owner : String
  name : String

/-- What is found about a name that is bound: that it is not its candidate, if so. -/
def Binding.finding? (target : CodeTarget) (b : Binding) : Option Finding :=
  if b.name = b.candidate then none
  else some (.boundOtherwise target b.candidate b.owner b.name)

theorem findings_of_bind {s s' : NameScope} {candidate sep owner name : String}
    {found : List Finding} (h : s.bind candidate sep owner = (name, found, s'))
    {target : CodeTarget} (hs : s.target = target) :
    found = [⟨candidate, owner, name⟩].filterMap (Binding.finding? target) := by
  obtain ⟨-, rfl, -⟩ := bind_eq_iff.mp h
  subst hs
  by_cases heq : name = candidate <;> simp [Binding.finding?, heq]

/-- **There are as many findings as names that are not their candidates.** -/
theorem length_findings (target : CodeTarget) (bs : List Binding) :
    (bs.filterMap (Binding.finding? target)).length =
      bs.countP fun b => b.name != b.candidate := by
  induction bs with
  | nil => rfl
  | cons b bs ih =>
    rw [List.filterMap_cons, List.countP_cons, ← ih]
    unfold Binding.finding?
    by_cases h : b.name = b.candidate <;> simp [h]

/-- What is found about a name is a warning. -/
theorem isError_of_mem_findings {target : CodeTarget} {bs : List Binding} {f : Finding}
    (h : f ∈ bs.filterMap (Binding.finding? target)) : f.isError = false := by
  obtain ⟨b, -, hb⟩ := List.mem_filterMap.mp h
  unfold Binding.finding? at hb
  split at hb
  · exact absurd hb (by simp)
  · rw [← Option.some.inj hb]
    rfl

end OntologyCompiler.NameScope
