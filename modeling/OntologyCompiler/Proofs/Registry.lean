import Mathlib.Data.List.Dedup
import Mathlib.Data.List.Perm.Subperm
import Std.Data.String.ToNat
import OntologyCompiler.Identifier.Registry
import OntologyCompiler.Proofs.Ordered

/-!
# What a claim does to the registry

A claim of free identifiers gives them out under every policy. Only a claim of taken ones looks at
the policy: it ends in a failure, takes the identifiers over, or takes the least numbered ones that
are free.

* `holder?_eq_none_iff`: identifiers are free when neither of the two is taken.
* `exists_free_suffixed`, `exists_free_numbered`: one of as many numbers as there are entries, and
  one more, is free.
* `holder?_renamed`, `get?_renamedName`: what a suffix gives is free.
* `renamed_least`, `renamedName_least`: it has the least number from 2 on at which it is free.
* `claim_cases`, `claimName_cases`: all that a successful claim can do.
* `claim_eq_error_iff`, `claimName_eq_error_iff`: a claim fails exactly when it is rejected.
-/

namespace OntologyCompiler

/-- **Pigeonhole for numbered names**: of more numbers than there are taken names, one is free. -/
theorem exists_free_number {β : Type} {name : Nat → β} (hname : Function.Injective name)
    (taken : List β) (low : Nat) : ∃ n, low ≤ n ∧ n ≤ low + taken.length ∧ name n ∉ taken := by
  by_contra hno
  push Not at hno
  have hsub : (List.range' low (taken.length + 1)).map name ⊆ taken := by
    intro b hb
    obtain ⟨n, hn, rfl⟩ := List.mem_map.mp hb
    rw [List.mem_range'_1] at hn
    exact hno n hn.1 (by omega)
  have hnodup : ((List.range' low (taken.length + 1)).map name).Nodup :=
    List.Nodup.map hname List.nodup_range'
  have hle := (hnodup.subperm hsub).length_le
  rw [List.length_map, List.length_range'] at hle
  omega

namespace Identity

theorem suffixed_operationId_injective (i : Identity) :
    Function.Injective fun n => (i.suffixed n).operationId := by
  intro m n h
  exact Nat.repr_injective ((String.append_right_inj _).mp h)

theorem suffixed_stem_injective (i : Identity) :
    Function.Injective fun n => (i.suffixed n).stem := by
  intro m n h
  exact Nat.repr_injective ((String.append_right_inj _).mp h)

end Identity

namespace Registry

/-! ## Identifiers -/

theorem holder?_eq_none_iff {r : Registry} {i : Identity} : r.holder? i = none ↔
    i.operationId ∉ Ordered.keys r.operations ∧ i.stem ∉ Ordered.keys r.stems := by
  rw [← Ordered.get?_eq_none_iff, ← Ordered.get?_eq_none_iff]
  unfold holder?
  cases Ordered.get? r.operations i.operationId <;> simp

/-- Among as many numbers as there are entries and one more, there is one at which both identifiers
are free. -/
theorem exists_free_suffixed (r : Registry) (i : Identity) : ∃ n, 2 ≤ n ∧
    n ≤ 2 + (Ordered.keyCount r.operations + Ordered.keyCount r.stems) ∧
    r.holder? (i.suffixed n) = none := by
  -- a number is taken through its operation identifier or, failing that, through its stem
  let name : Nat → String ⊕ String := fun n =>
    if (i.suffixed n).operationId ∈ Ordered.keys r.operations then .inl (i.suffixed n).operationId
    else .inr (i.suffixed n).stem
  have hname : Function.Injective name := by
    intro m n h
    simp only [name] at h
    split at h <;> split at h
    · exact i.suffixed_operationId_injective (Sum.inl.inj h)
    · exact absurd h Sum.inl_ne_inr
    · exact absurd h Sum.inr_ne_inl
    · exact i.suffixed_stem_injective (Sum.inr.inj h)
  obtain ⟨n, hlo, hhi, hfree⟩ := exists_free_number hname
    ((Ordered.keys r.operations).dedup.map .inl ++ (Ordered.keys r.stems).dedup.map .inr) 2
  rw [List.length_append, List.length_map, List.length_map] at hhi
  refine ⟨n, hlo, hhi, holder?_eq_none_iff.mpr ?_⟩
  simp only [name, List.mem_append, List.mem_map, List.mem_dedup] at hfree
  by_cases hop : (i.suffixed n).operationId ∈ Ordered.keys r.operations
  · exact absurd (Or.inl ⟨_, hop, (if_pos hop).symm⟩) hfree
  · exact ⟨hop, fun hstem => hfree (Or.inr ⟨_, hstem, (if_neg hop).symm⟩)⟩

/-- **A renamed identity is free**: of the numbers that are tried, one belongs to no entry. -/
theorem holder?_renamed (r : Registry) (i : Identity) : r.holder? (r.renamed i) = none := by
  obtain ⟨n, hlo, hhi, hn⟩ := r.exists_free_suffixed i
  have hoperations := Ordered.keyCount_le_length r.operations
  have hstems := Ordered.keyCount_le_length r.stems
  exact Option.isNone_iff_eq_none.mp (@leastFree_isFree
    (fun n => (r.holder? (i.suffixed n)).isNone) _ _ hlo (by omega) (by simp [hn]))

/-- A renamed identity has the least number at which both identifiers are free. -/
theorem renamed_least (r : Registry) (i : Identity) : ∃ n, 2 ≤ n ∧ r.renamed i = i.suffixed n ∧
    r.holder? (i.suffixed n) = none ∧ ∀ m, 2 ≤ m → m < n → r.holder? (i.suffixed m) ≠ none := by
  refine ⟨_, two_le_leastFree _ _, rfl, holder?_renamed r i, fun m hlo hlt hfree => ?_⟩
  have := not_free_of_lt_leastFree hlo hlt
  simp [hfree] at this

theorem keys_operations_record (r : Registry) (label : String) (i : Identity) (q : String) :
    q ∈ Ordered.keys (r.record label i).operations ↔
      q = i.operationId ∨ q ∈ Ordered.keys r.operations :=
  Ordered.mem_keys_put

theorem keys_stems_record (r : Registry) (label : String) (i : Identity) (q : String) :
    q ∈ Ordered.keys (r.record label i).stems ↔ q = i.stem ∨ q ∈ Ordered.keys r.stems :=
  Ordered.mem_keys_put

/-- **What a successful claim can do**: give out what is free, or take over what is held, or take
another identity that is free. -/
theorem claim_cases {r : Registry} {label : String} {i : Identity} {c : Claim Identity}
    {s : Registry} (h : r.claim label i = .ok (c, s)) :
    (r.holder? i = none ∧ c = ⟨i, none⟩ ∧ s = r.record label i) ∨
    (∃ first, r.holder? i = some first ∧ r.policy = .overwrite ∧
      c = ⟨i, some (.identifierReplaced label i.operationId first)⟩ ∧ s = r.record label i) ∨
    (∃ first, r.holder? i = some first ∧ r.policy = .suffix ∧
      c = ⟨r.renamed i,
        some (.identifierRenamed label i.operationId first (r.renamed i).operationId)⟩ ∧
      s = r.record label (r.renamed i)) := by
  unfold claim at h
  cases hheld : r.holder? i with
  | none =>
    simp only [hheld, Except.ok.injEq, Prod.mk.injEq] at h
    exact Or.inl ⟨rfl, h.1.symm, h.2.symm⟩
  | some first =>
    cases hp : r.policy with
    | reject => simp [hheld, hp] at h
    | overwrite =>
      simp only [hheld, hp, Except.ok.injEq, Prod.mk.injEq] at h
      exact Or.inr (Or.inl ⟨first, rfl, rfl, h.1.symm, h.2.symm⟩)
    | suffix =>
      simp only [hheld, hp, Except.ok.injEq, Prod.mk.injEq] at h
      exact Or.inr (Or.inr ⟨first, rfl, rfl, h.1.symm, h.2.symm⟩)

/-- What a claim gives out is recorded. -/
theorem claim_records {r s : Registry} {label : String} {i : Identity} {c : Claim Identity}
    (h : r.claim label i = .ok (c, s)) : s = r.record label c.value := by
  rcases claim_cases h with ⟨-, rfl, rfl⟩ | ⟨_, -, -, rfl, rfl⟩ | ⟨_, -, -, rfl, rfl⟩ <;> rfl

/-- A claim fails exactly when its identifiers are taken and collisions are rejected. -/
theorem claim_eq_error_iff {r : Registry} {label : String} {i : Identity} {e : Failure} :
    r.claim label i = .error e ↔ r.policy = .reject ∧
      ∃ first, r.holder? i = some first ∧
        e = .identifierCollision i.operationId first label := by
  unfold claim
  cases hheld : r.holder? i with
  | none => simp
  | some first => cases hp : r.policy <;> simp [eq_comm]

/-! ## Tool names -/

theorem numbered_injective (toolName : String) : Function.Injective (numbered toolName) :=
  fun _ _ h => Nat.repr_injective ((String.append_right_inj _).mp h)

/-- Among as many numbers as there are tool names and one more, there is one at which a tool name is
free. -/
theorem exists_free_numbered (r : Registry) (toolName : String) : ∃ n, 2 ≤ n ∧
    n ≤ 2 + Ordered.keyCount r.toolNames ∧
    Ordered.get? r.toolNames (numbered toolName n) = none := by
  obtain ⟨n, hlo, hhi, hfree⟩ := exists_free_number (numbered_injective toolName)
    (Ordered.keys r.toolNames).dedup 2
  rw [List.mem_dedup] at hfree
  exact ⟨n, hlo, hhi, Ordered.get?_eq_none_iff.mpr hfree⟩

/-- A renamed tool name is free. -/
theorem get?_renamedName (r : Registry) (toolName : String) :
    Ordered.get? r.toolNames (r.renamedName toolName) = none := by
  obtain ⟨n, hlo, hhi, hn⟩ := r.exists_free_numbered toolName
  have hcount := Ordered.keyCount_le_length r.toolNames
  exact Option.isNone_iff_eq_none.mp (@leastFree_isFree
    (fun n => (Ordered.get? r.toolNames (numbered toolName n)).isNone) _ _ hlo (by omega)
    (by simp [hn]))

/-- A renamed tool name has the least number at which it is free. -/
theorem renamedName_least (r : Registry) (toolName : String) : ∃ n, 2 ≤ n ∧
    r.renamedName toolName = numbered toolName n ∧
    Ordered.get? r.toolNames (numbered toolName n) = none ∧
    ∀ m, 2 ≤ m → m < n → Ordered.get? r.toolNames (numbered toolName m) ≠ none := by
  refine ⟨_, two_le_leastFree _ _, rfl, get?_renamedName r toolName, fun m hlo hlt hfree => ?_⟩
  have := not_free_of_lt_leastFree hlo hlt
  simp [hfree] at this

/-- **What a successful claim of a tool name can do.** -/
theorem claimName_cases {r : Registry} {label toolName : String} {c : Claim String}
    {s : Registry} (h : r.claimName label toolName = .ok (c, s)) :
    (Ordered.get? r.toolNames toolName = none ∧ c = ⟨toolName, none⟩ ∧
      s = r.recordName label toolName) ∨
    (∃ first, Ordered.get? r.toolNames toolName = some first ∧ r.policy = .overwrite ∧
      c = ⟨toolName, some (.toolNameReused label toolName first)⟩ ∧
      s = r.recordName label toolName) ∨
    (∃ first, Ordered.get? r.toolNames toolName = some first ∧ r.policy = .suffix ∧
      c = ⟨r.renamedName toolName,
        some (.toolNameRenamed label toolName first (r.renamedName toolName))⟩ ∧
      s = r.recordName label (r.renamedName toolName)) := by
  unfold claimName at h
  cases hheld : Ordered.get? r.toolNames toolName with
  | none =>
    simp only [hheld, Except.ok.injEq, Prod.mk.injEq] at h
    exact Or.inl ⟨rfl, h.1.symm, h.2.symm⟩
  | some first =>
    cases hp : r.policy with
    | reject => simp [hheld, hp] at h
    | overwrite =>
      simp only [hheld, hp, Except.ok.injEq, Prod.mk.injEq] at h
      exact Or.inr (Or.inl ⟨first, rfl, rfl, h.1.symm, h.2.symm⟩)
    | suffix =>
      simp only [hheld, hp, Except.ok.injEq, Prod.mk.injEq] at h
      exact Or.inr (Or.inr ⟨first, rfl, rfl, h.1.symm, h.2.symm⟩)

/-- What a claim of a tool name gives out is recorded. -/
theorem claimName_records {r s : Registry} {label toolName : String} {c : Claim String}
    (h : r.claimName label toolName = .ok (c, s)) : s = r.recordName label c.value := by
  rcases claimName_cases h with ⟨-, rfl, rfl⟩ | ⟨_, -, -, rfl, rfl⟩ | ⟨_, -, -, rfl, rfl⟩ <;> rfl

/-- A claim of a tool name fails exactly when it is taken and collisions are rejected. -/
theorem claimName_eq_error_iff {r : Registry} {label toolName : String} {e : Failure} :
    r.claimName label toolName = .error e ↔ r.policy = .reject ∧
      ∃ first, Ordered.get? r.toolNames toolName = some first ∧
        e = .identifierCollision toolName first label := by
  unfold claimName
  cases hheld : Ordered.get? r.toolNames toolName with
  | none => simp
  | some first => cases hp : r.policy <;> simp [eq_comm]

end Registry
end OntologyCompiler
