/-!
# Maps that keep the order of first insertion

A map is a list of entries, one per key. `put` writes an entry: a new key goes to the end, a key
that is there already keeps its place and takes the new value.

* `get?_put_self`, `get?_put_of_ne`: what a write does to a look-up.
* `keys_put`: the keys after a write; so keys stay distinct (`nodup_keys_put`).
-/

namespace OntologyCompiler

/-- The entries of a map, in the order in which their keys were first written. -/
abbrev Ordered (κ α : Type) := List (κ × α)

namespace Ordered

variable {κ α : Type} [DecidableEq κ]

/-- The value at a key. -/
def get? : Ordered κ α → κ → Option α
  | [], _ => none
  | (k, v) :: rest, q => if k = q then some v else get? rest q

/-- Write the value at a key. -/
def put : Ordered κ α → κ → α → Ordered κ α
  | [], k, v => [(k, v)]
  | (k', v') :: rest, k, v => if k' = k then (k, v) :: rest else (k', v') :: put rest k v

/-- Write many entries, one after the other. -/
def putAll (m : Ordered κ α) (entries : List (κ × α)) : Ordered κ α :=
  entries.foldl (fun m e => put m e.1 e.2) m

/-- Change the value at a key, starting from `blank` where there is none. -/
def change (m : Ordered κ α) (k : κ) (blank : α) (f : α → α) : Ordered κ α :=
  put m k (f ((get? m k).getD blank))

/-- The keys in order. -/
def keys (m : Ordered κ α) : List κ :=
  m.map Prod.fst

theorem get?_put_self (k : κ) (v : α) : ∀ m : Ordered κ α, get? (put m k v) k = some v
  | [] => by simp [put, get?]
  | (k', v') :: rest => by
    by_cases h : k' = k
    · simp [put, get?, h]
    · simp [put, get?, h, get?_put_self k v rest]

theorem get?_put_of_ne {k q : κ} (h : k ≠ q) (v : α) :
    ∀ m : Ordered κ α, get? (put m k v) q = get? m q
  | [] => by simp [put, get?, h]
  | (k', v') :: rest => by
    by_cases hk : k' = k
    · subst hk
      simp [put, get?, h]
    · simp [put, get?, hk, get?_put_of_ne h v rest]

theorem keys_put (k : κ) (v : α) :
    ∀ m : Ordered κ α, keys (put m k v) = if k ∈ keys m then keys m else keys m ++ [k]
  | [] => by simp [put, keys]
  | (k', v') :: rest => by
    have ih := keys_put k v rest
    by_cases hk : k' = k
    · subst hk
      simp [put, keys]
    · have hne : ¬ k = k' := fun h => hk h.symm
      simp only [keys] at ih ⊢
      by_cases hmem : k ∈ rest.map Prod.fst
      · simp only [hmem, if_true] at ih
        simp [put, hk, ih, hmem]
      · simp only [hmem, if_false] at ih
        simp [put, hk, ih, hmem, hne]

theorem nodup_keys_put {m : Ordered κ α} (h : (keys m).Nodup) (k : κ) (v : α) :
    (keys (put m k v)).Nodup := by
  rw [keys_put]
  split
  · exact h
  · rename_i hk
    rw [List.nodup_append]
    refine ⟨h, by simp, fun a ha b hb => ?_⟩
    rw [List.mem_singleton] at hb
    subst hb
    exact fun hab => hk (hab ▸ ha)

end Ordered
end OntologyCompiler
