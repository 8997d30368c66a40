import Mathlib.Data.List.Dedup
import Mathlib.Tactic.Tauto
import OntologyCompiler.Ordered

/-!
# Look-ups in ordered maps

What a map holds after writes, said through `get?` and `keys`.

* `get?_put`: the value at any key after one write.
* `get?_eq_none_iff`, `get?_of_mem`, `mem_of_get?`: look-ups against membership.
* `keyCount_le_length`: a map has no more keys than entries.
* `mem_keys_putAll`, `get?_putAll_of_mem`, `get?_putAll_of_notMem`: many writes one after the other.
* `get?_putAll`: the last write of a key wins.
* `put_mapValues`, `get?_mapValues`: maps with every value changed.
* `FirstUse.put`, `FirstUse.putAll`: keys stand in the order of their first writes.
-/

namespace OntologyCompiler.Ordered

variable {κ α : Type} [DecidableEq κ]

theorem get?_put (m : Ordered κ α) (k q : κ) (v : α) :
    get? (put m k v) q = if k = q then some v else get? m q := by
  by_cases h : k = q
  · rw [if_pos h, h, get?_put_self]
  · rw [if_neg h, get?_put_of_ne h]

theorem get?_eq_none_iff {q : κ} : ∀ {m : Ordered κ α}, get? m q = none ↔ q ∉ keys m
  | [] => by simp [get?, keys]
  | (k, v) :: rest => by
    have ih := get?_eq_none_iff (q := q) (m := rest)
    by_cases h : k = q
    · simp [get?, keys, h]
    · simp only [get?, if_neg h, ih, keys, List.map_cons, List.mem_cons, not_or]
      exact ⟨fun hr => ⟨fun hq => h hq.symm, hr⟩, fun hr => hr.2⟩

theorem mem_of_get? {q : κ} {v : α} : ∀ {m : Ordered κ α}, get? m q = some v → (q, v) ∈ m
  | [], h => by simp [get?] at h
  | (k, w) :: rest, h => by
    by_cases hk : k = q
    · simp only [get?, if_pos hk, Option.some.injEq] at h
      rw [hk, h]
      exact List.mem_cons_self
    · rw [get?, if_neg hk] at h
      exact List.mem_cons_of_mem _ (mem_of_get? h)

theorem get?_of_mem {q : κ} {v : α} :
    ∀ {m : Ordered κ α}, (keys m).Nodup → (q, v) ∈ m → get? m q = some v
  | (k, w) :: rest, hd, h => by
    rw [keys, List.map_cons, List.nodup_cons] at hd
    rcases List.mem_cons.mp h with he | hr
    · obtain ⟨rfl, rfl⟩ := Prod.mk.inj he
      simp [get?]
    · have hne : k ≠ q := fun hk => hd.1 (List.mem_map.mpr ⟨(q, v), hr, hk.symm⟩)
      rw [get?, if_neg hne]
      exact get?_of_mem hd.2 hr

/-- A new key goes to the end. -/
theorem put_of_notMem {k : κ} {v : α} : ∀ {m : Ordered κ α}, k ∉ keys m → put m k v = m ++ [(k, v)]
  | [], _ => rfl
  | (k', v') :: rest, h => by
    have hne : k' ≠ k := fun heq => h (heq ▸ List.mem_cons_self)
    have hrest : k ∉ keys rest := fun hmem => h (List.mem_cons_of_mem k' hmem)
    rw [put, if_neg hne, put_of_notMem hrest]
    rfl

theorem mem_keys_put {m : Ordered κ α} {k q : κ} {v : α} :
    q ∈ keys (put m k v) ↔ q = k ∨ q ∈ keys m := by
  rw [keys_put]
  split
  · rename_i hk
    exact ⟨Or.inr, fun h => h.elim (fun he => he ▸ hk) id⟩
  · rw [List.mem_append, List.mem_singleton, or_comm]

/-- An entry after a write is the written one or an entry from before. -/
theorem mem_put {k : κ} {v : α} {e : κ × α} : ∀ {m : Ordered κ α},
    e ∈ put m k v → e = (k, v) ∨ e ∈ m
  | [], h => Or.inl (by simpa [put] using h)
  | (k', v') :: rest, h => by
    by_cases hk : k' = k
    · rw [put, if_pos hk, List.mem_cons] at h
      exact h.imp_right (List.mem_cons_of_mem _)
    · rw [put, if_neg hk, List.mem_cons] at h
      rcases h with rfl | hr
      · exact Or.inr List.mem_cons_self
      · exact (mem_put hr).imp_right (List.mem_cons_of_mem _)

/-- How many keys a map has. -/
def keyCount (m : Ordered κ α) : Nat :=
  (keys m).dedup.length

theorem keyCount_le_length (m : Ordered κ α) : keyCount m ≤ m.length :=
  calc keyCount m ≤ (keys m).length := (List.dedup_sublist (keys m)).length_le
    _ = m.length := List.length_map _

/-! ## Many writes -/

theorem putAll_cons (m : Ordered κ α) (k : κ) (v : α) (entries : List (κ × α)) :
    putAll m ((k, v) :: entries) = putAll (put m k v) entries := rfl

theorem mem_keys_putAll {q : κ} : ∀ {entries : List (κ × α)} {m : Ordered κ α},
    q ∈ keys (putAll m entries) ↔ q ∈ keys m ∨ q ∈ entries.map Prod.fst
  | [], m => by simp [putAll]
  | (k, v) :: rest, m => by
    rw [putAll_cons, mem_keys_putAll, mem_keys_put, List.map_cons, List.mem_cons]
    tauto

theorem nodup_keys_putAll : ∀ (entries : List (κ × α)) {m : Ordered κ α},
    (keys m).Nodup → (keys (putAll m entries)).Nodup
  | [], _, h => h
  | (k, v) :: rest, _, h => nodup_keys_putAll rest (nodup_keys_put h k v)

theorem get?_putAll_of_notMem {q : κ} : ∀ {entries : List (κ × α)} {m : Ordered κ α},
    q ∉ entries.map Prod.fst → get? (putAll m entries) q = get? m q
  | [], _, _ => rfl
  | (k, v) :: rest, m, h => by
    rw [List.map_cons, List.mem_cons, not_or] at h
    rw [putAll_cons, get?_putAll_of_notMem h.2, get?_put, if_neg (Ne.symm h.1)]

theorem get?_putAll_of_mem {q : κ} {v : α} : ∀ {entries : List (κ × α)} {m : Ordered κ α},
    (entries.map Prod.fst).Nodup → (q, v) ∈ entries → get? (putAll m entries) q = some v
  | (k, w) :: rest, m, hd, h => by
    rw [List.map_cons, List.nodup_cons] at hd
    rw [putAll_cons]
    rcases List.mem_cons.mp h with he | hr
    · obtain ⟨rfl, rfl⟩ := Prod.mk.inj he
      rw [get?_putAll_of_notMem hd.1, get?_put_self]
    · exact get?_putAll_of_mem hd.2 hr

/-! ## The last write -/

/-- The value that the last of some entries at a key gives to it. -/
def last? (entries : List (κ × α)) (q : κ) : Option α :=
  (entries.filter fun e => e.1 == q).getLast?.map Prod.snd

theorem last?_append (xs ys : List (κ × α)) (q : κ) :
    last? (xs ++ ys) q = (last? ys q).or (last? xs q) := by
  unfold last?
  rw [List.filter_append, List.getLast?_append]
  cases (ys.filter fun e => e.1 == q).getLast? <;> rfl

theorem last?_cons (k : κ) (v : α) (rest : List (κ × α)) (q : κ) :
    last? ((k, v) :: rest) q = (last? rest q).or (if k = q then some v else none) := by
  rw [← List.singleton_append, last?_append]
  by_cases h : k = q <;> simp [last?, h]

theorem last?_eq_none_iff {entries : List (κ × α)} {q : κ} :
    last? entries q = none ↔ q ∉ entries.map Prod.fst := by
  unfold last?
  rw [Option.map_eq_none_iff, List.getLast?_eq_none_iff, List.filter_eq_nil_iff]
  simp only [beq_iff_eq, List.mem_map, not_exists, not_and]

/-- **The last write wins**; what is not written stays. -/
theorem get?_putAll (q : κ) : ∀ (entries : List (κ × α)) (m : Ordered κ α),
    get? (putAll m entries) q = (last? entries q).or (get? m q)
  | [], _ => rfl
  | (k, v) :: rest, m => by
    rw [putAll_cons, get?_putAll q rest, get?_put, last?_cons]
    by_cases h : k = q <;> simp [h]

/-! ## Every value changed -/

section MapValues

variable {β : Type}

/-- The same keys with other values. -/
def mapValues (f : α → β) (m : Ordered κ α) : Ordered κ β :=
  m.map fun e => (e.1, f e.2)

theorem get?_mapValues (f : α → β) (q : κ) :
    ∀ m : Ordered κ α, get? (mapValues f m) q = (get? m q).map f
  | [] => rfl
  | (k, v) :: rest => by
    have ih := get?_mapValues f q rest
    by_cases h : k = q
    · simp [mapValues, get?, h]
    · simpa [mapValues, get?, h] using ih

/-- **A changed value is written** to the changed map. -/
theorem put_mapValues (f : α → β) (k : κ) (v : α) :
    ∀ m : Ordered κ α, put (mapValues f m) k (f v) = mapValues f (put m k v)
  | [] => rfl
  | (k', v') :: rest => by
    have ih := put_mapValues f k v rest
    by_cases h : k' = k
    · simp [mapValues, put, h]
    · simpa [mapValues, put, h] using ih

theorem last?_mapValues (f : α → β) (q : κ) :
    ∀ m : Ordered κ α, last? (mapValues f m) q = (last? m q).map f
  | [] => rfl
  | (k, v) :: rest => by
    have ih := last?_mapValues f q rest
    have hcons : mapValues f ((k, v) :: rest) = (k, f v) :: mapValues f rest := rfl
    rw [hcons, last?_cons, last?_cons, ih]
    cases last? rest q <;> by_cases h : k = q <;> simp [h]

end MapValues

/-! ## Order of first use -/

/-- The keys are those in use, each once, in the order in which they came into use. -/
structure FirstUse (ks uses : List κ) : Prop where
  mem_iff : ∀ k, k ∈ ks ↔ k ∈ uses
  order : ks.Pairwise fun a b => uses.idxOf a < uses.idxOf b

theorem firstUse_nil : FirstUse ([] : List κ) [] :=
  ⟨fun _ => Iff.rfl, List.Pairwise.nil⟩

theorem FirstUse.nodup {ks uses : List κ} (h : FirstUse ks uses) : ks.Nodup :=
  h.order.imp fun hlt heq => absurd (heq ▸ hlt) (Nat.lt_irrefl _)

/-- **One more use**: a key in use keeps its place, a new one goes to the end. -/
theorem FirstUse.snoc {ks uses : List κ} (h : FirstUse ks uses) (k : κ) :
    FirstUse (if k ∈ ks then ks else ks ++ [k]) (uses ++ [k]) := by
  -- the places of the keys so far stay what they are
  have hold : ∀ a ∈ ks, (uses ++ [k]).idxOf a = uses.idxOf a :=
    fun a ha => List.idxOf_append_of_mem ((h.mem_iff a).mp ha)
  have horder : ks.Pairwise fun a b => (uses ++ [k]).idxOf a < (uses ++ [k]).idxOf b :=
    h.order.imp_of_mem fun ha hb hlt => by rw [hold _ ha, hold _ hb]; exact hlt
  by_cases hk : k ∈ ks
  · rw [if_pos hk]
    refine ⟨fun a => ?_, horder⟩
    rw [List.mem_append, List.mem_singleton, h.mem_iff]
    exact ⟨Or.inl, fun ha => ha.elim id fun heq => heq ▸ (h.mem_iff k).mp hk⟩
  · rw [if_neg hk]
    refine ⟨fun a => ?_, ?_⟩
    · rw [List.mem_append, List.mem_append, h.mem_iff]
    · rw [List.pairwise_append]
      refine ⟨horder, List.pairwise_singleton _ _, fun a ha b hb => ?_⟩
      rw [List.mem_singleton] at hb
      subst hb
      have hnot : b ∉ uses := fun hmem => hk ((h.mem_iff b).mpr hmem)
      rw [hold a ha, List.idxOf_append_of_notMem hnot]
      have := List.idxOf_lt_length_of_mem ((h.mem_iff a).mp ha)
      omega

theorem FirstUse.put {m : Ordered κ α} {uses : List κ} (h : FirstUse (keys m) uses) (k : κ)
    (v : α) : FirstUse (keys (put m k v)) (uses ++ [k]) := by
  rw [keys_put]
  exact h.snoc k

theorem FirstUse.putAll : ∀ (entries : List (κ × α)) {m : Ordered κ α} {uses : List κ},
    FirstUse (keys m) uses → FirstUse (keys (putAll m entries)) (uses ++ entries.map Prod.fst)
  | [], _, _, h => by simpa [Ordered.putAll] using h
  | (k, v) :: rest, _, uses, h => by
    rw [putAll_cons, List.map_cons, List.append_cons]
    exact FirstUse.putAll rest (h.put k v)

end OntologyCompiler.Ordered
