import OntologyCompiler.Proofs.DocumentFold
import OntologyCompiler.Proofs.Ordered

/-!
# Merging documents

Merging writes the entries of one map into another: a key keeps the place where it came first, and
where both maps have it, their values are combined. A write to the second map is then a write to the
merge, wherever its key stands. Documents are merged path by path and method by method, and schema
by schema; so a document into which plans were folded in two parts is the merge of the two.

* `merge_change`: changing the second map changes the merge.
* `putAll_put`, `putAll_putAll`: where the later value counts, merging is writing.
* `PathItem.merge_change`: so it is for methods within paths.
* `join_write`, `join_writeAll`: a plan written to the second document is written to both.
* `writeAll_flatten`: plans in several parts make the merge of the parts.
-/

namespace OntologyCompiler

namespace Ordered

variable {κ α : Type} [DecidableEq κ]

/-- The entries of the second map written into the first; where a key has a value, the two are
combined, and else the value is combined with `blank`. -/
def merge (blank : α) (combine : α → α → α) (m n : Ordered κ α) : Ordered κ α :=
  n.foldl (fun m e => change m e.1 blank fun v => combine v e.2) m

theorem merge_cons (blank : α) (combine : α → α → α) (m : Ordered κ α) (k : κ) (v : α)
    (n : Ordered κ α) : merge blank combine m ((k, v) :: n) =
      merge blank combine (change m k blank fun u => combine u v) n := rfl

/-! ## Two writes -/

theorem put_put_self (k : κ) (v w : α) : ∀ m : Ordered κ α, put (put m k v) k w = put m k w
  | [] => by simp [put]
  | (k', v') :: rest => by
    by_cases h : k' = k
    · simp [put, h]
    · simp [put, h, put_put_self k v w rest]

/-- Writing at a key that is there leaves every other write where it would go. -/
theorem put_comm {k q : κ} (h : k ≠ q) (v w : α) :
    ∀ {m : Ordered κ α}, k ∈ keys m → put (put m k v) q w = put (put m q w) k v
  | (k', v') :: rest, hk => by
    by_cases hk' : k' = k
    · subst hk'
      simp [put, h]
    · have hrest : k ∈ keys rest := (List.mem_cons.mp hk).resolve_left (Ne.symm hk')
      by_cases hq : k' = q
      · simp [put, hq, Ne.symm h]
      · simp [put, hk', hq, put_comm h v w hrest]

/-- Two changes at one key are one. -/
theorem change_change_self (m : Ordered κ α) (k : κ) (blank : α) (f g : α → α) :
    change (change m k blank f) k blank g = change m k blank (g ∘ f) := by
  rw [change, change, get?_put_self, put_put_self]
  rfl

theorem change_comm {m : Ordered κ α} {k q : κ} (h : k ≠ q) (hk : k ∈ keys m) (blank : α)
    (f g : α → α) : change (change m k blank f) q blank g =
      change (change m q blank g) k blank f := by
  unfold change
  rw [get?_put_of_ne h, get?_put_of_ne (Ne.symm h), put_comm h _ _ hk]

/-! ## Merges -/

variable {blank : α} {combine : α → α → α}

/-- A key that only the first map has may be changed before or after. -/
theorem merge_change_left {q : κ} (g : α → α) : ∀ {n m : Ordered κ α}, q ∈ keys m → q ∉ keys n →
    merge blank combine (change m q blank g) n = change (merge blank combine m n) q blank g
  | [], _, _, _ => rfl
  | (k, v) :: n, m, hm, hn => by
    have hne : q ≠ k := fun h => hn (h ▸ List.mem_cons_self)
    have hrest : q ∉ keys n := fun h => hn (List.mem_cons_of_mem _ h)
    have hkeep : q ∈ keys (change m k blank fun u => combine u v) := mem_keys_put.mpr (Or.inr hm)
    rw [merge_cons, merge_cons, change_comm hne hm, merge_change_left g hkeep hrest]

/-- **Changing the second map changes the merge**, if the change goes through `combine`. -/
theorem merge_change {k : κ} {g : α → α} (hblank : ∀ u, combine u (g blank) = g u) :
    ∀ {n : Ordered κ α} (m : Ordered κ α), (keys n).Nodup →
      (∀ e ∈ n, ∀ u, combine u (g e.2) = g (combine u e.2)) →
      merge blank combine m (change n k blank g) = change (merge blank combine m n) k blank g
  | [], m, _, _ => by
    show change m k blank (fun u => combine u (g blank)) = change m k blank g
    rw [funext hblank]
  | (k', v) :: n, m, hn, hg => by
    obtain ⟨hk', hrest⟩ := List.nodup_cons.mp hn
    obtain ⟨hv, hg⟩ := List.forall_mem_cons.mp hg
    by_cases h : k' = k
    · subst h
      have hcombine : (fun u => combine u (g v)) = g ∘ fun u => combine u v := funext hv
      have hchange : change ((k', v) :: n) k' blank g = (k', g v) :: n := by
        simp [change, get?, put]
      have hmem : k' ∈ keys (change m k' blank fun u => combine u v) :=
        mem_keys_put.mpr (Or.inl rfl)
      rw [hchange, merge_cons, merge_cons, hcombine, ← change_change_self,
        merge_change_left g hmem hk']
    · have hchange : change ((k', v) :: n) k blank g = (k', v) :: change n k blank g := by
        simp [change, get?, put, h]
      rw [hchange, merge_cons, merge_cons, merge_change hblank _ hrest hg]

/-! ## Merges in which the later value counts -/

/-- Writing many entries is merging them so that the later value counts. -/
theorem putAll_eq_merge (blank : α) (m n : Ordered κ α) :
    putAll m n = merge blank (fun _ v => v) m n := rfl

theorem putAll_put {n : Ordered κ α} (m : Ordered κ α) (hn : (keys n).Nodup) (k : κ) (v : α) :
    putAll m (put n k v) = put (putAll m n) k v := by
  have hput : put n k v = change n k v fun _ => v := rfl
  rw [hput, putAll_eq_merge v, putAll_eq_merge v]
  exact merge_change (fun _ => rfl) m hn fun _ _ _ => rfl

/-- **Entries written to the second map** are written to the merge. -/
theorem putAll_putAll (m : Ordered κ α) : ∀ (entries : List (κ × α)) {n : Ordered κ α},
    (keys n).Nodup → putAll m (putAll n entries) = putAll (putAll m n) entries
  | [], _, _ => rfl
  | (k, v) :: rest, n, hn => by
    rw [putAll_cons, putAll_cons, putAll_putAll m rest (nodup_keys_put hn k v), putAll_put m hn]

end Ordered

namespace PathItem

/-- The paths of two documents together: a path and a method keep the place where they came first,
and of two operations at one path and method the later counts. -/
def merge (m n : Ordered String PathItem) : Ordered String PathItem :=
  Ordered.merge [] Ordered.putAll m n

/-- **An operation written to the second document** is written to the merge. -/
theorem merge_change {n : Ordered String PathItem} (m : Ordered String PathItem)
    (hn : (Ordered.keys n).Nodup) (hverbs : ∀ e ∈ n, (Ordered.keys e.2).Nodup)
    (path verb : String) (op : Operation) :
    merge m (Ordered.change n path [] fun item => Ordered.put item verb op) =
      Ordered.change (merge m n) path [] fun item => Ordered.put item verb op :=
  Ordered.merge_change (fun _ => rfl) m hn fun e he item =>
    Ordered.putAll_put item (hverbs e he) verb op

end PathItem

namespace DocumentState

/-- Two documents together, the first with what the second adds and replaces. -/
def join (d e : DocumentState) : DocumentState where
  paths := PathItem.merge d.paths e.paths
  schemas := Ordered.putAll d.schemas e.schemas
  owners := Ordered.putAll d.owners e.owners
  secured := d.secured || e.secured
  findings := d.findings ++ e.findings

/-- No key of the document is there twice. -/
structure Distinct (d : DocumentState) : Prop extends Tidy d where
  schemas : (Ordered.keys d.schemas).Nodup
  owners : (Ordered.keys d.owners).Nodup

theorem distinct_empty : Distinct {} :=
  ⟨tidy_empty, List.nodup_nil, List.nodup_nil⟩

theorem Distinct.write {d : DocumentState} (h : d.Distinct) (p : ActionPlan) :
    (d.write p).Distinct :=
  ⟨tidy_write h.toTidy p, Ordered.nodup_keys_putAll p.schemas h.schemas,
    Ordered.nodup_keys_put h.owners _ _⟩

theorem join_empty (d : DocumentState) : d.join {} = d := by
  simp [join, PathItem.merge, Ordered.merge, Ordered.putAll]

/-- **A plan written to the second document** is written to both together. -/
theorem join_write (d : DocumentState) {e : DocumentState} (he : e.Distinct) (p : ActionPlan) :
    d.join (e.write p) = (d.join e).write p := by
  simp only [join, DocumentState.write, PathItem.merge_change _ he.paths he.verbs,
    Ordered.putAll_putAll _ _ he.schemas, Ordered.putAll_put _ he.owners, Bool.or_assoc]

theorem join_writeAll (d : DocumentState) : ∀ (ps : List ActionPlan) {e : DocumentState},
    e.Distinct → d.join (e.writeAll ps) = (d.join e).writeAll ps
  | [], _, _ => rfl
  | p :: ps, e, he => by
    rw [writeAll_cons, writeAll_cons, join_writeAll d ps (he.write p), join_write d he]

theorem writeAll_append (d : DocumentState) (ps qs : List ActionPlan) :
    d.writeAll (ps ++ qs) = (d.writeAll ps).writeAll qs :=
  List.foldl_append

/-- **Plans in several parts** make the merge of the documents of the parts. -/
theorem writeAll_flatten (d : DocumentState) : ∀ parts : List (List ActionPlan),
    d.writeAll parts.flatten = (parts.map (({} : DocumentState).writeAll ·)).foldl join d
  | [] => rfl
  | ps :: parts => by
    rw [List.flatten_cons, writeAll_append, writeAll_flatten, List.map_cons, List.foldl_cons,
      join_writeAll d ps distinct_empty, join_empty]

theorem contents_foldl_join (es : List DocumentState) (d : DocumentState) :
    (es.foldl join d).paths = (es.map paths).foldl PathItem.merge d.paths ∧
    (es.foldl join d).schemas = (es.map schemas).foldl Ordered.putAll d.schemas := by
  induction es generalizing d with
  | nil => exact ⟨rfl, rfl⟩
  | cons e es ih => exact ih (d.join e)

end DocumentState
end OntologyCompiler
