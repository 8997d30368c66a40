import OntologyCompiler.Proofs.NameScope

/-!
# Loops that look for a free name

Where a name is taken, it is tried with one number after the other until the numbered name is free.
Nothing in such a loop grows smaller. It stops because its names are all different, so that no more
of them are taken than there are names.

* `outcome?_of_states`: a loop stops in the round in which its states let it.
* `stopsAt_seek`: so one that tries numbered candidates stops at the first that is free.
* `stopsAt_suffixed`, `stopsAt_numbered`: the loops that rename identifiers and tool names.
* `stopsAt_attempted`: the loop that binds a name in generated code.
* `renaming_stops`: where the three stop, and what they leave behind.
-/

namespace OntologyCompiler

/-! ## Loops -/

section Loops

variable {σ ρ : Type} {round : σ → σ ⊕ ρ}

/-- What a loop comes to within some rounds, each of which goes on to another state or stops with a
result; none if it has not stopped by then. -/
def outcome? (round : σ → σ ⊕ ρ) : Nat → σ → Option ρ
  | 0, _ => none
  | rounds + 1, s =>
    match round s with
    | .inl t => outcome? round rounds t
    | .inr result => some result

/-- **A loop that passes through states** stops in the round in which one of them lets it. -/
theorem outcome?_of_states {result : ρ} {states : Nat → σ} : ∀ {low count : Nat} (rounds : Nat),
    (∀ m, low ≤ m → m < low + count → round (states m) = .inl (states (m + 1))) →
    round (states (low + count)) = .inr result →
    outcome? round rounds (states low) = if count < rounds then some result else none
  | _, _, 0, _, _ => by simp [outcome?]
  | low, 0, rounds + 1, _, hstop => by
    rw [Nat.add_zero] at hstop
    simp [outcome?, hstop]
  | low, count + 1, rounds + 1, hgo, hstop => by
    have ih := @outcome?_of_states result states (low + 1) count rounds
      (fun m hlo hlt => hgo m (by omega) (by omega))
      (by rwa [Nat.add_right_comm, Nat.add_assoc])
    rw [outcome?, hgo low (Nat.le_refl low) (by omega)]
    simpa using ih

/-- A loop stops at the first number from `low` on that is free, after a round for each number up to
it. -/
structure StopsAt (round : σ → σ ⊕ ρ) (start : σ) (free : Nat → Prop) (low n : Nat) (result : ρ) :
    Prop where
  low_le : low ≤ n
  isFree : free n
  before : ∀ m, low ≤ m → m < n → ¬ free m
  outcome : ∀ rounds, outcome? round rounds start = if n < low + rounds then some result else none

variable {free : Nat → Prop} {low n : Nat} {result : ρ}

theorem stopsAt_of_states (states : Nat → σ) (hlow : low ≤ n) (hfree : free n)
    (hbefore : ∀ m, low ≤ m → m < n → ¬ free m)
    (hgo : ∀ m, low ≤ m → ¬ free m → round (states m) = .inl (states (m + 1)))
    (hstop : round (states n) = .inr result) :
    StopsAt round (states low) free low n result where
  low_le := hlow
  isFree := hfree
  before := hbefore
  outcome rounds := by
    obtain ⟨count, rfl⟩ := Nat.exists_eq_add_of_le hlow
    rw [outcome?_of_states rounds (fun m hlo hlt => hgo m hlo (hbefore m hlo hlt)) hstop]
    simp

theorem StopsAt.le {start : σ} {m : Nat} (h : StopsAt round start free low n result)
    (hlow : low ≤ m) (hfree : free m) : n ≤ m :=
  Nat.not_lt.mp fun hlt => h.before m hlow hlt hfree

end Loops

/-! ## Identifiers and tool names -/

/-- A round of a loop that tries candidates with one number after the other. -/
def seekRound {α : Type} (isFree : α → Bool) (candidate : Nat → α) (n : Nat) : Nat ⊕ α :=
  if isFree (candidate n) then .inr (candidate n) else .inl (n + 1)

theorem stopsAt_seek {α : Type} {isFree : α → Bool} {candidate : Nat → α} {free : Nat → Prop}
    {low n : Nat} (htest : ∀ m, isFree (candidate m) = true ↔ free m) (hlow : low ≤ n)
    (hfree : free n) (hbefore : ∀ m, low ≤ m → m < n → ¬ free m) :
    StopsAt (seekRound isFree candidate) low free low n (candidate n) :=
  stopsAt_of_states id hlow hfree hbefore
    (fun m _ htaken => if_neg fun h => htaken ((htest m).mp h)) (if_pos ((htest n).mpr hfree))

namespace Registry

/-- A round of the loop that renames identifiers: both of them have to be free. -/
def renameRound (r : Registry) (i : Identity) : Nat → Nat ⊕ Identity :=
  seekRound (fun j => (r.holder? j).isNone) i.suffixed

/-- A round of the loop that renames a tool name. -/
def renameNameRound (r : Registry) (toolName : String) : Nat → Nat ⊕ String :=
  seekRound (fun other => (Ordered.get? r.toolNames other).isNone) (numbered toolName)

/-- **The loop that renames identifiers** stops, at the latest when it has tried one number more
than there are entries. -/
theorem stopsAt_suffixed (r : Registry) (i : Identity) : ∃ n,
    n ≤ 2 + (Ordered.keyCount r.operations + Ordered.keyCount r.stems) ∧
    r.renamed i = i.suffixed n ∧
    StopsAt (r.renameRound i) 2 (fun m => r.holder? (i.suffixed m) = none) 2 n
      (i.suffixed n) := by
  obtain ⟨n, hlow, hrenamed, hfree, hbefore⟩ := r.renamed_least i
  have hstops : StopsAt (r.renameRound i) 2 (fun m => r.holder? (i.suffixed m) = none) 2 n
      (i.suffixed n) :=
    stopsAt_seek (fun _ => Option.isNone_iff_eq_none) hlow hfree hbefore
  obtain ⟨m, hm, hbound, hfree'⟩ := r.exists_free_suffixed i
  exact ⟨n, Nat.le_trans (hstops.le hm hfree') hbound, hrenamed, hstops⟩

/-- What is renamed is recorded behind the entries that are there. -/
theorem claim_renamed {r : Registry} {i : Identity} {first : String} (hp : r.policy = .suffix)
    (hheld : r.holder? i = some first) (label : String) :
    r.claim label i = .ok (⟨r.renamed i,
        some (.identifierRenamed label i.operationId first (r.renamed i).operationId)⟩,
      { r with
        operations := r.operations ++ [((r.renamed i).operationId, label)]
        stems := r.stems ++ [((r.renamed i).stem, label)] }) := by
  obtain ⟨hoperation, hstem⟩ := holder?_eq_none_iff.mp (r.holder?_renamed i)
  simp only [claim, hheld, hp, record, Ordered.put_of_notMem hoperation,
    Ordered.put_of_notMem hstem]

/-- **The loop that renames a tool name** stops, at the latest when it has tried one number more
than there are tool names. -/
theorem stopsAt_numbered (r : Registry) (toolName : String) : ∃ n,
    n ≤ 2 + Ordered.keyCount r.toolNames ∧ r.renamedName toolName = numbered toolName n ∧
    StopsAt (r.renameNameRound toolName) 2
      (fun m => Ordered.get? r.toolNames (numbered toolName m) = none) 2 n
      (numbered toolName n) := by
  obtain ⟨n, hlow, hrenamed, hfree, hbefore⟩ := r.renamedName_least toolName
  have hstops : StopsAt (r.renameNameRound toolName) 2
      (fun m => Ordered.get? r.toolNames (numbered toolName m) = none) 2 n
      (numbered toolName n) :=
    stopsAt_seek (fun _ => Option.isNone_iff_eq_none) hlow hfree hbefore
  obtain ⟨m, hm, hbound, hfree'⟩ := r.exists_free_numbered toolName
  exact ⟨n, Nat.le_trans (hstops.le hm hfree') hbound, hrenamed, hstops⟩

/-- A renamed tool name is recorded behind those that are there. -/
theorem claimName_renamed {r : Registry} {toolName first : String} (hp : r.policy = .suffix)
    (hheld : Ordered.get? r.toolNames toolName = some first) (label : String) :
    r.claimName label toolName = .ok (⟨r.renamedName toolName,
        some (.toolNameRenamed label toolName first (r.renamedName toolName))⟩,
      { r with toolNames := r.toolNames ++ [(r.renamedName toolName, label)] }) := by
  have hfree := Ordered.get?_eq_none_iff.mp (r.get?_renamedName toolName)
  simp only [claimName, hheld, hp, recordName, Ordered.put_of_notMem hfree]

end Registry

namespace NameScope

/-! ## Names in generated code -/

/-- Where the loop that binds a name stands: what is taken, the name that it tries, and the number
for the one behind. -/
structure Attempt where
  taken : List String
  name : String
  next : Nat

/-- A round of the loop: a name that is free is bound; behind one that is taken, the candidate is
tried with the next number. -/
def bindRound (candidate sep : String) (a : Attempt) : Attempt ⊕ (String × List String) :=
  if a.name ∈ a.taken then .inl ⟨a.taken, numbered candidate sep a.next, a.next + 1⟩
  else .inr (a.name, a.name :: a.taken)

/-- The names that are tried: first the candidate, and then the candidate with a number. -/
def attempted (candidate sep : String) (n : Nat) : String :=
  if n = 1 then candidate else numbered candidate sep n

theorem numbered_ne (candidate sep : String) (n : Nat) : numbered candidate sep n ≠ candidate := by
  have hdigits : 0 < (toString n).length := by
    rw [Nat.toString_eq_ofList_toDigits, String.length_ofList]
    exact Nat.length_toDigits_pos
  intro h
  have hlength := congrArg String.length h
  rw [numbered, String.length_append, String.length_append] at hlength
  omega

theorem attempted_injective (candidate sep : String) :
    Function.Injective (attempted candidate sep) := by
  intro m n h
  unfold attempted at h
  split at h <;> split at h
  · omega
  · exact absurd h.symm (numbered_ne candidate sep n)
  · exact absurd h (numbered_ne candidate sep m)
  · exact numbered_injective candidate sep h

/-- The name that is bound is the first of those tried that is free. -/
theorem exists_attempted (s : NameScope) (candidate sep : String) : ∃ n, 1 ≤ n ∧
    s.fresh candidate sep = attempted candidate sep n ∧ attempted candidate sep n ∉ s.taken ∧
    ∀ m, 1 ≤ m → m < n → ¬ attempted candidate sep m ∉ s.taken := by
  rcases fresh_cases s candidate sep with ⟨hfree, hbound⟩ | ⟨htaken, n, hlow, hbound, hfree, hleast⟩
  · exact ⟨1, Nat.le_refl 1, hbound, hfree, fun m hm hlt => absurd hm (by omega)⟩
  · have hn : attempted candidate sep n = numbered candidate sep n := if_neg (by omega)
    refine ⟨n, by omega, hbound.trans hn.symm, by rwa [hn], fun m hm hlt => ?_⟩
    rw [not_not, attempted]
    split
    · exact htaken
    · exact hleast m (by omega) hlt

/-- **The loop that binds a name** stops, at the latest when it has tried one name more than there
are taken. -/
theorem stopsAt_attempted (s : NameScope) (candidate sep : String) : ∃ n,
    n ≤ s.taken.dedup.length + 1 ∧ s.fresh candidate sep = attempted candidate sep n ∧
    StopsAt (bindRound candidate sep) ⟨s.taken, candidate, 2⟩
      (fun m => attempted candidate sep m ∉ s.taken) 1 n
      (attempted candidate sep n, attempted candidate sep n :: s.taken) := by
  obtain ⟨n, hlow, hbound, hfree, hbefore⟩ := exists_attempted s candidate sep
  have hstops : StopsAt (bindRound candidate sep) ⟨s.taken, candidate, 2⟩
      (fun m => attempted candidate sep m ∉ s.taken) 1 n
      (attempted candidate sep n, attempted candidate sep n :: s.taken) := by
    let states : Nat → Attempt := fun m => ⟨s.taken, attempted candidate sep m, m + 1⟩
    refine stopsAt_of_states states hlow hfree hbefore (fun m hm htaken => ?_) (if_neg hfree)
    have hnext : attempted candidate sep (m + 1) = numbered candidate sep (m + 1) :=
      if_neg (by omega)
    rw [bindRound, if_pos (not_not.mp htaken), ← hnext]
  obtain ⟨m, hm, hcount, hfree'⟩ := exists_free_number (attempted_injective candidate sep)
    s.taken.dedup 1
  rw [List.mem_dedup] at hfree'
  have hle := hstops.le hm hfree'
  exact ⟨n, by omega, hbound, hstops⟩

end NameScope

/-! ## The three loops -/

/-- **Renaming stops.** In every registry, the loops that rename identifiers and tool names stop at
a number from 2 on, and at the latest at two more than there are entries in the maps that they look
at; in every scope, the loop that binds a name stops at the latest in the attempt after as many as
there are names taken. Each stops at the first of its candidates that is free. That is what a claim
gives out and what is bound, and it is all that is added: what was recorded stays in its place. -/
theorem renaming_stops :
    (∀ (r : Registry) (i : Identity), ∃ n,
      n ≤ 2 + (Ordered.keyCount r.operations + Ordered.keyCount r.stems) ∧
      StopsAt (r.renameRound i) 2 (fun m => r.holder? (i.suffixed m) = none) 2 n
        (i.suffixed n) ∧
      ∀ label first, r.policy = .suffix → r.holder? i = some first →
        r.claim label i = .ok (⟨i.suffixed n, some (.identifierRenamed label i.operationId first
            (i.suffixed n).operationId)⟩,
          { r with
            operations := r.operations ++ [((i.suffixed n).operationId, label)]
            stems := r.stems ++ [((i.suffixed n).stem, label)] })) ∧
    (∀ (r : Registry) (toolName : String), ∃ n,
      n ≤ 2 + Ordered.keyCount r.toolNames ∧
      StopsAt (r.renameNameRound toolName) 2
        (fun m => Ordered.get? r.toolNames (Registry.numbered toolName m) = none) 2 n
        (Registry.numbered toolName n) ∧
      ∀ label first, r.policy = .suffix → Ordered.get? r.toolNames toolName = some first →
        r.claimName label toolName = .ok (⟨Registry.numbered toolName n,
            some (.toolNameRenamed label toolName first (Registry.numbered toolName n))⟩,
          { r with toolNames := r.toolNames ++ [(Registry.numbered toolName n, label)] })) ∧
    ∀ (s : NameScope) (candidate sep : String), ∃ n,
      n ≤ s.taken.dedup.length + 1 ∧
      StopsAt (NameScope.bindRound candidate sep) ⟨s.taken, candidate, 2⟩
        (fun m => NameScope.attempted candidate sep m ∉ s.taken) 1 n
        (NameScope.attempted candidate sep n, NameScope.attempted candidate sep n :: s.taken) ∧
      ∀ owner, ∃ found, s.bind candidate sep owner = (NameScope.attempted candidate sep n, found,
        { s with taken := NameScope.attempted candidate sep n :: s.taken }) := by
  refine ⟨fun r i => ?_, fun r toolName => ?_, fun s candidate sep => ?_⟩
  · obtain ⟨n, hbound, hrenamed, hstops⟩ := r.stopsAt_suffixed i
    refine ⟨n, hbound, hstops, fun label first hp hheld => ?_⟩
    rw [← hrenamed]
    exact Registry.claim_renamed hp hheld label
  · obtain ⟨n, hbound, hrenamed, hstops⟩ := r.stopsAt_numbered toolName
    refine ⟨n, hbound, hstops, fun label first hp hheld => ?_⟩
    rw [← hrenamed]
    exact Registry.claimName_renamed hp hheld label
  · obtain ⟨n, hbound, hfresh, hstops⟩ := s.stopsAt_attempted candidate sep
    exact ⟨n, hbound, hstops, fun owner => ⟨_, NameScope.bind_eq_iff.mpr ⟨hfresh.symm, rfl, rfl⟩⟩⟩

/-- A registry in which a first number is taken for an operation, and the next one for a stem. -/
def crowded : Registry :=
  ⟨.suffix, [("find", "a"), ("find_2", "b"), ("get", "c")],
    [("Find", "a"), ("Seek", "b"), ("Find3", "c")], [("find", "a"), ("find_2", "b")]⟩

/-- Neither of them will do for identifiers; for a tool name the second one does. -/
theorem renaming_stops_crowded : crowded.policy = .suffix ∧
    crowded.holder? ⟨"find", "Find"⟩ = some "a" ∧
    crowded.claim "d" ⟨"find", "Find"⟩ =
      .ok (⟨⟨"find_4", "Find4"⟩, some (.identifierRenamed "d" "find" "a" "find_4")⟩,
        { crowded with
          operations := crowded.operations ++ [("find_4", "d")]
          stems := crowded.stems ++ [("Find4", "d")] }) ∧
    Ordered.get? crowded.toolNames "find" = some "a" ∧
    crowded.claimName "d" "find" =
      .ok (⟨"find_3", some (.toolNameRenamed "d" "find" "a" "find_3")⟩,
        { crowded with toolNames := crowded.toolNames ++ [("find_3", "d")] }) := by
  obtain ⟨hidentities, hnames, -⟩ := renaming_stops
  obtain ⟨n, -, hstops, hclaim⟩ := hidentities crowded ⟨"find", "Find"⟩
  obtain ⟨k, -, hstops', hclaim'⟩ := hnames crowded "find"
  have htwo : n ≠ 2 := by
    rintro rfl
    exact absurd hstops.isFree (by decide)
  have hthree : n ≠ 3 := by
    rintro rfl
    exact absurd hstops.isFree (by decide)
  have htwo' : k ≠ 2 := by
    rintro rfl
    exact absurd hstops'.isFree (by decide)
  have hle : n ≤ 4 := hstops.le (by decide) (by decide)
  have hle' : k ≤ 3 := hstops'.le (by decide) (by decide)
  have hlow := hstops.low_le
  have hlow' := hstops'.low_le
  obtain rfl : n = 4 := by omega
  obtain rfl : k = 3 := by omega
  exact ⟨rfl, rfl, hclaim "d" "a" rfl rfl, rfl, hclaim' "d" "a" rfl rfl⟩

end OntologyCompiler
