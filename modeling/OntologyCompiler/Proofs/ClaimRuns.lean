import OntologyCompiler.Proofs.Registry

/-!
# Runs of claims

A registry serves requests for identifiers and for tool names in any order; a request that fails
leaves it as it was. What is taken at any time is what has been given out by then, so every answer
can be told from the earlier answers alone.

* `Knows.serve`, `knows_after`: the registry knows what has been given out.
* `answers_eraseIdx`: a request that fails leaves no trace.
* `answers_identities`, `answers_toolNames`: the two kinds of requests do not meet.
* `Knows.lawful`: what a request is answered with, told from what has been given out.
* `Knows.apart`, `Knows.names_nodup`: unless it is overwritten, nothing is given out twice.
* `claims_over_runs`: what each policy does in any run.
-/

namespace OntologyCompiler

namespace Identity

/-- Neither identifier is that of one of some identities. -/
def FreeAmong (i : Identity) (given : List Identity) : Prop :=
  ∀ j ∈ given, j.operationId ≠ i.operationId ∧ j.stem ≠ i.stem

theorem freeAmong_append {i : Identity} {xs ys : List Identity} :
    i.FreeAmong (xs ++ ys) ↔ i.FreeAmong xs ∧ i.FreeAmong ys := by
  exact List.forall_mem_append

theorem freeAmong_singleton {i j : Identity} :
    i.FreeAmong [j] ↔ j.operationId ≠ i.operationId ∧ j.stem ≠ i.stem := by
  simp [FreeAmong]

end Identity

namespace Registry

/-! ## Requests and answers -/

/-- A claim of identifiers or of a tool name, on behalf of the action of a label. -/
inductive Request where
  | identity (label : String) (i : Identity)
  | toolName (label toolName : String)

/-- What a claim of identifiers or of a tool name comes to. -/
inductive Answer where
  | identity (result : Except Failure (Claim Identity))
  | toolName (result : Except Failure (Claim String))

namespace Request

/-- Whether identifiers are asked for. -/
def isIdentity : Request → Bool
  | identity .. => true
  | toolName .. => false

/-- The identifiers that are asked for. -/
def identity? : Request → Option Identity
  | identity _ i => some i
  | toolName .. => none

/-- The tool name that is asked for. -/
def toolName? : Request → Option String
  | identity .. => none
  | toolName _ n => some n

end Request

namespace Answer

/-- Whether identifiers were asked for. -/
def isIdentity : Answer → Bool
  | identity _ => true
  | toolName _ => false

/-- Whether the request was granted. -/
def isGranted : Answer → Bool
  | identity (.ok _) => true
  | toolName (.ok _) => true
  | _ => false

/-- The identifiers that are given out. -/
def identity? : Answer → Option Identity
  | identity (.ok c) => some c.value
  | _ => none

/-- The tool name that is given out. -/
def toolName? : Answer → Option String
  | toolName (.ok c) => some c.value
  | _ => none

/-- What is found on the way. -/
def finding? : Answer → Option Finding
  | identity (.ok c) => c.finding
  | toolName (.ok c) => c.finding
  | _ => none

end Answer

/-- All identifiers given out in some answers. -/
def identitiesGiven (as : List Answer) : List Identity :=
  as.filterMap Answer.identity?

/-- All tool names given out in some answers. -/
def namesGiven (as : List Answer) : List String :=
  as.filterMap Answer.toolName?

theorem identitiesGiven_snoc (as : List Answer) (a : Answer) :
    identitiesGiven (as ++ [a]) = identitiesGiven as ++ a.identity?.toList := by
  unfold identitiesGiven
  rw [List.filterMap_append]
  cases h : a.identity? <;> simp [h]

theorem namesGiven_snoc (as : List Answer) (a : Answer) :
    namesGiven (as ++ [a]) = namesGiven as ++ a.toolName?.toList := by
  unfold namesGiven
  rw [List.filterMap_append]
  cases h : a.toolName? <;> simp [h]

/-- Serve a request. One that fails leaves the registry as it was. -/
def serve (r : Registry) : Request → Answer × Registry
  | .identity label i =>
    match r.claim label i with
    | .ok (c, s) => (.identity (.ok c), s)
    | .error e => (.identity (.error e), r)
  | .toolName label n =>
    match r.claimName label n with
    | .ok (c, s) => (.toolName (.ok c), s)
    | .error e => (.toolName (.error e), r)

/-- The answers to requests one after the other. -/
def answers : Registry → List Request → List Answer
  | _, [] => []
  | r, q :: qs => (r.serve q).1 :: (r.serve q).2.answers qs

/-- The registry behind requests. -/
def after (r : Registry) (qs : List Request) : Registry :=
  qs.foldl (fun r q => (r.serve q).2) r

/-- The answers of a fresh registry. -/
def answersUnder (policy : CollisionPolicy) (qs : List Request) : List Answer :=
  (new policy).answers qs

/-! ## One step -/

theorem serve_identity_free {r : Registry} {i : Identity} (h : r.holder? i = none)
    (label : String) : (r.serve (.identity label i)).1 = .identity (.ok ⟨i, none⟩) := by
  simp [serve, claim_free h]

theorem serve_toolName_free {r : Registry} {n : String} (h : Ordered.get? r.toolNames n = none)
    (label : String) : (r.serve (.toolName label n)).1 = .toolName (.ok ⟨n, none⟩) := by
  simp [serve, claimName_free h]

/-- **What taken identifiers are answered with**, by policy. -/
theorem serve_identity_held {r : Registry} {i : Identity} {first : String}
    (h : r.holder? i = some first) (label : String) :
    (r.serve (.identity label i)).1 = .identity (match r.policy with
      | .reject => .error (.identifierCollision i.operationId first label)
      | .overwrite => .ok ⟨i, some (.identifierReplaced label i.operationId first)⟩
      | .suffix => .ok ⟨r.renamed i,
          some (.identifierRenamed label i.operationId first (r.renamed i).operationId)⟩) := by
  cases hp : r.policy <;> simp [serve, claim, h, hp]

/-- **What a taken tool name is answered with**, by policy. -/
theorem serve_toolName_held {r : Registry} {n first : String}
    (h : Ordered.get? r.toolNames n = some first) (label : String) :
    (r.serve (.toolName label n)).1 = .toolName (match r.policy with
      | .reject => .error (.identifierCollision n first label)
      | .overwrite => .ok ⟨n, some (.toolNameReused label n first)⟩
      | .suffix => .ok ⟨r.renamedName n,
          some (.toolNameRenamed label n first (r.renamedName n))⟩) := by
  cases hp : r.policy <;> simp [serve, claimName, h, hp]

/-- A request that is not granted leaves the registry as it was. -/
theorem serve_refused {r : Registry} {q : Request} (h : (r.serve q).1.isGranted = false) :
    (r.serve q).2 = r := by
  cases q with
  | identity label i =>
    cases hc : r.claim label i with
    | error e => simp [serve, hc]
    | ok cs => simp [serve, hc, Answer.isGranted] at h
  | toolName label n =>
    cases hc : r.claimName label n with
    | error e => simp [serve, hc]
    | ok cs => simp [serve, hc, Answer.isGranted] at h

theorem serve_policy (r : Registry) (q : Request) : (r.serve q).2.policy = r.policy := by
  cases q with
  | identity label i =>
    cases hc : r.claim label i with
    | ok cs =>
      simp only [serve, hc, claim_records hc]
      rfl
    | error e => simp [serve, hc]
  | toolName label n =>
    cases hc : r.claimName label n with
    | ok cs =>
      simp only [serve, hc, claimName_records hc]
      rfl
    | error e => simp [serve, hc]

/-! ## What the registry knows -/

/-- The registry knows exactly what has been given out in some answers. -/
structure Knows (r : Registry) (as : List Answer) : Prop where
  identities : ∀ i, r.holder? i = none ↔ i.FreeAmong (identitiesGiven as)
  names : ∀ n, Ordered.get? r.toolNames n = none ↔ n ∉ namesGiven as

theorem knows_new (policy : CollisionPolicy) : (new policy).Knows [] :=
  ⟨fun _ => ⟨fun _ _ h => absurd h List.not_mem_nil, fun _ => rfl⟩,
    fun _ => ⟨fun _ => List.not_mem_nil, fun _ => rfl⟩⟩

theorem holder?_record_eq_none {r : Registry} {label : String} {i j : Identity} :
    (r.record label j).holder? i = none ↔ r.holder? i = none ∧ i.FreeAmong [j] := by
  rw [holder?_eq_none_iff, holder?_eq_none_iff, keys_operations_record, keys_stems_record,
    Identity.freeAmong_singleton, ne_comm (a := j.operationId), ne_comm (a := j.stem)]
  tauto

theorem holder?_recordName (r : Registry) (label n : String) (i : Identity) :
    (r.recordName label n).holder? i = r.holder? i := rfl

theorem toolNames_record (r : Registry) (label : String) (i : Identity) :
    (r.record label i).toolNames = r.toolNames := rfl

theorem get?_recordName_eq_none {r : Registry} {label n m : String} :
    Ordered.get? (r.recordName label n).toolNames m = none ↔
      Ordered.get? r.toolNames m = none ∧ m ∉ [n] := by
  rw [Ordered.get?_eq_none_iff, Ordered.get?_eq_none_iff, recordName, Ordered.mem_keys_put,
    List.mem_singleton]
  tauto

/-- **A step tells the registry what it gives out.** -/
theorem Knows.serve {r : Registry} {as : List Answer} (h : r.Knows as) (q : Request) :
    (r.serve q).2.Knows (as ++ [(r.serve q).1]) := by
  constructor
  · intro j
    rw [identitiesGiven_snoc, Identity.freeAmong_append, ← h.identities]
    cases q with
    | identity label i =>
      cases hc : r.claim label i with
      | error e => simp [Registry.serve, hc, Answer.identity?, Identity.FreeAmong]
      | ok cs =>
        simp only [Registry.serve, hc, claim_records hc]
        exact holder?_record_eq_none
    | toolName label n =>
      cases hc : r.claimName label n with
      | error e => simp [Registry.serve, hc, Answer.identity?, Identity.FreeAmong]
      | ok cs =>
        simp only [Registry.serve, hc, claimName_records hc, holder?_recordName]
        simp [Answer.identity?, Identity.FreeAmong]
  · intro m
    rw [namesGiven_snoc, List.mem_append, not_or, ← h.names]
    cases q with
    | identity label i =>
      cases hc : r.claim label i with
      | error e => simp [Registry.serve, hc, Answer.toolName?]
      | ok cs =>
        simp only [Registry.serve, hc, claim_records hc, toolNames_record]
        simp [Answer.toolName?]
    | toolName label n =>
      cases hc : r.claimName label n with
      | error e => simp [Registry.serve, hc, Answer.toolName?]
      | ok cs =>
        simp only [Registry.serve, hc, claimName_records hc]
        exact get?_recordName_eq_none

/-! ## Runs -/

theorem after_cons (r : Registry) (q : Request) (qs : List Request) :
    r.after (q :: qs) = (r.serve q).2.after qs := rfl

theorem after_policy : ∀ (qs : List Request) (r : Registry), (r.after qs).policy = r.policy
  | [], _ => rfl
  | q :: qs, r => by rw [after_cons, after_policy qs, serve_policy]

/-- **The registry behind a run knows what the run has given out.** -/
theorem Knows.after : ∀ (qs : List Request) {r : Registry} {as : List Answer}, r.Knows as →
    (r.after qs).Knows (as ++ r.answers qs)
  | [], _, _, h => by simpa [Registry.after, answers] using h
  | q :: qs, _, _, h => by
    rw [after_cons, answers, List.append_cons]
    exact Knows.after qs (h.serve q)

theorem knows_after (policy : CollisionPolicy) (qs : List Request) :
    ((new policy).after qs).Knows (answersUnder policy qs) :=
  (knows_new policy).after qs

theorem take_answers : ∀ (k : Nat) (r : Registry) (qs : List Request),
    (r.answers qs).take k = r.answers (qs.take k)
  | 0, _, _ => by simp [answers]
  | _ + 1, _, [] => rfl
  | k + 1, r, q :: qs => by simp [answers, take_answers k]

/-- The answer to a request is that of the registry behind the requests before it. -/
theorem getElem?_answers : ∀ (k : Nat) (r : Registry) (qs : List Request),
    (r.answers qs)[k]? = qs[k]?.map fun q => ((r.after (qs.take k)).serve q).1
  | _, _, [] => by simp [answers]
  | 0, _, q :: qs => rfl
  | k + 1, r, q :: qs => by
    rw [answers, List.getElem?_cons_succ, List.getElem?_cons_succ, List.take_succ_cons, after_cons,
      getElem?_answers k]

/-- **A request that is not granted leaves no trace**: without it all other answers are the same. -/
theorem answers_eraseIdx : ∀ (k : Nat) (r : Registry) (qs : List Request) {a : Answer},
    (r.answers qs)[k]? = some a → a.isGranted = false →
    r.answers (qs.eraseIdx k) = (r.answers qs).eraseIdx k
  | _, _, [], _, h, _ => by simp [answers] at h
  | 0, r, q :: qs, a, h, ha => by
    rw [answers, List.getElem?_cons_zero, Option.some.injEq] at h
    subst h
    rw [answers, List.eraseIdx_cons_zero, List.eraseIdx_cons_zero, serve_refused ha]
  | k + 1, r, q :: qs, a, h, ha => by
    rw [answers, List.getElem?_cons_succ] at h
    rw [answers, List.eraseIdx_cons_succ, List.eraseIdx_cons_succ, answers,
      answers_eraseIdx k _ qs h ha]

/-! ## The two kinds of requests -/

/-- The registry as it is with no tool name given out. -/
def withoutNames (r : Registry) : Registry :=
  { r with toolNames := [] }

/-- The registry as it is with no identifiers given out. -/
def withoutIdentities (r : Registry) : Registry :=
  { r with operations := [], stems := [] }

/-- **A claim of identifiers does not look at tool names**, and leaves them alone. -/
theorem claim_withoutNames (r : Registry) (label : String) (i : Identity) :
    r.withoutNames.claim label i =
      (r.claim label i).map fun x => (x.1, x.2.withoutNames) := by
  have hheld : r.withoutNames.holder? i = r.holder? i := rfl
  have hrenamed : r.withoutNames.renamed i = r.renamed i := rfl
  have hpolicy : r.withoutNames.policy = r.policy := rfl
  unfold claim
  rw [hheld, hrenamed, hpolicy]
  cases r.holder? i with
  | none => rfl
  | some first => cases r.policy <;> rfl

/-- **A claim of a tool name does not look at identifiers**, and leaves them alone. -/
theorem claimName_withoutIdentities (r : Registry) (label n : String) :
    r.withoutIdentities.claimName label n =
      (r.claimName label n).map fun x => (x.1, x.2.withoutIdentities) := by
  have hheld : Ordered.get? r.withoutIdentities.toolNames n = Ordered.get? r.toolNames n := rfl
  have hrenamed : r.withoutIdentities.renamedName n = r.renamedName n := rfl
  have hpolicy : r.withoutIdentities.policy = r.policy := rfl
  unfold claimName
  rw [hheld, hrenamed, hpolicy]
  cases Ordered.get? r.toolNames n with
  | none => rfl
  | some first => cases r.policy <;> rfl

theorem withoutNames_claimName {r s : Registry} {label n : String} {c : Claim String}
    (h : r.claimName label n = .ok (c, s)) : s.withoutNames = r.withoutNames := by
  rw [claimName_records h]
  rfl

theorem withoutIdentities_claim {r s : Registry} {label : String} {i : Identity}
    {c : Claim Identity} (h : r.claim label i = .ok (c, s)) :
    s.withoutIdentities = r.withoutIdentities := by
  rw [claim_records h]
  rfl

theorem isIdentity_serve (r : Registry) (q : Request) :
    (r.serve q).1.isIdentity = q.isIdentity := by
  cases q with
  | identity label i => cases hc : r.claim label i <;> simp [serve, hc] <;> rfl
  | toolName label n => cases hc : r.claimName label n <;> simp [serve, hc] <;> rfl

theorem serve_withoutNames (r : Registry) (label : String) (i : Identity) :
    r.withoutNames.serve (.identity label i) =
      ((r.serve (.identity label i)).1, (r.serve (.identity label i)).2.withoutNames) := by
  simp only [serve, claim_withoutNames]
  cases r.claim label i <;> rfl

theorem serve_withoutIdentities (r : Registry) (label n : String) :
    r.withoutIdentities.serve (.toolName label n) =
      ((r.serve (.toolName label n)).1, (r.serve (.toolName label n)).2.withoutIdentities) := by
  simp only [serve, claimName_withoutIdentities]
  cases r.claimName label n <;> rfl

theorem withoutNames_serve (r : Registry) (label n : String) :
    (r.serve (.toolName label n)).2.withoutNames = r.withoutNames := by
  cases hc : r.claimName label n with
  | error e => simp [serve, hc]
  | ok cs => simpa [serve, hc] using withoutNames_claimName hc

theorem withoutIdentities_serve (r : Registry) (label : String) (i : Identity) :
    (r.serve (.identity label i)).2.withoutIdentities = r.withoutIdentities := by
  cases hc : r.claim label i with
  | error e => simp [serve, hc]
  | ok cs => simpa [serve, hc] using withoutIdentities_claim hc

/-- **Identifiers are given out as if nothing else was asked for.** -/
theorem answers_identities : ∀ (qs : List Request) (r : Registry),
    (r.answers qs).filter Answer.isIdentity =
      r.withoutNames.answers (qs.filter Request.isIdentity)
  | [], _ => rfl
  | q :: qs, r => by
    rw [answers, List.filter_cons, List.filter_cons, isIdentity_serve, answers_identities qs]
    cases q with
    | identity label i =>
      simp only [Request.isIdentity, if_true]
      rw [answers, serve_withoutNames]
    | toolName label n =>
      simp only [Request.isIdentity, Bool.false_eq_true, if_false]
      rw [withoutNames_serve]

/-- **Tool names are given out as if nothing else was asked for.** -/
theorem answers_toolNames : ∀ (qs : List Request) (r : Registry),
    ((r.answers qs).filter fun a => !a.isIdentity) =
      r.withoutIdentities.answers (qs.filter fun q => !q.isIdentity)
  | [], _ => rfl
  | q :: qs, r => by
    rw [answers, List.filter_cons, List.filter_cons, isIdentity_serve, answers_toolNames qs]
    cases q with
    | identity label i =>
      simp only [Request.isIdentity, Bool.not_true, Bool.false_eq_true, if_false]
      rw [withoutIdentities_serve]
    | toolName label n =>
      simp only [Request.isIdentity, Bool.not_false, if_true]
      rw [answers, serve_withoutIdentities]

/-! ## Answers told from earlier answers -/

/-- **What a request is answered with**, told from the earlier answers alone. -/
inductive Lawful (policy : CollisionPolicy) (earlier : List Answer) : Request → Answer → Prop
  /-- Free identifiers are given out unchanged. -/
  | identityFree {label : String} {i : Identity} (free : i.FreeAmong (identitiesGiven earlier)) :
    Lawful policy earlier (.identity label i) (.identity (.ok ⟨i, none⟩))
  | identityRejected {label first : String} {i : Identity} (hp : policy = .reject)
    (taken : ¬ i.FreeAmong (identitiesGiven earlier)) :
    Lawful policy earlier (.identity label i)
      (.identity (.error (.identifierCollision i.operationId first label)))
  | identityOverwritten {label first : String} {i : Identity} (hp : policy = .overwrite)
    (taken : ¬ i.FreeAmong (identitiesGiven earlier)) :
    Lawful policy earlier (.identity label i)
      (.identity (.ok ⟨i, some (.identifierReplaced label i.operationId first)⟩))
  /-- Taken identifiers get the least number at which both are free. -/
  | identityRenamed {label first : String} {i : Identity} {n : Nat} (hp : policy = .suffix)
    (taken : ¬ i.FreeAmong (identitiesGiven earlier)) (two_le : 2 ≤ n)
    (free : (i.suffixed n).FreeAmong (identitiesGiven earlier))
    (least : ∀ m, 2 ≤ m → m < n → ¬ (i.suffixed m).FreeAmong (identitiesGiven earlier)) :
    Lawful policy earlier (.identity label i) (.identity (.ok ⟨i.suffixed n,
      some (.identifierRenamed label i.operationId first (i.suffixed n).operationId)⟩))
  /-- A free tool name is given out unchanged. -/
  | nameFree {label s : String} (free : s ∉ namesGiven earlier) :
    Lawful policy earlier (.toolName label s) (.toolName (.ok ⟨s, none⟩))
  | nameRejected {label first s : String} (hp : policy = .reject) (taken : s ∈ namesGiven earlier) :
    Lawful policy earlier (.toolName label s)
      (.toolName (.error (.identifierCollision s first label)))
  | nameOverwritten {label first s : String} (hp : policy = .overwrite)
    (taken : s ∈ namesGiven earlier) :
    Lawful policy earlier (.toolName label s)
      (.toolName (.ok ⟨s, some (.toolNameReused label s first)⟩))
  /-- A taken tool name gets the least number at which it is free. -/
  | nameRenamed {label first s : String} {n : Nat} (hp : policy = .suffix)
    (taken : s ∈ namesGiven earlier) (two_le : 2 ≤ n) (free : numbered s n ∉ namesGiven earlier)
    (least : ∀ m, 2 ≤ m → m < n → numbered s m ∈ namesGiven earlier) :
    Lawful policy earlier (.toolName label s) (.toolName (.ok ⟨numbered s n,
      some (.toolNameRenamed label s first (numbered s n))⟩))

/-- **A registry that knows what has been given out answers lawfully.** -/
theorem Knows.lawful {r : Registry} {as : List Answer} (h : r.Knows as) (q : Request) :
    Lawful r.policy as q (r.serve q).1 := by
  cases q with
  | identity label i =>
    cases hheld : r.holder? i with
    | none =>
      rw [serve_identity_free hheld]
      exact .identityFree ((h.identities i).mp hheld)
    | some first =>
      have htaken : ¬ i.FreeAmong (identitiesGiven as) := fun hfree => by
        rw [(h.identities i).mpr hfree] at hheld
        exact absurd hheld (by simp)
      rw [serve_identity_held hheld]
      cases hp : r.policy with
      | reject => exact .identityRejected rfl htaken
      | overwrite => exact .identityOverwritten rfl htaken
      | suffix =>
        obtain ⟨n, hlo, heq, hfree, hleast⟩ := r.renamed_least i
        simp only [heq]
        exact .identityRenamed rfl htaken hlo ((h.identities _).mp hfree)
          fun m hm hlt hf => hleast m hm hlt ((h.identities _).mpr hf)
  | toolName label s =>
    cases hheld : Ordered.get? r.toolNames s with
    | none =>
      rw [serve_toolName_free hheld]
      exact .nameFree ((h.names s).mp hheld)
    | some first =>
      have htaken : s ∈ namesGiven as := by
        by_contra hfree
        rw [(h.names s).mpr hfree] at hheld
        exact absurd hheld (by simp)
      rw [serve_toolName_held hheld]
      cases hp : r.policy with
      | reject => exact .nameRejected rfl htaken
      | overwrite => exact .nameOverwritten rfl htaken
      | suffix =>
        obtain ⟨n, hlo, heq, hfree, hleast⟩ := r.renamedName_least s
        simp only [heq]
        refine .nameRenamed rfl htaken hlo ((h.names _).mp hfree) fun m hm hlt => ?_
        by_contra hf
        exact hleast m hm hlt ((h.names _).mpr hf)

/-- Unless identifiers are overwritten, those that are given out are free. -/
theorem Lawful.free {policy : CollisionPolicy} {earlier : List Answer} {q : Request} {a : Answer}
    {i : Identity} (h : Lawful policy earlier q a) (hp : policy ≠ .overwrite)
    (hi : a.identity? = some i) : i.FreeAmong (identitiesGiven earlier) := by
  cases h with
  | identityFree hfree => exact Option.some.inj hi ▸ hfree
  | identityRenamed _ _ _ hfree _ => exact Option.some.inj hi ▸ hfree
  | identityOverwritten hover _ => exact absurd hover hp
  | _ => exact absurd hi (by simp [Answer.identity?])

/-- Unless tool names are overwritten, those that are given out are free. -/
theorem Lawful.name_free {policy : CollisionPolicy} {earlier : List Answer} {q : Request}
    {a : Answer} {s : String} (h : Lawful policy earlier q a) (hp : policy ≠ .overwrite)
    (hs : a.toolName? = some s) : s ∉ namesGiven earlier := by
  cases h with
  | nameFree hfree => exact Option.some.inj hs ▸ hfree
  | nameRenamed _ _ _ hfree _ => exact Option.some.inj hs ▸ hfree
  | nameOverwritten hover _ => exact absurd hover hp
  | _ => exact absurd hs (by simp [Answer.toolName?])

/-- Overwriting gives out what is asked for. -/
theorem Lawful.asked {earlier : List Answer} {q : Request} {a : Answer}
    (h : Lawful .overwrite earlier q a) :
    a.identity? = q.identity? ∧ a.toolName? = q.toolName? := by
  cases h with
  | identityFree => exact ⟨rfl, rfl⟩
  | identityOverwritten => exact ⟨rfl, rfl⟩
  | nameFree => exact ⟨rfl, rfl⟩
  | nameOverwritten => exact ⟨rfl, rfl⟩
  | _ hp => exact absurd hp (by decide)

/-- Without rejection every request is granted. -/
theorem Lawful.isGranted {policy : CollisionPolicy} {earlier : List Answer} {q : Request}
    {a : Answer} (h : Lawful policy earlier q a) (hp : policy ≠ .reject) : a.isGranted = true := by
  cases h with
  | identityRejected hreject => exact absurd hreject hp
  | nameRejected hreject => exact absurd hreject hp
  | _ => rfl

/-- What is granted comes with a finding just if it was taken. -/
theorem Lawful.identity_unremarked_iff {policy : CollisionPolicy} {earlier : List Answer}
    {label : String} {i : Identity} {a : Answer} (h : Lawful policy earlier (.identity label i) a)
    (hp : policy ≠ .reject) : a.finding? = none ↔ i.FreeAmong (identitiesGiven earlier) := by
  cases h with
  | identityFree hfree => exact iff_of_true rfl hfree
  | identityRejected hreject => exact absurd hreject hp
  | identityOverwritten _ htaken => exact iff_of_false (Option.some_ne_none _) htaken
  | identityRenamed _ htaken => exact iff_of_false (Option.some_ne_none _) htaken

/-- What is granted comes with a finding just if it was taken. -/
theorem Lawful.name_unremarked_iff {policy : CollisionPolicy} {earlier : List Answer}
    {label s : String} {a : Answer} (h : Lawful policy earlier (.toolName label s) a)
    (hp : policy ≠ .reject) : a.finding? = none ↔ s ∉ namesGiven earlier := by
  cases h with
  | nameFree hfree => exact iff_of_true rfl hfree
  | nameRejected hreject => exact absurd hreject hp
  | nameOverwritten _ htaken =>
    exact iff_of_false (Option.some_ne_none _) (not_not_intro htaken)
  | nameRenamed _ htaken => exact iff_of_false (Option.some_ne_none _) (not_not_intro htaken)

/-- Rejection grants what is free and nothing else. -/
theorem Lawful.identity_granted_iff {earlier : List Answer} {label : String} {i : Identity}
    {a : Answer} (h : Lawful .reject earlier (.identity label i) a) :
    a.isGranted = true ↔ i.FreeAmong (identitiesGiven earlier) := by
  cases h with
  | identityFree hfree => exact iff_of_true rfl hfree
  | identityRejected _ htaken => exact iff_of_false Bool.false_ne_true htaken
  | _ hp => exact absurd hp (by decide)

/-- Rejection grants what is free and nothing else. -/
theorem Lawful.name_granted_iff {earlier : List Answer} {label s : String} {a : Answer}
    (h : Lawful .reject earlier (.toolName label s) a) :
    a.isGranted = true ↔ s ∉ namesGiven earlier := by
  cases h with
  | nameFree hfree => exact iff_of_true rfl hfree
  | nameRejected _ htaken => exact iff_of_false Bool.false_ne_true (not_not_intro htaken)
  | _ hp => exact absurd hp (by decide)

/-- Only what is overwritten is found to be an error. -/
theorem Lawful.isError_iff {policy : CollisionPolicy} {earlier : List Answer} {q : Request}
    {a : Answer} {f : Finding} (h : Lawful policy earlier q a) (hf : a.finding? = some f) :
    f.isError = true ↔ policy = .overwrite := by
  cases h with
  | identityOverwritten hp =>
    obtain rfl := Option.some.inj hf
    exact iff_of_true rfl hp
  | nameOverwritten hp =>
    obtain rfl := Option.some.inj hf
    exact iff_of_true rfl hp
  | identityRenamed hp =>
    obtain rfl := Option.some.inj hf
    exact iff_of_false Bool.false_ne_true (by simp [hp])
  | nameRenamed hp =>
    obtain rfl := Option.some.inj hf
    exact iff_of_false Bool.false_ne_true (by simp [hp])
  | _ => cases hf

/-- Identifiers with no operation id and no stem in common. -/
def Apart (i j : Identity) : Prop :=
  i.operationId ≠ j.operationId ∧ i.stem ≠ j.stem

theorem identitiesGiven_cons (a : Answer) (as : List Answer) :
    identitiesGiven (a :: as) = a.identity?.toList ++ identitiesGiven as := by
  unfold identitiesGiven
  cases h : a.identity? <;> simp [h]

theorem namesGiven_cons (a : Answer) (as : List Answer) :
    namesGiven (a :: as) = a.toolName?.toList ++ namesGiven as := by
  unfold namesGiven
  cases h : a.toolName? <;> simp [h]

/-- Unless identifiers are overwritten, all that a run gives out keep apart, from each other and
from those given out before. -/
theorem Knows.apart : ∀ (qs : List Request) {r : Registry} {as : List Answer}, r.Knows as →
    r.policy ≠ .overwrite → (identitiesGiven (r.answers qs)).Pairwise Apart ∧
      ∀ i ∈ identitiesGiven (r.answers qs), i.FreeAmong (identitiesGiven as)
  | [], _, _, _, _ => ⟨.nil, fun _ h => absurd h List.not_mem_nil⟩
  | q :: qs, r, as, h, hp => by
    obtain ⟨hapart, hfree⟩ := Knows.apart qs (h.serve q) (by rwa [serve_policy])
    have hfirst : ∀ i ∈ (r.serve q).1.identity?.toList, i.FreeAmong (identitiesGiven as) :=
      fun i hi => (h.lawful q).free hp (Option.mem_toList.mp hi)
    rw [answers, identitiesGiven_cons]
    refine ⟨List.pairwise_append.mpr ⟨?_, hapart, fun i hi j hj => ?_⟩, fun i hi => ?_⟩
    · cases (r.serve q).1.identity? <;> simp
    · have hj := hfree j hj
      rw [identitiesGiven_snoc, Identity.freeAmong_append] at hj
      exact hj.2 i hi
    · obtain hi | hi := List.mem_append.mp hi
      · exact hfirst i hi
      · have hi := hfree i hi
        rw [identitiesGiven_snoc, Identity.freeAmong_append] at hi
        exact hi.1

/-- Unless tool names are overwritten, all that a run gives out are distinct, and none of them was
given out before. -/
theorem Knows.names_nodup : ∀ (qs : List Request) {r : Registry} {as : List Answer}, r.Knows as →
    r.policy ≠ .overwrite → (namesGiven (r.answers qs)).Nodup ∧
      ∀ s ∈ namesGiven (r.answers qs), s ∉ namesGiven as
  | [], _, _, _, _ => ⟨.nil, fun _ h => absurd h List.not_mem_nil⟩
  | q :: qs, r, as, h, hp => by
    obtain ⟨hnodup, hfree⟩ := Knows.names_nodup qs (h.serve q) (by rwa [serve_policy])
    simp only [namesGiven_snoc, List.mem_append, not_or] at hfree
    have hfirst : ∀ s ∈ (r.serve q).1.toolName?.toList, s ∉ namesGiven as :=
      fun s hs => (h.lawful q).name_free hp (Option.mem_toList.mp hs)
    rw [answers, namesGiven_cons]
    refine ⟨List.nodup_append'.mpr ⟨?_, hnodup, fun s hs hmem => (hfree s hmem).2 hs⟩,
      fun s hs => ?_⟩
    · cases (r.serve q).1.toolName? <;> simp
    · obtain hs | hs := List.mem_append.mp hs
      · exact hfirst s hs
      · exact (hfree s hs).1

/-- In a run every answer is lawful after the answers before it. -/
theorem lawful_answers {policy : CollisionPolicy} {qs : List Request} {k : Nat} {a : Answer}
    (h : (answersUnder policy qs)[k]? = some a) :
    ∃ q, qs[k]? = some q ∧ Lawful policy ((answersUnder policy qs).take k) q a := by
  rw [answersUnder, getElem?_answers, Option.map_eq_some_iff] at h
  obtain ⟨q, hq, rfl⟩ := h
  refine ⟨q, hq, ?_⟩
  have hknows := (knows_after policy (qs.take k)).lawful q
  rwa [after_policy, answersUnder, ← take_answers] at hknows

theorem length_answers : ∀ (qs : List Request) (r : Registry), (r.answers qs).length = qs.length
  | [], _ => rfl
  | _ :: qs, r => by rw [answers, List.length_cons, List.length_cons, length_answers qs]

/-- Where every answer gives out what is asked for, a run gives out all that is asked for. -/
theorem given_of_asked : ∀ {qs : List Request} {as : List Answer},
    List.Forall₂ (fun q a => a.identity? = q.identity? ∧ a.toolName? = q.toolName?) qs as →
    identitiesGiven as = qs.filterMap Request.identity? ∧
      namesGiven as = qs.filterMap Request.toolName?
  | _, _, .nil => ⟨rfl, rfl⟩
  | q :: qs, a :: as, .cons ⟨hi, hn⟩ h => by
    obtain ⟨his, hns⟩ := given_of_asked h
    rw [identitiesGiven_cons, namesGiven_cons, hi, hn, his, hns, List.filterMap_cons,
      List.filterMap_cons]
    exact ⟨by cases q.identity? <;> rfl, by cases q.toolName? <;> rfl⟩

/-- Overwriting gives out all that is asked for. -/
theorem given_of_overwrite (qs : List Request) :
    identitiesGiven (answersUnder .overwrite qs) = qs.filterMap Request.identity? ∧
      namesGiven (answersUnder .overwrite qs) = qs.filterMap Request.toolName? := by
  refine given_of_asked (List.forall₂_iff_get.mpr ⟨(length_answers qs _).symm, fun k h₁ h₂ => ?_⟩)
  obtain ⟨q, hq, hlaw⟩ := lawful_answers (List.getElem?_eq_getElem h₂)
  obtain rfl : qs[k] = q := Option.some.inj ((List.getElem?_eq_getElem h₁).symm.trans hq)
  exact hlaw.asked

/-- **Claims over whole runs.** In any run of requests from a fresh registry:

* each request is answered as `Lawful` tells from the earlier answers: what is free is given out
  unchanged, with no finding; what is taken is refused, given out all the same or renamed with the
  least number that is free, by policy;
* identifiers are given out as if no tool name was asked for, and tool names as if no identifiers
  were;
* rejection grants just what is free, and a request that is not granted leaves no trace;
* the other policies grant every request, with a finding just if what is asked for was taken;
* rejection and renaming never give out an operation id, a stem or a tool name twice;
* overwriting gives out all that is asked for, and is what alone is found to be an error. -/
theorem claims_over_runs (policy : CollisionPolicy) (qs : List Request) :
    (∀ k q, qs[k]? = some q → ∃ a, (answersUnder policy qs)[k]? = some a ∧
      Lawful policy ((answersUnder policy qs).take k) q a) ∧
    (answersUnder policy qs).filter Answer.isIdentity =
      answersUnder policy (qs.filter Request.isIdentity) ∧
    ((answersUnder policy qs).filter fun a => !a.isIdentity) =
      answersUnder policy (qs.filter fun q => !q.isIdentity) ∧
    (policy = .reject → ∀ k a, (answersUnder policy qs)[k]? = some a →
      (∀ label i, qs[k]? = some (Request.identity label i) → (a.isGranted = true ↔
        i.FreeAmong (identitiesGiven ((answersUnder policy qs).take k)))) ∧
      (∀ label s, qs[k]? = some (Request.toolName label s) → (a.isGranted = true ↔
        s ∉ namesGiven ((answersUnder policy qs).take k))) ∧
      (a.isGranted = false →
        answersUnder policy (qs.eraseIdx k) = (answersUnder policy qs).eraseIdx k)) ∧
    (policy ≠ .reject → ∀ k a, (answersUnder policy qs)[k]? = some a → a.isGranted = true ∧
      (∀ label i, qs[k]? = some (Request.identity label i) → (a.finding? = none ↔
        i.FreeAmong (identitiesGiven ((answersUnder policy qs).take k)))) ∧
      (∀ label s, qs[k]? = some (Request.toolName label s) → (a.finding? = none ↔
        s ∉ namesGiven ((answersUnder policy qs).take k)))) ∧
    (policy ≠ .overwrite → (identitiesGiven (answersUnder policy qs)).Pairwise Apart ∧
      (namesGiven (answersUnder policy qs)).Nodup) ∧
    (policy = .overwrite → ∀ k,
      identitiesGiven ((answersUnder policy qs).take k) =
        (qs.take k).filterMap Request.identity? ∧
      namesGiven ((answersUnder policy qs).take k) = (qs.take k).filterMap Request.toolName?) ∧
    (∀ a ∈ answersUnder policy qs, ∀ f, a.finding? = some f →
      (f.isError = true ↔ policy = .overwrite)) := by
  refine ⟨fun k q hq => ?_, answers_identities qs _, answers_toolNames qs _, ?_,
    fun hp k a ha => ?_, fun hp => ?_, ?_, fun a ha f hf => ?_⟩
  · have ha : (answersUnder policy qs)[k]? = some (((new policy).after (qs.take k)).serve q).1 := by
      rw [answersUnder, getElem?_answers, hq, Option.map_some]
    obtain ⟨q', hq', h⟩ := lawful_answers ha
    obtain rfl : q = q' := Option.some.inj (hq.symm.trans hq')
    exact ⟨_, ha, h⟩
  · rintro rfl k a ha
    obtain ⟨q, hq, h⟩ := lawful_answers ha
    refine ⟨fun label i hi => ?_, fun label s hs => ?_, answers_eraseIdx k _ qs ha⟩
    · obtain rfl : q = Request.identity label i := Option.some.inj (hq.symm.trans hi)
      exact h.identity_granted_iff
    · obtain rfl : q = Request.toolName label s := Option.some.inj (hq.symm.trans hs)
      exact h.name_granted_iff
  · obtain ⟨q, hq, h⟩ := lawful_answers ha
    refine ⟨h.isGranted hp, fun label i hi => ?_, fun label s hs => ?_⟩
    · obtain rfl : q = Request.identity label i := Option.some.inj (hq.symm.trans hi)
      exact h.identity_unremarked_iff hp
    · obtain rfl : q = Request.toolName label s := Option.some.inj (hq.symm.trans hs)
      exact h.name_unremarked_iff hp
  · exact ⟨(Knows.apart qs (knows_new policy) hp).1, (Knows.names_nodup qs (knows_new policy) hp).1⟩
  · rintro rfl k
    rw [answersUnder, take_answers]
    exact given_of_overwrite (qs.take k)
  · obtain ⟨k, hk⟩ := List.getElem?_of_mem ha
    obtain ⟨q, -, h⟩ := lawful_answers hk
    exact h.isError_iff hf

/-- A name, the first number of which has been asked for by another. -/
def numberedBefore : List Request :=
  [.identity "a" ⟨"find", "Find"⟩, .toolName "a" "find", .identity "b" ⟨"find_2", "Find2"⟩,
    .identity "c" ⟨"find", "Find"⟩]

/-- It goes on to the next number, and all identifiers are apart. -/
theorem claims_over_runs_renamed :
    (identitiesGiven (answersUnder .suffix numberedBefore)).map Identity.operationId =
      ["find", "find_2", "find_3"] ∧
    (identitiesGiven (answersUnder .suffix numberedBefore)).Pairwise Apart ∧
    ∀ a, (answersUnder .suffix numberedBefore)[3]? = some a → a.isGranted = true := by
  obtain ⟨-, -, -, -, hgranted, hapart, -, -⟩ := claims_over_runs .suffix numberedBefore
  exact ⟨by decide +kernel, (hapart (by decide)).1, fun a ha => (hgranted (by decide) 3 a ha).1⟩

end Registry
end OntologyCompiler
