import OntologyCompiler.Proofs.References

/-!
# What is reported when a definition replaces another

Under the policy `overwrite` a run remembers, for every identifier, stem and place, the latest
action that used it, and reports against that action. The errors of a compilation are so a function
of its plans alone. A claim looks at operation identifiers first and at stems only if there is none,
while schemas are replaced by stem: an action can lose its schemas and the report name another one.

* `Registry.Remembers.record`, `DocumentState.Occupied.write`: the two invariants.
* `errors_of_overwrite`: all errors of a compilation, in order.
* `replacement_reported_iff`: when a report names the action whose schema is lost.
-/

namespace OntologyCompiler

namespace Finding

/-- The labels of the actions that a finding names. -/
def labels : Finding → List String
  | identifierReplaced label _ first | operationReplaced label first _ _ => [label, first]
  | identifierRenamed label _ first _ | toolNameReused label _ first => [label, first]
  | toolNameRenamed label _ first _ => [label, first]
  | unknownMethod label _ => [label]
  | _ => []

end Finding

namespace ActionPlan

/-- The latest of some plans that pass a test. -/
def latest (test : ActionPlan → Bool) (plans : List ActionPlan) : Option ActionPlan :=
  (plans.filter test).getLast?

/-- Whether a plan stores a schema of a name. -/
def stores (name : String) (p : ActionPlan) : Bool :=
  (p.schemas.map Prod.fst).contains name

/-- The earlier plan that the claim of a plan meets: the latest of the same operation identifier,
or else the latest of the same stem. -/
def holder? (p : ActionPlan) (earlier : List ActionPlan) : Option ActionPlan :=
  match latest (fun q => q.identity.operationId == p.identity.operationId) earlier with
  | some q => some q
  | none => latest (fun q => q.identity.stem == p.identity.stem) earlier

/-- The earlier plan whose operation stands at the place of a plan. -/
def occupant? (p : ActionPlan) (earlier : List ActionPlan) : Option ActionPlan :=
  latest (fun q => q.place == p.place) earlier

/-- The error of the claim of a plan behind earlier ones. -/
def takeover (earlier : List ActionPlan) (p : ActionPlan) : Option Finding :=
  (p.holder? earlier).map fun q =>
    .identifierReplaced p.label p.identity.operationId q.label

/-- The error of adding a plan behind earlier ones. -/
def displacement (earlier : List ActionPlan) (p : ActionPlan) : Option Finding :=
  (p.occupant? earlier).map fun q => .operationReplaced p.label q.label p.verb p.path

/-- Every plan, each with those before it. -/
def steps : List ActionPlan → List ActionPlan → List (List ActionPlan × ActionPlan)
  | _, [] => []
  | earlier, p :: ps => (earlier, p) :: steps (earlier ++ [p]) ps

theorem latest_snoc (test : ActionPlan → Bool) (plans : List ActionPlan) (p : ActionPlan) :
    latest test (plans ++ [p]) = if test p then some p else latest test plans := by
  unfold latest
  rw [List.filter_append]
  by_cases h : test p = true
  · simp [h]
  · simp [h]

theorem mem_of_latest {test : ActionPlan → Bool} {plans : List ActionPlan} {p : ActionPlan}
    (h : latest test plans = some p) : p ∈ plans ∧ test p = true :=
  List.mem_filter.mp (List.mem_of_getLast? h)

theorem exists_latest {test : ActionPlan → Bool} {plans : List ActionPlan} {p : ActionPlan}
    (hp : p ∈ plans) (htest : test p = true) : ∃ q, latest test plans = some q := by
  have hne : plans.filter test ≠ [] := List.ne_nil_of_mem (List.mem_filter.mpr ⟨hp, htest⟩)
  exact ⟨_, List.getLast?_eq_getLast_of_ne_nil hne⟩

theorem mem_of_holder? {p q : ActionPlan} {earlier : List ActionPlan}
    (h : p.holder? earlier = some q) : q ∈ earlier := by
  unfold holder? at h
  split at h
  · rename_i r hr
    obtain rfl := Option.some.inj h
    exact (mem_of_latest hr).1
  · exact (mem_of_latest h).1

/-- Where a plan of the same stem came before, the claim meets a plan. -/
theorem exists_holder? {p q : ActionPlan} {earlier : List ActionPlan} (hq : q ∈ earlier)
    (hstem : q.identity.stem = p.identity.stem) : ∃ r, p.holder? earlier = some r := by
  unfold holder?
  split
  · exact ⟨_, rfl⟩
  · exact exists_latest hq (by simpa using hstem)

theorem mem_steps : ∀ {plans before earlier : List ActionPlan} {p : ActionPlan},
    (earlier, p) ∈ steps before plans ↔
      ∃ mid later, plans = mid ++ p :: later ∧ earlier = before ++ mid
  | [], before, earlier, p => by simp [steps]
  | r :: plans, before, earlier, p => by
    rw [steps, List.mem_cons, mem_steps]
    constructor
    · rintro (heq | ⟨mid, later, rfl, rfl⟩)
      · obtain ⟨rfl, rfl⟩ := Prod.mk.inj heq
        exact ⟨[], plans, rfl, (List.append_nil _).symm⟩
      · exact ⟨r :: mid, later, rfl, by simp⟩
    · rintro ⟨mid, later, hplans, rfl⟩
      cases mid with
      | nil =>
        obtain ⟨rfl, rfl⟩ := List.cons.inj hplans
        exact Or.inl (by simp)
      | cons m mid =>
        obtain ⟨rfl, rfl⟩ := List.cons.inj hplans
        exact Or.inr ⟨mid, later, rfl, by simp⟩

/-- Plans that store schemas of one name have one stem. -/
theorem stem_eq_of_stores {p q : ActionPlan} {name : String} (hp : p.stores name = true)
    (hq : q.stores name = true) : q.identity.stem = p.identity.stem := by
  by_contra hne
  unfold stores at hp hq
  rw [List.contains_iff_mem] at hp hq
  exact schemas_disjoint hne hq hp

end ActionPlan

open ActionPlan

/-! ## What the registry remembers -/

namespace Registry

/-- The registry knows the latest plan of every operation identifier and of every stem. -/
structure Remembers (r : Registry) (earlier : List ActionPlan) : Prop where
  operations : ∀ id, Ordered.get? r.operations id =
    (latest (fun q => q.identity.operationId == id) earlier).map ActionPlan.label
  stems : ∀ stem, Ordered.get? r.stems stem =
    (latest (fun q => q.identity.stem == stem) earlier).map ActionPlan.label

theorem remembers_new (policy : CollisionPolicy) : (Registry.new policy).Remembers [] :=
  ⟨fun _ => rfl, fun _ => rfl⟩

theorem Remembers.record {r : Registry} {earlier : List ActionPlan} (h : r.Remembers earlier)
    (p : ActionPlan) : (r.record p.label p.identity).Remembers (earlier ++ [p]) := by
  constructor
  · intro id
    simp only [Registry.record, Ordered.get?_put, latest_snoc, beq_iff_eq, h.operations]
    by_cases hid : p.identity.operationId = id <;> simp [hid]
  · intro stem
    simp only [Registry.record, Ordered.get?_put, latest_snoc, beq_iff_eq, h.stems]
    by_cases hstem : p.identity.stem = stem <;> simp [hstem]

theorem Remembers.holder? {r : Registry} {earlier : List ActionPlan} (h : r.Remembers earlier)
    (p : ActionPlan) :
    r.holder? p.identity = (p.holder? earlier).map ActionPlan.label := by
  unfold Registry.holder? ActionPlan.holder?
  rw [h.operations, h.stems]
  cases latest (fun q => q.identity.operationId == p.identity.operationId) earlier <;> rfl

/-- Where claims overwrite, they give out what is asked for and report against the holder. -/
theorem claim_of_policy_overwrite {r s : Registry} {label : String} {i : Identity}
    {c : Claim Identity} (hp : r.policy = .overwrite) (h : r.claim label i = .ok (c, s)) :
    c = ⟨i, (r.holder? i).map fun first => .identifierReplaced label i.operationId first⟩ := by
  rcases claim_cases h with ⟨hfree, rfl, -⟩ | ⟨first, hfirst, -, rfl, -⟩ | ⟨_, -, hsuffix, -⟩
  · rw [hfree, Option.map_none]
  · rw [hfirst, Option.map_some]
  · exact absurd (hp.symm.trans hsuffix) (by simp)

end Registry

namespace Planner

/-- **The errors of a step** of planning are those of its claim. -/
theorem plan_errors {p q : Planner} {object : String} {a : Action} {plan : ActionPlan}
    {earlier : List ActionPlan} (h : p.plan object a = (.ok plan, q))
    (hp : p.registry.policy = .overwrite) (hr : p.registry.Remembers earlier) :
    q.findings.filter Finding.isError =
      p.findings.filter Finding.isError ++ (takeover earlier plan).toList ∧
    q.registry.Remembers (earlier ++ [plan]) := by
  refine ⟨?_, by rw [plan_records h]; exact hr.record plan⟩
  have hheld := hr.holder? plan
  obtain ⟨-, c, r, hclaim, rfl, rfl⟩ := plan_eq_ok_iff.mp h
  have hname : (a.nameFinding (Text.strip object)).filter Finding.isError = [] :=
    List.filter_eq_nil_iff.mpr fun f hf => by simp [Action.nameFinding_not_error hf]
  have hverb : (a.verbFinding (a.label (Text.strip object))).filter Finding.isError = [] :=
    List.filter_eq_nil_iff.mpr fun f hf => by simp [Action.verbFinding_not_error hf]
  generalize Identity.derive a.name = i at hclaim
  obtain rfl := Registry.claim_of_policy_overwrite hp hclaim
  simp only [Action.planned_identity] at hheld
  simp only [after, List.filter_append, hname, hverb, List.append_nil, hheld, takeover,
    Action.planned_label, Action.planned_identity, Option.map_map]
  cases (a.planned object i).holder? earlier <;> rfl

/-- **The errors of a run** of the planner are those of its steps. -/
theorem planAll_errors : ∀ {as : List (String × Action)} {p q : Planner}
    {plans earlier : List ActionPlan}, p.planAll as = .ok (plans, q) →
    p.registry.policy = .overwrite → p.registry.Remembers earlier →
    q.findings.filter Finding.isError = p.findings.filter Finding.isError ++
      (steps earlier plans).filterMap fun s => takeover s.1 s.2
  | [], p, _, _, _, h, _, _ => by
    obtain ⟨rfl, rfl⟩ := Prod.mk.inj (Except.ok.inj h)
    simp [steps]
  | (object, a) :: rest, p, q, _, earlier, h, hp, hr => by
    obtain ⟨plan, p', plans', hstep, hrest, rfl⟩ := planAll_cons_eq_ok_iff.mp h
    obtain ⟨herr, hr'⟩ := plan_errors hstep hp hr
    rw [planAll_errors hrest ((plan_keeps hstep).1.trans hp) hr', herr, steps,
      List.filterMap_cons, List.append_assoc]
    cases takeover earlier plan <;> rfl

end Planner

/-! ## What the document remembers -/

namespace DocumentState

/-- The document knows the latest plan of every place. -/
def Occupied (d : DocumentState) (earlier : List ActionPlan) : Prop :=
  ∀ place, Ordered.get? d.owners place =
    (latest (fun q => q.place == place) earlier).map ActionPlan.label

theorem occupied_empty : ({} : DocumentState).Occupied [] := fun _ => rfl

theorem Occupied.write {d : DocumentState} {earlier : List ActionPlan} (h : d.Occupied earlier)
    (p : ActionPlan) : (d.write p).Occupied (earlier ++ [p]) := by
  intro place
  show Ordered.get? (Ordered.put d.owners p.place p.label) place = _
  rw [Ordered.get?_put, latest_snoc, h place]
  by_cases hplace : p.place = place <;> simp [hplace]

/-- **The error of a step** of the fold names the plan at its place. -/
theorem add_errors {d e : DocumentState} {p : ActionPlan} {earlier : List ActionPlan}
    {policy : CollisionPolicy} (h : d.add p policy = .ok e) (hd : d.Occupied earlier) :
    e.findings = d.findings ++ (displacement earlier p).toList ∧ e.Occupied (earlier ++ [p]) := by
  have hown : d.owner? p = (p.occupant? earlier).map ActionPlan.label := hd p.place
  rcases add_cases h with ⟨hfree, rfl⟩ | ⟨first, hfirst, -, rfl⟩
  · rw [hfree, eq_comm, Option.map_eq_none_iff] at hown
    refine ⟨?_, hd.write p⟩
    simp [displacement, hown, DocumentState.write]
  · rw [hfirst, eq_comm, Option.map_eq_some_iff] at hown
    obtain ⟨q, hq, rfl⟩ := hown
    refine ⟨?_, hd.write p⟩
    simp [displacement, hq, DocumentState.write, note]

/-- **The errors of a fold** are those of its steps. -/
theorem addAll_errors : ∀ {ps earlier : List ActionPlan} {d e : DocumentState}
    {policy : CollisionPolicy}, d.addAll ps policy = .ok e → d.Occupied earlier →
    e.findings = d.findings ++ (steps earlier ps).filterMap fun s => displacement s.1 s.2
  | [], _, _, _, _, h, _ => by
    obtain rfl := Except.ok.inj h
    simp [steps]
  | p :: ps, earlier, d, e, policy, h, hd => by
    obtain ⟨d', hstep, hrest⟩ := addAll_cons_eq_ok_iff.mp h
    obtain ⟨herr, hd'⟩ := add_errors hstep hd
    rw [addAll_errors hrest hd', herr, steps, List.filterMap_cons, List.append_assoc]
    cases displacement earlier p <;> rfl

end DocumentState

/-! ## Whole compilations -/

/-- **All errors of a compilation** that overwrites, in order: those of the claims, then those of
the places. -/
theorem errors_of_overwrite {config : Config} {scope : Scope} {c : Compiled OpenApi}
    (hc : assemble config scope = .ok c) (hp : config.collisions = .overwrite) :
    ∃ plans planner, (Planner.new config).planAll scope.actions = .ok (plans, planner) ∧
      c.findings.filter Finding.isError =
        ((steps [] plans).filterMap fun s => takeover s.1 s.2) ++
          (steps [] plans).filterMap fun s => displacement s.1 s.2 := by
  obtain ⟨plans, planner, state, hplan, hstate, rfl⟩ := assemble_eq_ok_iff.mp hc
  refine ⟨plans, planner, hplan, ?_⟩
  have hclaims := Planner.planAll_errors hplan hp (Registry.remembers_new _)
  have hplaces := DocumentState.addAll_errors hstate DocumentState.occupied_empty
  have hall : ((steps [] plans).filterMap fun s => displacement s.1 s.2).filter Finding.isError =
      (steps [] plans).filterMap fun s => displacement s.1 s.2 := by
    rw [List.filter_eq_self]
    intro f hf
    obtain ⟨s, -, hs⟩ := List.mem_filterMap.mp hf
    obtain ⟨q, -, rfl⟩ := Option.map_eq_some_iff.mp hs
    rfl
  rw [List.filter_append, hclaims, hplaces]
  simp only [Planner.new, List.filter_nil, List.nil_append]
  rw [hall]

/-- Some error names both of two actions. -/
def Finding.Reported (findings : List Finding) (a b : String) : Prop :=
  ∃ f ∈ findings, f.isError = true ∧ a ∈ f.labels ∧ b ∈ f.labels

/-- Behind earlier plans, the plan `p` meets the plan `q`: the one that its claim is reported
against, or the one whose operation it replaces. -/
def ActionPlan.Meets (earlier : List ActionPlan) (p q : ActionPlan) : Prop :=
  p.holder? earlier = some q ∨ p.occupant? earlier = some q

theorem ActionPlan.Meets.mem {earlier : List ActionPlan} {p q : ActionPlan}
    (h : p.Meets earlier q) : q ∈ earlier :=
  h.elim mem_of_holder? fun hq => (mem_of_latest hq).1

/-- An error names the plan of a step and a plan that it meets. -/
theorem reported_iff {findings : List Finding} {plans : List ActionPlan}
    (h : findings.filter Finding.isError =
      ((steps [] plans).filterMap fun s => takeover s.1 s.2) ++
        (steps [] plans).filterMap fun s => displacement s.1 s.2) {a b : String} :
    Finding.Reported findings a b ↔ ∃ earlier p later q, plans = earlier ++ p :: later ∧
      p.Meets earlier q ∧ a ∈ [p.label, q.label] ∧ b ∈ [p.label, q.label] := by
  have hmem : ∀ f, (f ∈ findings ∧ f.isError = true) ↔
      ∃ s ∈ steps [] plans, takeover s.1 s.2 = some f ∨ displacement s.1 s.2 = some f := by
    intro f
    rw [← List.mem_filter, h, List.mem_append, List.mem_filterMap, List.mem_filterMap]
    simp only [and_or_left, exists_or]
  constructor
  · rintro ⟨f, hf, herr, ha, hb⟩
    obtain ⟨⟨earlier, p⟩, hs, hf⟩ := (hmem f).mp ⟨hf, herr⟩
    obtain ⟨_, later, hplans, rfl⟩ := mem_steps.mp hs
    refine ⟨earlier, p, later, ?_⟩
    rcases hf with hf | hf
    · obtain ⟨q, hq, rfl⟩ := Option.map_eq_some_iff.mp hf
      exact ⟨q, hplans, Or.inl hq, ha, hb⟩
    · obtain ⟨q, hq, rfl⟩ := Option.map_eq_some_iff.mp hf
      exact ⟨q, hplans, Or.inr hq, ha, hb⟩
  · rintro ⟨earlier, p, later, q, hplans, hq, ha, hb⟩
    have hs : (earlier, p) ∈ steps [] plans := mem_steps.mpr ⟨earlier, later, hplans, rfl⟩
    rcases hq with hq | hq
    · obtain ⟨hf, herr⟩ := (hmem (.identifierReplaced p.label p.identity.operationId q.label)).mpr
        ⟨_, hs, Or.inl (by simp [takeover, hq])⟩
      exact ⟨_, hf, herr, ha, hb⟩
    · obtain ⟨hf, herr⟩ := (hmem (.operationReplaced p.label q.label p.verb p.path)).mpr
        ⟨_, hs, Or.inr (by simp [displacement, hq])⟩
      exact ⟨_, hf, herr, ha, hb⟩

/-- Where labels are distinct, a label stands behind one list of plans only. -/
theorem split_unique {earlier later earlier' later' : List ActionPlan} {p p' : ActionPlan}
    (hd : ((earlier ++ p :: later).map ActionPlan.label).Nodup)
    (heq : earlier ++ p :: later = earlier' ++ p' :: later') (hl : p.label = p'.label) :
    earlier = earlier' ∧ p = p' := by
  have hfront : ∀ {xs ys : List ActionPlan} {r : ActionPlan},
      ((xs ++ r :: ys).map ActionPlan.label).Nodup → r.label ∉ xs.map ActionPlan.label := by
    intro xs ys r h
    rw [List.map_append, List.map_cons] at h
    exact fun hmem => (List.nodup_append.mp h).2.2 _ hmem _ List.mem_cons_self rfl
  rcases List.append_eq_append_iff.mp heq with ⟨mid, rfl, hmid⟩ | ⟨mid, rfl, hmid⟩
  · cases mid with
    | nil => exact ⟨(List.append_nil _).symm, (List.cons.inj hmid).1⟩
    | cons m mid =>
      obtain ⟨rfl, -⟩ := List.cons.inj hmid
      rw [heq] at hd
      exact absurd (by simp [hl]) (hfront hd)
  · cases mid with
    | nil => exact ⟨List.append_nil _, (List.cons.inj hmid).1.symm⟩
    | cons m mid =>
      obtain ⟨rfl, -⟩ := List.cons.inj hmid
      exact absurd (by simp [hl]) (hfront hd)

/-- Where labels are distinct, an error names a plan and an earlier one just if they meet. -/
theorem meets_iff_of_nodup {plans earlier later : List ActionPlan} {p q : ActionPlan}
    (hd : (plans.map ActionPlan.label).Nodup) (hplans : plans = earlier ++ p :: later)
    (hq : q ∈ earlier) : (∃ earlier' p' later' q', plans = earlier' ++ p' :: later' ∧
      p'.Meets earlier' q' ∧ p.label ∈ [p'.label, q'.label] ∧ q.label ∈ [p'.label, q'.label]) ↔
    p.Meets earlier q := by
  have hinj : ∀ {r s : ActionPlan}, r ∈ plans → s ∈ plans → r.label = s.label → r = s :=
    fun hr hs h => List.inj_on_of_nodup_map hd hr hs h
  have hp : p ∈ plans := by rw [hplans]; simp
  have hqp : q ∈ plans := by rw [hplans]; exact List.mem_append_left _ hq
  have hnot : p ∉ earlier := by
    intro hmem
    obtain ⟨front, back, rfl⟩ := List.append_of_mem hmem
    have hsplit : plans = front ++ p :: (back ++ p :: later) := by rw [hplans]; simp
    have heq := (split_unique (hsplit ▸ hd) (hsplit.symm.trans hplans) rfl).1
    simpa using congrArg List.length heq
  have hne : p.label ≠ q.label := fun h => hnot (hinj hp hqp h ▸ hq)
  constructor
  · rintro ⟨earlier', p', later', q', hplans', hmeets, hpl, hql⟩
    have hp' : p' ∈ plans := by rw [hplans']; simp
    have hq' : q' ∈ plans := by rw [hplans']; exact List.mem_append_left _ hmeets.mem
    simp only [List.mem_cons, List.not_mem_nil, or_false] at hpl hql
    rcases hpl with hpl | hpl <;> rcases hql with hql | hql
    · exact absurd (hpl.trans hql.symm) hne
    · obtain rfl := hinj hqp hq' hql
      obtain ⟨rfl, rfl⟩ := split_unique (hplans ▸ hd) (hplans.symm.trans hplans') hpl
      exact hmeets
    · -- the other way round: `q` would come behind `p`
      obtain rfl := hinj hp hq' hpl
      obtain rfl := hinj hqp hp' hql
      obtain ⟨front, back, rfl⟩ := List.append_of_mem hq
      have hsplit : plans = front ++ q :: (back ++ p :: later) := by rw [hplans]; simp
      obtain ⟨rfl, -⟩ := split_unique (hsplit ▸ hd) (hsplit.symm.trans hplans') rfl
      exact absurd (List.mem_append_left _ hmeets.mem) hnot
    · exact absurd (hpl.trans hql.symm) hne
  · intro hmeets
    exact ⟨earlier, p, later, q, hplans, hmeets, by simp, by simp⟩

/-- **When a report names the action whose schema is lost.** Wherever a plan stores a schema under
a name that an earlier plan has stored one under, some error names the plan; but the error names the
plan `q`, whose schema is lost, only if the two meet as holder or at a place, or if their labels
happen to be those of another such meeting. Where labels are distinct, nothing but a meeting of the
two will do. -/
theorem replacement_reported_iff {config : Config} {scope : Scope} {c : Compiled OpenApi}
    (hc : assemble config scope = .ok c) (hp : config.collisions = .overwrite) :
    ∃ plans planner, (Planner.new config).planAll scope.actions = .ok (plans, planner) ∧
      ∀ earlier p later name q, plans = earlier ++ p :: later → p.stores name = true →
        latest (stores name) earlier = some q →
        (∃ first, .identifierReplaced p.label p.identity.operationId first ∈ c.findings) ∧
        (Finding.Reported c.findings p.label q.label ↔
          ∃ earlier' p' later' q', plans = earlier' ++ p' :: later' ∧ p'.Meets earlier' q' ∧
            p.label ∈ [p'.label, q'.label] ∧ q.label ∈ [p'.label, q'.label]) ∧
        ((plans.map ActionPlan.label).Nodup →
          (Finding.Reported c.findings p.label q.label ↔ p.Meets earlier q)) := by
  obtain ⟨plans, planner, hplan, herrors⟩ := errors_of_overwrite hc hp
  refine ⟨plans, planner, hplan, fun earlier p later name q hplans hstores hlatest => ?_⟩
  obtain ⟨hq, hqstores⟩ := mem_of_latest hlatest
  refine ⟨?_, reported_iff herrors, fun hd => (reported_iff herrors).trans
    (meets_iff_of_nodup hd hplans hq)⟩
  obtain ⟨holder, hholder⟩ := exists_holder? hq (stem_eq_of_stores hstores hqstores)
  have hs : (earlier, p) ∈ steps [] plans := mem_steps.mpr ⟨earlier, later, hplans, rfl⟩
  refine ⟨holder.label, (List.mem_filter.mp (?_ : _ ∈ c.findings.filter Finding.isError)).1⟩
  rw [herrors, List.mem_append, List.mem_filterMap]
  exact Or.inl ⟨_, hs, by simp [takeover, hholder]⟩

/-- Three names that meet crosswise: the third has the operation identifier of the first and the
stem of the second. -/
def Scope.crossing : Scope :=
  .object { name := "Order", actions :=
    [.named "Approve Order", .named "APPROVEOrder", .named "aPPROVE order"] }

/-- The plan of one of the three under its identifiers. -/
def Scope.crossingPlan (name : String) (i : Identity) : ActionPlan :=
  (Action.named name).planned "Order" i

/-- The first two plans of the three. -/
def Scope.crossingEarlier : List ActionPlan :=
  [crossingPlan "Approve Order" ⟨"approve_order", "ApproveOrder"⟩,
    crossingPlan "APPROVEOrder" ⟨"approveorder", "APPROVEOrder"⟩]

/-- The third plan of the three. -/
def Scope.crossingLast : ActionPlan :=
  crossingPlan "aPPROVE order" ⟨"approve_order", "APPROVEOrder"⟩

/-- The third action replaces the schema of the second, and no error says so: what is reported is a
collision with the first. -/
theorem crossing_misreported :
    ∃ c plans planner, assemble { collisions := .overwrite } .crossing = .ok c ∧
      (Planner.new { collisions := .overwrite }).planAll Scope.crossing.actions =
        .ok (plans, planner) ∧
      ∃ earlier p q, plans = earlier ++ [p] ∧ p.stores "APPROVEOrderResponse" = true ∧
        latest (stores "APPROVEOrderResponse") earlier = some q ∧
        p.label = "Order.aPPROVE order" ∧ q.label = "Order.APPROVEOrder" ∧
        ¬ Finding.Reported c.findings p.label q.label := by
  have hc : ∃ c, assemble { collisions := .overwrite } .crossing = .ok c := ⟨_, rfl⟩
  have hrun : ∃ planner, (Planner.new { collisions := .overwrite }).planAll
      Scope.crossing.actions = .ok (Scope.crossingEarlier ++ [Scope.crossingLast], planner) :=
    ⟨_, rfl⟩
  obtain ⟨c, hc⟩ := hc
  obtain ⟨plans, planner, hplan, h⟩ := replacement_reported_iff hc rfl
  obtain ⟨planner', hrun⟩ := hrun
  obtain ⟨rfl, rfl⟩ := Prod.mk.inj (Except.ok.inj (hplan.symm.trans hrun))
  refine ⟨c, _, _, hc, hplan, Scope.crossingEarlier, Scope.crossingLast, _, rfl,
    by decide +kernel, rfl, by decide +kernel, by decide +kernel, ?_⟩
  have hnodup : ((Scope.crossingEarlier ++ [Scope.crossingLast]).map ActionPlan.label).Nodup := by
    decide +kernel
  rw [(h _ _ [] "APPROVEOrderResponse" _ rfl (by decide +kernel) rfl).2.2 hnodup]
  -- both as holder and at its place the third meets the first
  rintro (hq | hq)
  · revert hq
    exact mt (congrArg (Option.map ActionPlan.label)) (by decide +kernel)
  · revert hq
    exact mt (congrArg (Option.map ActionPlan.label)) (by decide +kernel)

end OntologyCompiler
