import OntologyCompiler.Proofs.FirstAppearance
import OntologyCompiler.Proofs.Reading
import OntologyCompiler.Proofs.RequestSchema

/-!
# The merge of parameters and example

The request schema of an action is settled by its declarations, which are the parameters that have a
name, and by its example body. Declarations are writes at their names, of which the last one at a
name counts. Each member of the body is a change at a name of its own: it shows the value in the
property that was declared, or in one that the value gives rise to.

* `declare_object`, `addExample_object`: one step.
* `requestShape_eq`: the whole run, as writes and changes.
* `get?_showAll`: a property after all members of the body.
* `nodup_exampleBody`: members have names of their own, also where the body is a text.
* `requestSchema_merges`: the schema, as declarations and body say it.
-/

namespace OntologyCompiler

/-- A parameter under its name without the blanks around it, if anything is left of that. -/
def Parameter.declaration? (q : Parameter) : Option (String × Parameter) :=
  (Text.nonBlank? q.name).map (·, q)

namespace Schema

/-! ## One step -/

/-- An object with properties, some of them required. -/
def object (properties : Ordered String Schema) (required : List String) : Schema :=
  { type := some .object, properties := properties, required := required }

/-- The property that a declaration gives rise to. -/
def ofDeclaration (v : Vocabulary) (q : Parameter) : Schema :=
  (ofKind q.kind v).described q.description

/-- A property that is shown with a value, where the vocabulary has examples. -/
def showing (v : Vocabulary) (value : Json) (s : Schema) : Schema :=
  if v = .openApi then { s with sample := some value } else s

/-- Add a parameter under a name. -/
def declare (v : Vocabulary) (s : Schema) (d : String × Parameter) : Schema :=
  { s with
    properties := Ordered.put s.properties d.1 (ofDeclaration v d.2)
    required := if d.2.required then addName s.required d.1 else s.required }

theorem ofDeclaration_eq (v : Vocabulary) (q : Parameter) : ofDeclaration v q =
    { type := some q.kind.schemaType
      format := if v = .openApi then q.kind.format else none
      description := Text.nonBlank? q.description } := by
  unfold ofDeclaration described
  cases h : Text.nonBlank? q.description <;> rfl

theorem addParameter_eq (v : Vocabulary) (s : Schema) (q : Parameter) :
    s.addParameter v q = q.declaration?.elim s (s.declare v) := by
  unfold addParameter Parameter.declaration?
  cases Text.nonBlank? q.name with
  | none => rfl
  | some name =>
    by_cases hreq : q.required = true <;> by_cases hmem : name ∈ s.required <;>
      simp [declare, ofDeclaration, addName, isRequired, hreq, hmem]

variable {v : Vocabulary}

theorem declare_object (properties : Ordered String Schema) (required : List String)
    (d : String × Parameter) : (object properties required).declare v d =
      object (Ordered.put properties d.1 (ofDeclaration v d.2))
        (if d.2.required then addName required d.1 else required) := rfl

theorem addExample_object (properties : Ordered String Schema) (required : List String)
    (m : String × Json) : (object properties required).addExample v m =
      object (Ordered.change properties m.1 (infer m.2) (showing v m.2)) required := rfl

/-! ## Runs -/

/-- The properties with the members of an example body shown in them. -/
def showAll (v : Vocabulary) (properties : Ordered String Schema) (members : Ordered String Json) :
    Ordered String Schema :=
  members.foldl (fun ps m => Ordered.change ps m.1 (infer m.2) (showing v m.2)) properties

/-- **Parameters without a name** do nothing. -/
theorem foldl_addParameter (qs : List Parameter) (s : Schema) :
    qs.foldl (addParameter v) s = (qs.filterMap Parameter.declaration?).foldl (declare v) s := by
  induction qs generalizing s with
  | nil => rfl
  | cons q qs ih =>
    rw [List.foldl_cons, ih, addParameter_eq, List.filterMap_cons]
    cases q.declaration? <;> rfl

/-- **A run of declarations** writes their properties, and adds the names of those required. -/
theorem foldl_declare (ds : List (String × Parameter)) (properties : Ordered String Schema)
    (required : List String) : ds.foldl (declare v) (object properties required) =
      object (Ordered.putAll properties (Ordered.mapValues (ofDeclaration v) ds))
        (((ds.filter fun d => d.2.required).map Prod.fst).foldl addName required) := by
  induction ds generalizing properties required with
  | nil => rfl
  | cons d ds ih =>
    rw [List.foldl_cons, declare_object, ih]
    by_cases hreq : d.2.required = true
    · simp [hreq, Ordered.mapValues, Ordered.putAll_cons]
    · simp [hreq, Ordered.mapValues, Ordered.putAll_cons]

/-- **A run of members** shows them. -/
theorem foldl_addExample (members : Ordered String Json) (properties : Ordered String Schema)
    (required : List String) : members.foldl (addExample v) (object properties required) =
      object (showAll v properties members) required := by
  induction members generalizing properties with
  | nil => rfl
  | cons m members ih =>
    rw [List.foldl_cons, addExample_object, ih]
    rfl

/-- **A property after all members** of a body that names each of them once is what it was before,
shown with the value of its member; without a member it is what it was. -/
theorem get?_showAll {members : Ordered String Json} (hnodup : (Ordered.keys members).Nodup)
    (properties : Ordered String Schema) (name : String) :
    Ordered.get? (showAll v properties members) name =
      match Ordered.get? members name with
      | none => Ordered.get? properties name
      | some value =>
        some (showing v value ((Ordered.get? properties name).getD (infer value))) := by
  induction members generalizing properties with
  | nil => rfl
  | cons m members ih =>
    obtain ⟨hnew, hrest⟩ := List.nodup_cons.mp hnodup
    have hstep : showAll v properties (m :: members) =
        showAll v (Ordered.change properties m.1 (infer m.2) (showing v m.2)) members := rfl
    rw [hstep, ih hrest, Ordered.change, Ordered.get?_put]
    by_cases h : m.1 = name
    · subst h
      rw [Ordered.get?_eq_none_iff.mpr hnew]
      simp [Ordered.get?]
    · simp [Ordered.get?, h]

end Schema

namespace Json

/-! ## Bodies given as texts -/

theorem Raw.freeMembers_nodup {room : Nat} : ∀ (raw : List (Option String × Raw))
    {done members : Ordered String Json}, (Ordered.keys done).Nodup →
      Raw.freeMembers room done raw = .ok members → (Ordered.keys members).Nodup
  | [], done, members, hdone, h => by
    rw [Raw.freeMembers] at h
    exact Except.ok.inj h ▸ hdone
  | (none, _) :: rest, done, members, _, h => by
    rw [Raw.freeMembers] at h
    exact nomatch h
  | (some k, raw) :: rest, done, members, hdone, h => by
    rw [Raw.freeMembers] at h
    obtain ⟨value, -, h⟩ := bind_eq_ok_iff.mp h
    exact freeMembers_nodup rest (Ordered.nodup_keys_put hdone k value) h

/-- **An object that is read from a text** names each of its members once. -/
theorem nodup_of_ofText? {text : String} {members : Ordered String Json}
    (h : ofText? text = some (.obj members)) : (Ordered.keys members).Nodup := by
  have hread : readText Medium.free text = .ok (.obj members) := by
    unfold ofText? at h
    cases hread : readText Medium.free text with
    | error e =>
      rw [hread] at h
      exact nomatch h
    | ok v =>
      rw [hread] at h
      rw [Option.some.inj h]
  obtain ⟨⟨room, raw⟩, hfree⟩ := exists_node_of_readText hread
  change raw.free room = .ok (.obj members) at hfree
  cases raw with
  | obj raw closed =>
    obtain ⟨values, hvalues, hobj⟩ := Raw.free_obj_of_ok hfree
    obtain rfl := Json.obj.inj hobj
    have hnil : (Ordered.keys ([] : Ordered String Json)).Nodup := List.nodup_nil
    exact Raw.freeMembers_nodup raw hnil hvalues
  | arr items closed =>
    obtain ⟨values, -, harr⟩ := Raw.free_arr_of_ok hfree
    exact nomatch harr
  | _ => simp [Raw.free] at hfree

end Json

namespace Action

/-- The members of the example body; none where there is no body. -/
def exampleBody (a : Action) : Ordered String Json :=
  a.examplePayload.getD []

/-- The parameters that have a name, each under it. -/
def declarations (a : Action) : List (String × Parameter) :=
  a.parameters.filterMap Parameter.declaration?

/-- The names that parameters declare. -/
def declaredNames (a : Action) : List String :=
  a.declarations.map Prod.fst

/-- The names that required parameters declare. -/
def requiredNames (a : Action) : List String :=
  (a.declarations.filter fun d => d.2.required).map Prod.fst

/-- The names of the properties: those declared, each where it is declared first, and behind them
those that only the example body has. -/
def mergedNames (a : Action) : List String :=
  distinct a.declaredNames ++ (Ordered.keys a.exampleBody).filter fun name => name ∉ a.declaredNames

/-- An example body that is given as an object names each of its members once. -/
def NamesOnce (a : Action) : Prop :=
  ∀ members, a.implementation.bind ImplementationLayer.payload = some (.obj members) →
    (Ordered.keys members).Nodup

open Schema

theorem requestShape_eq (a : Action) (v : Vocabulary) : a.requestShape v =
    object (showAll v (Ordered.putAll [] (Ordered.mapValues (ofDeclaration v) a.declarations))
      a.exampleBody) (distinct a.requiredNames) := by
  unfold requestShape
  rw [foldl_addParameter]
  show (a.exampleBody).foldl _ (a.declarations.foldl _ (object [] [])) = _
  rw [foldl_declare, foldl_addExample]
  rfl

/-! ## The whole schema -/

theorem declaredNames_eq (a : Action) :
    a.declaredNames = a.parameters.filterMap fun q => Text.nonBlank? q.name := by
  rw [declaredNames, declarations, List.map_filterMap]
  refine List.filterMap_congr fun q _ => ?_
  rw [Parameter.declaration?, Option.map_map]
  exact Option.map_id'

theorem nodup_exampleBody {a : Action} (h : a.NamesOnce) : (Ordered.keys a.exampleBody).Nodup := by
  unfold NamesOnce at h
  unfold exampleBody examplePayload
  cases himplementation : a.implementation with
  | none => exact List.nodup_nil
  | some layer =>
    rw [himplementation] at h
    show (Ordered.keys (layer.examplePayload.getD [])).Nodup
    unfold ImplementationLayer.examplePayload
    split
    · exact h _ ‹_›
    · split
      · exact Json.nodup_of_ofText? ‹_›
      · exact List.nodup_nil
    · exact List.nodup_nil

/-- **The names of the properties**: declared names first, and members of the body behind them. -/
theorem keys_requestShape_eq {a : Action} (h : a.NamesOnce) (v : Vocabulary) :
    Ordered.keys (a.requestShape v).properties = a.mergedNames := by
  have hnames : a.propertyNames = a.declaredNames ++ Ordered.keys a.exampleBody := by
    rw [declaredNames_eq]
    rfl
  rw [keys_requestShape, hnames]
  exact distinct_append_of_nodup _ (nodup_exampleBody h)

theorem get?_requestShape {a : Action} (h : a.NamesOnce) (v : Vocabulary) (name : String) :
    Ordered.get? (a.requestShape v).properties name =
      match Ordered.get? a.exampleBody name with
      | none => (Ordered.last? a.declarations name).map (ofDeclaration v)
      | some value => some (showing v value
          (((Ordered.last? a.declarations name).map (ofDeclaration v)).getD (infer value))) := by
  have hdeclared : Ordered.get?
      (Ordered.putAll [] (Ordered.mapValues (ofDeclaration v) a.declarations)) name =
        (Ordered.last? a.declarations name).map (ofDeclaration v) := by
    rw [Ordered.get?_putAll, Ordered.last?_mapValues]
    exact Option.or_none
  rw [requestShape_eq]
  show Ordered.get? (showAll v _ a.exampleBody) name = _
  rw [get?_showAll (nodup_exampleBody h), hdeclared]

/-- What the request schema of an action says, in terms of its declarations and example body. -/
structure Merges (a : Action) (v : Vocabulary) (s : Schema) : Prop where
  /-- It is an object with properties and required names, and says nothing else. -/
  object : s = .object s.properties s.required
  /-- Declared names come first, in the order of their first declarations; then the members of the
  body that are not declared. -/
  names : Ordered.keys s.properties = a.mergedNames
  /-- Of the declarations of a name the last one counts. -/
  declared : ∀ name q, Ordered.last? a.declarations name = some q →
    Ordered.get? s.properties name = some
      { type := some q.kind.schemaType
        format := if v = .openApi then q.kind.format else none
        description := Text.nonBlank? q.description
        sample := if v = .openApi then Ordered.get? a.exampleBody name else none }
  /-- A member that is not declared has the type of its value. -/
  shown : ∀ name value, name ∉ a.declaredNames → Ordered.get? a.exampleBody name = some value →
    Ordered.get? s.properties name = some
      { type := some (inferredType value)
        sample := if v = .openApi then some value else none }
  /-- Names with a required declaration are required, in the order of their first ones. -/
  required : s.required = distinct a.requiredNames
  required_nodup : s.required.Nodup
  required_subset : s.required ⊆ Ordered.keys s.properties

/-- **The request schema is the merge of declarations and example body**; there is none just if
there are no names for properties. -/
theorem requestSchema_merges {a : Action} (h : a.NamesOnce) (v : Vocabulary) :
    (a.requestSchema v = none ↔ a.mergedNames = []) ∧ ∀ s ∈ a.requestSchema v, a.Merges v s := by
  have hkeys := keys_requestShape_eq h v
  have hrequired : (a.requestShape v).required = distinct a.requiredNames := by
    rw [requestShape_eq]
    rfl
  refine ⟨?_, fun s hs => ?_⟩
  · rw [requestSchema_eq_none_iff, ← hkeys]
    exact List.map_eq_nil_iff.symm
  · obtain ⟨-, rfl⟩ := requestSchema_eq_some_iff.mp hs
    refine ⟨?_, hkeys, fun name q hq => ?_, fun name value hnew hvalue => ?_, hrequired, ?_, ?_⟩
    · rw [requestShape_eq]
      rfl
    · rw [get?_requestShape h, hq, Option.map_some]
      cases Ordered.get? a.exampleBody name <;> cases v <;>
        simp [ofDeclaration_eq, showing]
    · rw [get?_requestShape h, hvalue, Ordered.last?_eq_none_iff.mpr hnew]
      cases v <;> rfl
    · rw [hrequired]
      exact nodup_distinct _
    · intro name hname
      rw [hrequired, mem_distinct] at hname
      have hdeclared : name ∈ a.declaredNames :=
        List.map_subset _ (List.filter_subset_self _) hname
      rw [hkeys, mergedNames, List.mem_append, mem_distinct]
      exact .inl hdeclared

/-- An action that declares one parameter twice, with blanks around its name and without, and one
without a name; its example body has members of all sorts. -/
def refund : Action :=
  { name := "Refund"
    logic := some { parameters :=
      [{ name := " amount ", kind := .string, required := true, description := "Old" },
        { name := "  ", required := true },
        { name := "note", kind := .date },
        { name := "amount", kind := .number, description := " In cents " }] }
    implementation := some
      { payload := some (.obj [("urgent", .bool true), ("amount", .num (.whole 5)), (" note", .null)]) } }

/-- The schema has every name once; the later declaration settles the amount, which stays required,
and a member whose name differs in a blank is a property of its own. -/
theorem requestSchema_merges_refund : refund.NamesOnce ∧
    refund.mergedNames = ["amount", "note", "urgent", " note"] ∧
    refund.requiredNames = ["amount"] ∧
    ∃ s, refund.requestSchema .openApi = some s ∧ refund.Merges .openApi s ∧
      Ordered.get? s.properties "amount" = some
        { type := some .number, format := some "double", description := some "In cents"
          sample := some (.num (.whole 5)) } ∧
      Ordered.get? s.properties " note" = some { type := some .string, sample := some .null } := by
  have honce : refund.NamesOnce := by
    intro members hmembers
    obtain rfl := Json.obj.inj (Option.some.inj hmembers)
    decide
  have hnames : refund.mergedNames = ["amount", "note", "urgent", " note"] := by decide +kernel
  obtain ⟨hnone, hmerges⟩ := requestSchema_merges honce .openApi
  cases hs : refund.requestSchema .openApi with
  | none =>
    rw [hnone.mp hs] at hnames
    exact absurd hnames (by decide)
  | some s =>
    have hmerge := hmerges s hs
    refine ⟨honce, hnames, by decide +kernel, s, rfl, hmerge, ?_, ?_⟩
    · have hlast : Ordered.last? refund.declarations "amount" =
          some { name := "amount", kind := .number, description := " In cents " } := rfl
      exact hmerge.declared _ _ hlast
    · exact hmerge.shown " note" .null (by decide +kernel) rfl

end Action

end OntologyCompiler
