import Mathlib.Data.List.Infix
import OntologyCompiler.Proofs.FirstAppearance
import OntologyCompiler.Proofs.Identity
import OntologyCompiler.Proofs.RequestSchema

/-!
# The variables of path templates

One pass over a template, which forgets an opening brace when it meets another, finds what stands in
braces at each place of the template, place by place: no brace can belong to two of these. So the
variables are those names that stand in braces somewhere, in the order of their first places. The
path that is made for an object has the variables of what it shows of the object's name, and `id`;
a brace that is left open in the name is not closed by what follows.

* `braced_names`: the pass finds the name at each place.
* `mem_params_iff_stands`, `pairwise_params`: the variables, and their order.
* `braced_append`: the pass over two parts.
* `opened_plain`, `braced_plain`: the pass over a text without braces.
* `params_ofObject`: the variables of the path of an object.
* `params_exact`: all of it.
-/

namespace OntologyCompiler.PathTemplate

/-! ## One place of a template -/

/-- A text without braces. -/
def Unbraced (cs : List Char) : Prop :=
  ∀ c ∈ cs, c ≠ '{' ∧ c ≠ '}'

/-- What stands before the first brace, if that is a closing one. -/
def closed? : List Char → Option (List Char)
  | [] => none
  | c :: cs =>
    if c = '{' then none
    else if c = '}' then some []
    else (closed? cs).map (c :: ·)

/-- The name that a text stands for, if it is not blank. -/
def name? (cs : List Char) : Option String :=
  Text.nonBlank? (String.ofList cs)

/-- The name in the braces that open at the front of a text. -/
def frontName? : List Char → Option String
  | [] => none
  | c :: cs => if c = '{' then (closed? cs).bind name? else none

/-- A name stands in braces at the front of a text, maybe with blanks around it. -/
def StandsFirst (cs : List Char) (p : String) : Prop :=
  ∃ w after, cs = '{' :: (w ++ '}' :: after) ∧ Unbraced w ∧ Text.strip (String.ofList w) = p

theorem unbraced_cons {c : Char} {cs : List Char} :
    Unbraced (c :: cs) ↔ (c ≠ '{' ∧ c ≠ '}') ∧ Unbraced cs :=
  List.forall_mem_cons

theorem closed?_eq_some_iff : ∀ {cs w : List Char},
    closed? cs = some w ↔ ∃ after, cs = w ++ '}' :: after ∧ Unbraced w
  | [], w => by simp [closed?]
  | c :: cs, [] => by
    rw [closed?]
    by_cases hopen : c = '{'
    · simp [hopen]
    · by_cases hclose : c = '}'
      · simp [hclose, Unbraced]
      · simp [hopen, hclose]
  | c :: cs, d :: w => by
    have ih := @closed?_eq_some_iff cs w
    rw [closed?]
    by_cases hplain : c ≠ '{' ∧ c ≠ '}'
    · rw [if_neg hplain.1, if_neg hplain.2, Option.map_eq_some_iff]
      constructor
      · rintro ⟨u, hu, heq⟩
        obtain ⟨rfl, rfl⟩ := List.cons.inj heq
        obtain ⟨after, rfl, hw⟩ := ih.mp hu
        exact ⟨after, rfl, unbraced_cons.mpr ⟨hplain, hw⟩⟩
      · rintro ⟨after, heq, hw⟩
        obtain ⟨rfl, rfl⟩ := List.cons.inj heq
        exact ⟨w, ih.mpr ⟨after, rfl, (unbraced_cons.mp hw).2⟩, rfl⟩
    · have hleft : ¬ ∃ after, c :: cs = d :: w ++ '}' :: after ∧ Unbraced (d :: w) := by
        rintro ⟨after, heq, hw⟩
        obtain ⟨rfl, -⟩ := List.cons.inj heq
        exact hplain (unbraced_cons.mp hw).1
      refine ⟨fun h => ?_, fun h => absurd h hleft⟩
      split at h
      · exact nomatch h
      · split at h
        · exact nomatch h
        · rename_i hopen hclose
          exact absurd ⟨hopen, hclose⟩ hplain

theorem name?_nil : name? [] = none := rfl

theorem name?_eq_some_iff {w : List Char} {p : String} :
    name? w = some p ↔ Text.strip (String.ofList w) = p ∧ p ≠ "" :=
  Text.nonBlank?_eq_some_iff

theorem frontName?_eq_some_iff {cs : List Char} {p : String} :
    frontName? cs = some p ↔ p ≠ "" ∧ StandsFirst cs p := by
  cases cs with
  | nil => simp [frontName?, StandsFirst]
  | cons c cs =>
    rw [frontName?]
    by_cases hopen : c = '{'
    · rw [if_pos hopen, Option.bind_eq_some_iff]
      simp only [name?_eq_some_iff, closed?_eq_some_iff]
      constructor
      · rintro ⟨w, ⟨after, rfl, hplain⟩, hstrip, hne⟩
        exact ⟨hne, w, after, by rw [hopen], hplain, hstrip⟩
      · rintro ⟨hne, w, after, hcs, hplain, hstrip⟩
        exact ⟨w, ⟨after, (List.cons.inj hcs).2, hplain⟩, hstrip, hne⟩
    · rw [if_neg hopen]
      exact ⟨nofun, fun ⟨_, w, after, hcs, _⟩ => absurd (List.cons.inj hcs).1 hopen⟩

/-! ## The pass over a template -/

theorem braced_cons_plain (inside : Option (List Char)) {c : Char} (hplain : c ≠ '{' ∧ c ≠ '}')
    (cs : List Char) : braced inside (c :: cs) = braced (inside.map (c :: ·)) cs := by
  simp [braced, hplain.1, hplain.2]

/-- **The pass** finds the name that is open, if it is closed, and the name at each place. -/
theorem braced_names (inside : Option (List Char)) (cs : List Char) :
    (braced inside cs).filterMap name? =
      (inside.bind fun read => (closed? cs).bind fun w => name? (read.reverse ++ w)).toList ++
        cs.tails.filterMap frontName? := by
  fun_induction braced inside cs with
  | case1 inside => cases inside <;> rfl
  | case2 inside cs ih =>
    rw [ih, List.tails_cons, List.filterMap_cons, frontName?, closed?, if_pos rfl, if_pos rfl]
    cases inside <;> cases h : (closed? cs).bind name? <;> simp [h]
  | case3 cs d ds hopen ih =>
    rw [List.filterMap_cons, ih, List.tails_cons, List.filterMap_cons, frontName?, closed?,
      if_neg hopen, if_neg hopen, if_pos rfl]
    cases h : name? (ds.reverse ++ [d]) <;> simp [h]
  | case4 inside cs hempty hopen ih =>
    rw [ih, List.tails_cons, List.filterMap_cons, frontName?, closed?, if_neg hopen, if_neg hopen,
      if_pos rfl]
    rcases inside with _ | _ | ⟨d, ds⟩
    · simp
    · simp [name?_nil]
    · exact absurd rfl (hempty d ds)
  | case5 inside c cs hopen hclose ih =>
    rw [ih, List.tails_cons, List.filterMap_cons, frontName?, closed?, if_neg hopen, if_neg hopen,
      if_neg hclose]
    cases inside <;> cases closed? cs <;> simp

/-! ## All places -/

/-- A name stands in braces at a place of a template, with `place` characters before it, and maybe
with blanks around it. -/
def Stands (template p : String) (place : Nat) : Prop :=
  ∃ before w after : String, template = before ++ "\x7b" ++ w ++ "\x7d" ++ after ∧
    before.length = place ∧ '{' ∉ w.toList ∧ '}' ∉ w.toList ∧ Text.strip w = p

/-- One name stands somewhere before another stands anywhere. -/
def StandsBefore (template p q : String) : Prop :=
  ∃ i, Stands template p i ∧ ∀ j, Stands template q j → i < j

theorem unbraced_iff {cs : List Char} : Unbraced cs ↔ '{' ∉ cs ∧ '}' ∉ cs :=
  ⟨fun h => ⟨fun hc => (h _ hc).1 rfl, fun hc => (h _ hc).2 rfl⟩,
    fun h _ hc => ⟨fun heq => h.1 (heq ▸ hc), fun heq => h.2 (heq ▸ hc)⟩⟩

/-- **A place** is where the rest of the template begins with the name. -/
theorem stands_iff {template p : String} {place : Nat} : Stands template p place ↔
    ∃ rest, rest <:+ template.toList ∧ rest.length + place = template.length ∧
      StandsFirst rest p := by
  constructor
  · rintro ⟨before, w, after, rfl, rfl, hopen, hclose, hstrip⟩
    refine ⟨'{' :: (w.toList ++ '}' :: after.toList), ⟨before.toList, by simp⟩, ?_,
      w.toList, after.toList, rfl, unbraced_iff.mpr ⟨hopen, hclose⟩, ?_⟩
    · simp only [← String.length_toList, String.toList_append, List.length_append, List.length_cons]
      simp
      omega
    · rw [String.ofList_toList, hstrip]
  · rintro ⟨rest, ⟨before, hbefore⟩, hlength, w, after, rfl, hplain, hstrip⟩
    obtain ⟨hopen, hclose⟩ := unbraced_iff.mp hplain
    refine ⟨String.ofList before, String.ofList w, String.ofList after, ?_, ?_, by simpa, by simpa,
      hstrip⟩
    · apply String.toList_inj.mp
      simp [← hbefore]
    · rw [← String.length_toList, ← hbefore, List.length_append] at hlength
      rw [← String.length_toList, String.toList_ofList]
      omega

theorem params_eq_names (template : String) :
    params template = distinct ((braced none template.toList).filterMap name?) := rfl

theorem params_eq (template : String) :
    params template = distinct (template.toList.tails.filterMap frontName?) := by
  have hnames := braced_names none template.toList
  rw [Option.bind_none, Option.toList_none, List.nil_append] at hnames
  exact congrArg distinct hnames

/-- **The variables** are the names that stand in braces somewhere. -/
theorem mem_params_iff_stands {template p : String} :
    p ∈ params template ↔ p ≠ "" ∧ ∃ place, Stands template p place := by
  simp only [params_eq, mem_distinct, List.mem_filterMap, List.mem_tails, frontName?_eq_some_iff,
    stands_iff]
  constructor
  · rintro ⟨rest, hrest, hne, hfirst⟩
    have hle := hrest.length_le
    rw [String.length_toList] at hle
    exact ⟨hne, template.length - rest.length, rest, hrest, by omega, hfirst⟩
  · rintro ⟨hne, -, rest, hrest, -, hfirst⟩
    exact ⟨rest, hrest, hne, hfirst⟩

theorem pairwise_tails {α : Type} : ∀ cs : List α,
    cs.tails.Pairwise fun s t => t.length < s.length
  | [] => List.pairwise_singleton _ _
  | _ :: cs => by
    rw [List.tails_cons, List.pairwise_cons]
    refine ⟨fun t ht => ?_, pairwise_tails cs⟩
    have hle := ((List.mem_tails t cs).mp ht).length_le
    rw [List.length_cons]
    omega

/-- **The variables stand in the order of their first places.** -/
theorem pairwise_params (template : String) :
    (params template).Pairwise (StandsBefore template) := by
  rw [params_eq]
  refine List.Pairwise.imp_of_mem ?_
    (pairwise_distinct_filterMap (pairwise_tails template.toList) frontName?)
  rintro p q - hq ⟨rest, hrest, hp, hall⟩
  have hne : q ≠ "" := (mem_params_iff_stands.mp (params_eq template ▸ hq)).1
  have hsuffix := (List.mem_tails _ _).mp hrest
  have hle := hsuffix.length_le
  rw [String.length_toList] at hle
  refine ⟨template.length - rest.length, stands_iff.mpr ⟨rest, hsuffix, by omega,
    (frontName?_eq_some_iff.mp hp).2⟩, fun j hj => ?_⟩
  obtain ⟨other, hother, hlength, hfirst⟩ := stands_iff.mp hj
  have hlater := hall other ((List.mem_tails _ _).mpr hother)
    (frontName?_eq_some_iff.mpr ⟨hne, hfirst⟩)
  omega

theorem nodup_params (template : String) : (params template).Nodup :=
  nodup_distinct _

/-! ## The path of an object -/

/-- What has been read since the last opening brace, last character first, at the end of a text. -/
def opened : Option (List Char) → List Char → Option (List Char)
  | inside, [] => inside
  | inside, c :: cs =>
    if c = '{' then opened (some []) cs
    else if c = '}' then opened none cs
    else opened (inside.map (c :: ·)) cs

/-- **The pass over two parts** goes on with what the first one leaves open. -/
theorem braced_append (inside : Option (List Char)) (xs ys : List Char) :
    braced inside (xs ++ ys) = braced inside xs ++ braced (opened inside xs) ys := by
  fun_induction braced inside xs with
  | case1 inside => rfl
  | case2 inside xs ih => rw [List.cons_append, braced_cons_open, ih, opened, if_pos rfl]
  | case3 xs d ds hopen ih => simp [braced, opened, ih]
  | case4 inside xs hempty hopen ih =>
    rw [opened, if_neg hopen, if_pos rfl, ← ih]
    rcases inside with _ | _ | ⟨d, ds⟩
    · simp [braced]
    · simp [braced]
    · exact absurd rfl (hempty d ds)
  | case5 inside c xs hopen hclose ih =>
    rw [List.cons_append, braced_cons_plain _ ⟨hopen, hclose⟩, ih, opened, if_neg hopen,
      if_neg hclose]

theorem braced_plain {cs : List Char} (h : Unbraced cs) (inside : Option (List Char)) :
    braced inside cs = [] := by
  induction cs generalizing inside with
  | nil => rfl
  | cons c cs ih =>
    obtain ⟨hc, hcs⟩ := unbraced_cons.mp h
    rw [braced_cons_plain _ hc, ih hcs]

theorem opened_plain {cs : List Char} (h : Unbraced cs) (inside : Option (List Char)) :
    opened inside cs = inside.map (cs.reverse ++ ·) := by
  induction cs generalizing inside with
  | nil => cases inside <;> rfl
  | cons c cs ih =>
    obtain ⟨hc, hcs⟩ := unbraced_cons.mp h
    rw [opened, if_neg hc.1, if_neg hc.2, ih hcs]
    cases inside <;> simp

/-- The name of an object as its paths show it: in lower case, with a hyphen for every gap. -/
def resource (object : String) : String :=
  String.ofList (collapse isGap '-' (Text.lowerChars (Text.stripChars object.toList)))

theorem ofObject_eq (object operationId : String) : ofObject object operationId =
    "/api/" ++ resource object ++ "s/\x7bid\x7d/" ++ operationId := rfl

/-- **The pass over the path of an object** finds what it finds in the name, and `id`. Behind the
name the next brace opens, so it closes none of the name. -/
theorem braced_ofObject (object : String) {operationId : String}
    (h : Unbraced operationId.toList) :
    braced none (ofObject object operationId).toList =
      braced none (resource object).toList ++ ["id".toList] := by
  have hfront : Unbraced "/api/".toList := by simp [Unbraced]
  have hrest (inside : Option (List Char)) :
      braced inside "s/\x7bid\x7d/".toList = ["id".toList] ∧
        opened inside "s/\x7bid\x7d/".toList = none := by
    cases inside <;> simp [braced, opened]
  simp only [ofObject_eq, String.toList_append, List.append_assoc]
  rw [braced_append, braced_plain hfront, opened_plain hfront, Option.map_none, List.nil_append,
    braced_append, braced_append, (hrest _).1, braced_plain h, List.append_nil]

/-- **The path of an object** has the variables that its name shows, and `id`. -/
theorem params_ofObject (object : String) {operationId : String}
    (h : Unbraced operationId.toList) : params (ofObject object operationId) =
      if "id" ∈ params (resource object) then params (resource object)
      else params (resource object) ++ ["id"] := by
  have hid : name? "id".toList = some "id" := by decide +kernel
  rw [params_eq_names, braced_ofObject object h, List.filterMap_append,
    List.filterMap_cons_some hid, List.filterMap_nil, distinct_snoc]
  simp only [params_eq_names, mem_distinct]

/-! ## Everything together -/

/-- **The variables of a template** are the names that stand in braces somewhere, each once and in
the order of their first places. The path of an object with a derived operation identifier has the
variables of the name as it is shown there, and `id` behind them if it is not among them. -/
theorem params_exact :
    (∀ template p, p ∈ params template ↔ p ≠ "" ∧ ∃ place, Stands template p place) ∧
    (∀ template, (params template).Nodup ∧ (params template).Pairwise (StandsBefore template)) ∧
    ∀ object name, params (ofObject object (Identity.derive name).operationId) =
      params (resource object) ++ if "id" ∈ params (resource object) then [] else ["id"] := by
  refine ⟨fun _ _ => mem_params_iff_stands, fun template =>
    ⟨nodup_params template, pairwise_params template⟩, fun object name => ?_⟩
  have hunbraced : Unbraced (Identity.derive name).operationId.toList := by
    intro c hc
    constructor <;>
    · rintro rfl
      exact absurd ((Identity.isWellFormed_derive name).operation _ hc) (by decide)
  rw [params_ofObject object hunbraced]
  split
  · rw [List.append_nil]
  · rfl

/-- An opening brace that is not closed before the next one opens nothing, and one that the name of
an object leaves open does not reach over what follows. -/
example : params "/\x7ba\x7b b \x7d/\x7b\x7d\x7bb\x7d\x7d\x7bc\x7d" = ["b", "c"] ∧
    params (ofObject "\x7btenant\x7d Order\x7b" "send") = ["tenant", "id"] := by
  decide +kernel

end OntologyCompiler.PathTemplate
