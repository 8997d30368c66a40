import OntologyCompiler.Code.TypeScript
import OntologyCompiler.Proofs.Json.Literal

/-!
# The members of an interface

Behind its comment, a member is one line: its key, a question mark unless the argument is required,
and its type. A key stands as it is or as a literal, so a reader knows where it ends.

* `shownKey?_key`, `behindKey_key`: a reader finds a key, and what stands behind it.
* `memberKey?_line`: which argument the line of a member is about.
* `marksOptional_line`: whether the line marks it as optional.
* `TypeScriptModule.bindTools_tools`: the tools of a module.
-/

namespace OntologyCompiler

/-! ## Keys -/

/-- The characters of a key that stands as it is. -/
def isKeyChar (c : Char) : Bool :=
  c.isAlphanum || c == '_' || c == '$'

/-- The key at the front of a text, whether it is a literal or not. -/
def shownKey? (cs : List Char) : Option String :=
  if cs.head? = some '"' then (Json.Raw.text? (cs.drop 1)).bind Prod.fst
  else some (String.ofList (cs.takeWhile isKeyChar))

/-- What stands behind a key, whether it is a literal or not. -/
def behindKey (cs : List Char) : List Char :=
  if cs.head? = some '"' then ((Json.Raw.text? (cs.drop 1)).map Prod.snd).getD []
  else cs.dropWhile isKeyChar

/-- The argument that the line of a member is about. -/
def memberKey? (line : List Char) : Option String :=
  shownKey? (line.drop 2)

/-- Whether the line of a member has a question mark behind its key. -/
def marksOptional (line : List Char) : Bool :=
  (behindKey (line.drop 2)).head? == some '?'

theorem isKeyChar_of_isPlainKey {cs : List Char} (h : isPlainKey cs = true) :
    (∀ c ∈ cs, isKeyChar c = true) ∧ ∃ c rest, cs = c :: rest ∧ isKeyChar c = true := by
  cases cs with
  | nil => exact absurd h (by simp [isPlainKey])
  | cons c cs =>
    simp only [isPlainKey, Bool.and_eq_true, List.all_eq_true] at h
    obtain ⟨hc, hcs⟩ := h
    have hfirst : isKeyChar c = true := by
      simp only [Bool.or_eq_true] at hc
      simp only [isKeyChar, Char.isAlphanum, Bool.or_eq_true]
      tauto
    exact ⟨List.forall_mem_cons.mpr ⟨hfirst, hcs⟩, c, cs, rfl, hfirst⟩

/-- **How a key stands**: as it is, or as a literal. -/
theorem typeScriptKey_cases (name : String) :
    ((typeScriptKey name).toList = name.toList ∧ isPlainKey name.toList = true) ∨
      (typeScriptKey name).toList = Json.literal name := by
  unfold typeScriptKey codeLiteral
  by_cases hplain : isPlainKey name.toList = true
  · exact Or.inl ⟨by rw [if_pos hplain], hplain⟩
  · exact Or.inr (by rw [if_neg hplain, String.toList_ofList])

theorem head?_plainKey {cs : List Char} (h : isPlainKey cs = true) (rest : List Char) :
    (cs ++ rest).head? ≠ some '"' := by
  obtain ⟨-, c, ds, rfl, hc⟩ := isKeyChar_of_isPlainKey h
  rintro heq
  obtain rfl := Option.some.inj heq
  exact absurd hc (by decide)

/-- **A key is read** up to its end. -/
theorem shownKey?_key (name : String) {c : Char} (hc : isKeyChar c = false) (rest : List Char) :
    shownKey? ((typeScriptKey name).toList ++ c :: rest) = some name := by
  unfold shownKey?
  rcases typeScriptKey_cases name with ⟨heq, hplain⟩ | heq
  · rw [heq, if_neg (head?_plainKey hplain _),
      List.takeWhile_append_of_pos (isKeyChar_of_isPlainKey hplain).1,
      List.takeWhile_cons_of_neg (by simp [hc]), List.append_nil, String.ofList_toList]
  · rw [heq, Json.Raw.literal_append, List.head?_cons, if_pos rfl, List.drop_one, List.tail_cons,
      Json.Raw.text?_literal]
    rfl

/-- **What stands behind a key** is all that does. -/
theorem behindKey_key (name : String) {c : Char} (hc : isKeyChar c = false) (rest : List Char) :
    behindKey ((typeScriptKey name).toList ++ c :: rest) = c :: rest := by
  unfold behindKey
  rcases typeScriptKey_cases name with ⟨heq, hplain⟩ | heq
  · rw [heq, if_neg (head?_plainKey hplain _),
      List.dropWhile_append_of_pos (isKeyChar_of_isPlainKey hplain).1,
      List.dropWhile_cons_of_neg (by simp [hc])]
  · rw [heq, Json.Raw.literal_append, List.head?_cons, if_pos rfl, List.drop_one, List.tail_cons,
      Json.Raw.text?_literal]
    rfl

/-! ## Types -/

/-- The characters of types. -/
def isTypeChar (c : Char) : Bool :=
  c.isAlpha || ['<', '>', '[', ']', ',', ' '].contains c

theorem isTypeChar_text {cs : List Char} (h : cs.all isTypeChar = true) :
    ∀ c ∈ (String.ofList cs).toList, isTypeChar c = true := by
  rw [String.toList_ofList]
  exact List.all_eq_true.mp h

mutual

theorem isTypeChar_type : ∀ s : Schema, ∀ c ∈ (typeScriptType s).toList, isTypeChar c = true
  | ⟨type, _, _, _, _, _, items, _, _⟩ => by
    unfold typeScriptType
    cases type with
    | none => exact isTypeChar_text (by decide)
    | some type =>
      cases type with
      | array =>
        simp only [String.toList_append]
        exact List.forall_mem_append.mpr ⟨isTypeChar_itemType items, isTypeChar_text (by decide)⟩
      | _ => exact isTypeChar_text (by decide)

theorem isTypeChar_itemType : ∀ items : Option Schema,
    ∀ c ∈ (itemType items).toList, isTypeChar c = true
  | some s => isTypeChar_type s
  | none => by
    unfold itemType
    exact isTypeChar_text (by decide)

end

namespace TypeScriptTool

/-! ## Members -/

/-- What the line of a member has behind its key. -/
def memberRest (t : TypeScriptTool) (name : String) (s : Schema) : List Char :=
  (if t.tool.parameters.isRequired name then [] else ['?']) ++
    (':' :: ' ' :: ((typeScriptType s).toList ++ [';']))

/-- The line of a member. -/
def memberLine (t : TypeScriptTool) (name : String) (s : Schema) : List Char :=
  "  ".toList ++ ((typeScriptKey name).toList ++ t.memberRest name s)

/-- Behind the key of a member stands a mark. -/
theorem exists_memberLine (t : TypeScriptTool) (name : String) (s : Schema) :
    ∃ c rest, (t.memberLine name s).drop 2 = (typeScriptKey name).toList ++ c :: rest ∧
      isKeyChar c = false ∧ (c = '?' ↔ t.tool.parameters.isRequired name = false) := by
  unfold memberLine memberRest
  cases t.tool.parameters.isRequired name with
  | true => exact ⟨':', _, rfl, by decide, by decide⟩
  | false => exact ⟨'?', _, rfl, by decide, by decide⟩

/-- **The argument of a member** is read off its line. -/
theorem memberKey?_line (t : TypeScriptTool) (name : String) (s : Schema) :
    memberKey? (t.memberLine name s) = some name := by
  obtain ⟨c, rest, hline, hc, -⟩ := t.exists_memberLine name s
  rw [memberKey?, hline, shownKey?_key name hc]

/-- **A line marks its argument as optional** unless it is required. -/
theorem marksOptional_line (t : TypeScriptTool) (name : String) (s : Schema) :
    marksOptional (t.memberLine name s) = !t.tool.parameters.isRequired name := by
  obtain ⟨c, rest, hline, hc, hmark⟩ := t.exists_memberLine name s
  rw [marksOptional, hline, behindKey_key name hc, List.head?_cons, Bool.eq_iff_iff]
  simp [hmark]

end TypeScriptTool

namespace TypeScriptModule

/-- **The tools of a module** stand in order. -/
theorem bindTools_tools (s : NameScope) (tools : List Tool) :
    (bindTools s tools).1.map TypeScriptTool.tool = tools := by
  induction tools generalizing s with
  | nil => rfl
  | cons tool rest ih =>
    have hcons : (bindTools s (tool :: rest)).1 =
        ⟨tool, (s.bind (argumentsName tool.name) "" tool.name).1⟩ ::
          (bindTools (s.bind (argumentsName tool.name) "" tool.name).2.2 rest).1 := by
      rw [bindTools]
    rw [hcons, List.map_cons, ih]

end TypeScriptModule
end OntologyCompiler
