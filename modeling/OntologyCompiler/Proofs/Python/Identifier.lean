import Mathlib.Data.List.DropRight
import Mathlib.Data.List.Infix
import OntologyCompiler.Code.Python
import OntologyCompiler.Proofs.Letters
import OntologyCompiler.Proofs.NameScope

/-!
# The shape of Python names

An identifier that is made of a name is a small letter with small letters, digits and underscores
behind it. It is no keyword, and stays so with a number behind it. The name of a model may begin
with a capital or not, yet it always holds `Args`; the name of a structured tool holds `_tool`. That
keeps all of them away from keywords and from the names that a module brings in.

* `snakeFrom_shape`, `withoutUnderscores_head`: what the two passes over a name leave.
* `pythonIdentifier_snake`, `pythonIdentifier_notMem`: the identifier of a name.
* `argumentsName_word`, `argumentsName_mark`: the name of a model.
* `isIdentifier_of_stems`, `isHandle_of_stems`, `isModel_of_stems`: what is bound for them, maybe
  with a number.
* `IsIdentifier.isLegal`, `IsHandle.isLegal`, `IsModel.isLegal`: the language accepts all three.
-/

namespace OntologyCompiler

namespace Python

/-! ## What the language asks of a name -/

/-- The hard keywords of the language: its constants, operators, branches, loops, definitions,
failures, scopes, imports, and the last two statements. -/
def hardKeywords : List String :=
  ["False", "None", "True"]
    ++ ["and", "or", "not", "in", "is", "lambda", "await"]
    ++ ["if", "elif", "else"]
    ++ ["for", "while", "break", "continue"]
    ++ ["def", "return", "yield", "async", "class"]
    ++ ["try", "except", "finally", "raise", "assert"]
    ++ ["global", "nonlocal", "del"]
    ++ ["import", "from", "as"]
    ++ ["with", "pass"]

/-- A first character of one kind, and any number of characters of another behind it. -/
def shaped (first rest : Char → Bool) : List Char → Bool
  | [] => false
  | c :: cs => first c && cs.all rest

/-- A letter, and letters, digits and underscores behind it. -/
def isWord (s : String) : Bool :=
  shaped Char.isAlpha (fun c => c.isAlphanum || c == '_') s.toList

/-- A name that the language accepts. -/
structure IsLegal (name : String) : Prop where
  word : isWord name = true
  keyword : name ∉ hardKeywords

/-- A word without capitals. -/
def isSnake (s : String) : Bool :=
  shaped Char.isLower isIdentifierChar s.toList

theorem shaped_append {first rest : Char → Bool} {cs ds : List Char}
    (hc : shaped first rest cs = true) (hd : ds.all rest = true) :
    shaped first rest (cs ++ ds) = true := by
  cases cs with
  | nil => exact absurd hc (by simp [shaped])
  | cons c cs =>
    simp only [shaped, Bool.and_eq_true, List.cons_append, List.all_append] at hc ⊢
    exact ⟨hc.1, hc.2, hd⟩

theorem shaped_mono {first first' rest rest' : Char → Bool} {cs : List Char}
    (hf : ∀ c, first c = true → first' c = true) (hr : ∀ c, rest c = true → rest' c = true)
    (h : shaped first rest cs = true) : shaped first' rest' cs = true := by
  cases cs with
  | nil => exact absurd h (by simp [shaped])
  | cons c cs =>
    simp only [shaped, Bool.and_eq_true, List.all_eq_true] at h ⊢
    exact ⟨hf c h.1, fun x hx => hr x (h.2 x hx)⟩

theorem wordChar_of_isIdentifierChar (c : Char) (h : isIdentifierChar c = true) :
    (c.isAlphanum || c == '_') = true := by
  simp only [isIdentifierChar, Bool.or_eq_true, Char.isAlphanum, Text.isAlpha_eq] at h ⊢
  tauto

theorem isWord_of_isSnake {s : String} (h : isSnake s = true) : isWord s = true :=
  shaped_mono (fun c hc => by simp [Text.isAlpha_eq, hc]) wordChar_of_isIdentifierChar h

theorem mem_pythonKeywords : ∀ k ∈ hardKeywords, k ∈ pythonKeywords := by
  decide +kernel

theorem pythonKeywords_plain : ∀ k ∈ pythonKeywords, '_' ∉ k.toList := by
  decide +kernel

/-! ## The identifier of a name -/

/-- A letter or digit that is no capital stays as it is. -/
theorem isIdentifierChar_of_isAlphanum {c : Char} (h : c.isAlphanum = true)
    (hupper : ¬ c.isUpper = true) : isIdentifierChar c = true := by
  simp only [Char.isAlphanum, Text.isAlpha_eq, Bool.or_eq_true, isIdentifierChar] at h ⊢
  tauto

/-- **One pass over a name** leaves small letters, digits and underscores. -/
theorem snakeFrom_shape (underscored small : Bool) (cs : List Char) :
    ∀ c ∈ snakeFrom underscored small cs, isIdentifierChar c = true := by
  induction cs generalizing underscored small with
  | nil => exact fun c hc => absurd hc List.not_mem_nil
  | cons d ds ih =>
    intro c hc
    unfold snakeFrom at hc
    by_cases hupper : d.isUpper = true
    · rw [if_pos hupper, List.mem_append, List.mem_cons] at hc
      rcases hc with hc | rfl | hc
      · split at hc
        · rw [List.mem_singleton.mp hc]
          rfl
        · exact absurd hc List.not_mem_nil
      · simp [isIdentifierChar, Text.isLower_toLower hupper]
      · exact ih _ _ c hc
    · rw [if_neg hupper] at hc
      by_cases halnum : d.isAlphanum = true
      · rw [if_pos halnum, List.mem_cons] at hc
        rcases hc with rfl | hc
        · exact isIdentifierChar_of_isAlphanum halnum hupper
        · exact ih _ _ c hc
      · rw [if_neg halnum, List.mem_append] at hc
        rcases hc with hc | hc
        · split at hc
          · exact absurd hc List.not_mem_nil
          · rw [List.mem_singleton.mp hc]
            rfl
        · exact ih _ _ c hc

theorem withoutUnderscores_eq (cs : List Char) :
    withoutUnderscores cs = (cs.dropWhile (· == '_')).rdropWhile (· == '_') :=
  rfl

theorem withoutUnderscores_sublist (cs : List Char) : (withoutUnderscores cs).Sublist cs := by
  rw [withoutUnderscores_eq]
  exact (List.rdropWhile_prefix _ _).sublist.trans (List.dropWhile_sublist _)

/-- **The other pass** leaves no underscore at the head. -/
theorem withoutUnderscores_head {cs ds : List Char} {c : Char}
    (h : withoutUnderscores cs = c :: ds) : c ≠ '_' := by
  obtain ⟨rest, hrest⟩ := List.rdropWhile_prefix (fun c => c == '_') (cs.dropWhile (· == '_'))
  rw [← withoutUnderscores_eq, h, List.cons_append] at hrest
  have hhead := List.head?_dropWhile_not (fun c => c == '_') cs
  rw [← hrest] at hhead
  simpa using hhead

/-- What is left of a name is empty, begins with a digit, is a keyword, or is the identifier. -/
theorem pythonIdentifier_cases (name : String) :
    pythonIdentifier name = "field" ∨
    (∃ s : String, pythonIdentifier name = "field_" ++ s ∧
      ∀ c ∈ s.toList, isIdentifierChar c = true) ∨
    (∃ s : String, pythonIdentifier name = s ++ "_" ∧ isSnake s = true) ∨
    (isSnake (pythonIdentifier name) = true ∧ pythonIdentifier name ∉ pythonKeywords) := by
  unfold pythonIdentifier
  have hshape : ∀ c ∈ withoutUnderscores (snakeFrom false false (Text.stripChars name.toList)),
      isIdentifierChar c = true :=
    fun c hc => snakeFrom_shape _ _ _ c ((withoutUnderscores_sublist _).subset hc)
  cases hcs : withoutUnderscores (snakeFrom false false (Text.stripChars name.toList)) with
  | nil => exact Or.inl rfl
  | cons c cs =>
    rw [hcs] at hshape
    dsimp only
    by_cases hdigit : c.isDigit = true
    · rw [if_pos hdigit]
      exact Or.inr (Or.inl ⟨_, rfl, by simpa using hshape⟩)
    · have hlower : c.isLower = true := by
        have hc := hshape c List.mem_cons_self
        simpa [isIdentifierChar, hdigit, withoutUnderscores_head hcs] using hc
      have hsnake : isSnake (String.ofList (c :: cs)) = true := by
        simp only [isSnake, String.toList_ofList, shaped, hlower, Bool.true_and, List.all_eq_true]
        exact fun d hd => hshape d (List.mem_cons_of_mem _ hd)
      rw [if_neg hdigit]
      by_cases hkey : String.ofList (c :: cs) ∈ pythonKeywords
      · rw [if_pos hkey]
        exact Or.inr (Or.inr (Or.inl ⟨_, rfl, hsnake⟩))
      · rw [if_neg hkey]
        exact Or.inr (Or.inr (Or.inr ⟨hsnake, hkey⟩))

/-- **The identifier of a name** is a word without capitals. -/
theorem pythonIdentifier_snake (name : String) : isSnake (pythonIdentifier name) = true := by
  rcases pythonIdentifier_cases name with h | ⟨s, h, hs⟩ | ⟨s, h, hs⟩ | ⟨h, -⟩
  · rw [h]
    decide +kernel
  · rw [h, isSnake, String.toList_append]
    exact shaped_append (by decide +kernel) (List.all_eq_true.mpr hs)
  · rw [h, isSnake, String.toList_append]
    exact shaped_append hs (by decide +kernel)
  · exact h

theorem notMem_pythonKeywords {s : String} (h : '_' ∈ s.toList) : s ∉ pythonKeywords :=
  fun hs => pythonKeywords_plain s hs h

/-- **The identifier of a name** is no keyword. -/
theorem pythonIdentifier_notMem (name : String) : pythonIdentifier name ∉ pythonKeywords := by
  rcases pythonIdentifier_cases name with h | ⟨s, h, -⟩ | ⟨s, h, -⟩ | ⟨-, h⟩
  · rw [h]
    decide +kernel
  · exact notMem_pythonKeywords (by simp [h])
  · exact notMem_pythonKeywords (by simp [h])
  · exact h

/-! ## Names with numbers -/

theorem toList_numbered (candidate sep : String) (n : Nat) :
    (NameScope.numbered candidate sep n).toList =
      candidate.toList ++ (sep.toList ++ (toString n).toList) := by
  simp [NameScope.numbered, String.toList_append]

theorem isSnake_of_stems {candidate name : String} (h : NameScope.Stems candidate "_" name)
    (hc : isSnake candidate = true) : isSnake name = true := by
  rcases h with rfl | ⟨n, rfl⟩
  · exact hc
  · rw [isSnake, toList_numbered]
    refine shaped_append hc (List.all_eq_true.mpr fun d hd => ?_)
    rcases List.mem_append.mp hd with hu | hn
    · rw [show d = '_' by simpa using hu]
      rfl
    · simp [isIdentifierChar, Text.isDigit_toString n d hn]

theorem infix_of_stems {candidate sep name : String} {part : List Char}
    (h : NameScope.Stems candidate sep name) (hc : part <:+: candidate.toList) :
    part <:+: name.toList := by
  rcases h with rfl | ⟨n, rfl⟩
  · exact hc
  · rw [toList_numbered]
    exact hc.trans (List.prefix_append _ _).isInfix

theorem isWord_of_stems {candidate name : String} (h : NameScope.Stems candidate "" name)
    (hc : isWord candidate = true) : isWord name = true := by
  rcases h with rfl | ⟨n, rfl⟩
  · exact hc
  · rw [isWord, toList_numbered]
    refine shaped_append hc (List.all_eq_true.mpr fun d hd => ?_)
    have hn : d ∈ (toString n).toList := by simpa using hd
    simp [Char.isAlphanum, Text.isDigit_toString n d hn]

/-! ## The names of models -/

theorem argumentsName_cases (tool : String) : argumentsName tool = "ToolArgs" ∨
    ∃ c cs, c.isAlpha = true ∧ (∀ d ∈ cs, d.isAlphanum = true) ∧
      argumentsName tool = String.ofList (c :: cs) ++ "Args" := by
  unfold argumentsName
  have hshape := @stemChars_shape tool.toList
  cases hcs : stemChars tool.toList with
  | nil => exact Or.inl rfl
  | cons c cs =>
    rw [hcs] at hshape
    dsimp only
    refine Or.inr ?_
    by_cases hdigit : c.isDigit = true
    · refine ⟨'T', "ool".toList ++ c :: cs, by decide, fun d hd => ?_, ?_⟩
      · rcases List.mem_append.mp hd with ht | hd
        · exact (by simp : ∀ d ∈ "ool".toList, d.isAlphanum = true) d ht
        · exact hshape d hd
      · rw [if_pos hdigit]
        simp [← String.toList_inj]
    · have halpha : c.isAlpha = true := by
        simpa [Char.isAlphanum, hdigit] using hshape c List.mem_cons_self
      refine ⟨c, cs, halpha, fun d hd => hshape d (List.mem_cons_of_mem _ hd), ?_⟩
      rw [if_neg hdigit]
      rfl

/-- What the name of a model always holds. -/
def modelMark : List Char :=
  "Args".toList

/-- What the name of a structured tool always holds. -/
def handleMark : List Char :=
  "_tool".toList

/-- **The name of a model** is a word. -/
theorem argumentsName_word (tool : String) : isWord (argumentsName tool) = true := by
  rcases argumentsName_cases tool with h | ⟨c, cs, hc, hcs, h⟩
  · rw [h]
    decide +kernel
  · rw [h, isWord, String.toList_append, String.toList_ofList]
    refine shaped_append ?_ (by decide +kernel)
    simp only [shaped, hc, Bool.true_and, List.all_eq_true]
    exact fun d hd => by simp [hcs d hd]

theorem argumentsName_mark (tool : String) : modelMark <:+: (argumentsName tool).toList := by
  rcases argumentsName_cases tool with h | ⟨c, cs, -, -, h⟩
  · rw [h]
    decide +kernel
  · rw [h, String.toList_append]
    exact (List.suffix_append _ _).isInfix

/-! ## The three kinds of names -/

/-- The name of a function or a field. -/
structure IsIdentifier (name : String) : Prop where
  snake : isSnake name = true
  keyword : name ∉ pythonKeywords

/-- The name of a structured tool. -/
structure IsHandle (name : String) : Prop where
  snake : isSnake name = true
  mark : handleMark <:+: name.toList

/-- The name of a model. -/
structure IsModel (name : String) : Prop where
  word : isWord name = true
  mark : modelMark <:+: name.toList

theorem underscore_mem_numbered (candidate : String) (n : Nat) :
    '_' ∈ (NameScope.numbered candidate "_" n).toList := by
  simp [toList_numbered]

/-- **What is bound for a name** is an identifier. -/
theorem isIdentifier_of_stems {key name : String}
    (h : NameScope.Stems (pythonIdentifier key) "_" name) : IsIdentifier name := by
  refine ⟨isSnake_of_stems h (pythonIdentifier_snake key), ?_⟩
  rcases h with rfl | ⟨n, rfl⟩
  · exact pythonIdentifier_notMem key
  · exact notMem_pythonKeywords (underscore_mem_numbered _ n)

theorem isHandle_of_stems {function name : String} (hf : isSnake function = true)
    (h : NameScope.Stems (function ++ "_tool") "_" name) : IsHandle name := by
  refine ⟨isSnake_of_stems h ?_, infix_of_stems h ?_⟩
  · rw [isSnake, String.toList_append]
    exact shaped_append hf (by decide +kernel)
  · rw [String.toList_append]
    exact (List.suffix_append _ _).isInfix

theorem isModel_of_stems {tool name : String} (h : NameScope.Stems (argumentsName tool) "" name) :
    IsModel name :=
  ⟨isWord_of_stems h (argumentsName_word tool), infix_of_stems h (argumentsName_mark tool)⟩

/-- No keyword holds the mark of a model. -/
theorem hardKeywords_unmarked : ∀ k ∈ hardKeywords, ¬ modelMark <:+: k.toList := by
  decide +kernel

theorem IsIdentifier.isLegal {name : String} (h : IsIdentifier name) : IsLegal name :=
  ⟨isWord_of_isSnake h.snake, fun hk => h.keyword (mem_pythonKeywords name hk)⟩

theorem IsHandle.underscore {name : String} (h : IsHandle name) : '_' ∈ name.toList :=
  h.mark.subset (by decide)

theorem IsHandle.isLegal {name : String} (h : IsHandle name) : IsLegal name :=
  ⟨isWord_of_isSnake h.snake,
    fun hk => notMem_pythonKeywords h.underscore (mem_pythonKeywords name hk)⟩

theorem IsModel.isLegal {name : String} (h : IsModel name) : IsLegal name :=
  ⟨h.word, fun hk => hardKeywords_unmarked name hk h.mark⟩

end Python
end OntologyCompiler
