import OntologyCompiler.Proofs.Json.Pretty
import OntologyCompiler.Proofs.Python.Names

/-!
# The line of a field

All that the line of a field says is read off it again. Its name is a word and ends at the colon;
its annotation ends at the next blank; its default is the first argument; and an alias, if one
stands behind the default, is a literal, and is read as one.

* `word_append`: a word ends where something else begins.
* `isField_line`, `fieldName_line`: a line is that of a field, and of which.
* `wireName?_line`: a field is called on the wire as its key.
* `mustBeGiven_line`, `mayBeLeftOut_line`: whether a field needs a value.
-/

namespace OntologyCompiler

/-! ## Words -/

namespace Python

/-- The characters of words. -/
def isWordChar (c : Char) : Bool :=
  c.isAlphanum || c == '_'

/-- The word at the front of a text. -/
def word (cs : List Char) : String :=
  String.ofList (cs.takeWhile isWordChar)

/-- What stands behind the word at the front of a text. -/
def behindWord (cs : List Char) : List Char :=
  cs.dropWhile isWordChar

theorem mem_of_isWord {s : String} (h : isWord s = true) :
    ∀ c ∈ s.toList, isWordChar c = true := by
  rw [isWord] at h
  cases hs : s.toList with
  | nil => exact fun c hc => absurd hc List.not_mem_nil
  | cons c cs =>
    rw [hs] at h
    simp only [shaped, Bool.and_eq_true, List.all_eq_true] at h
    exact List.forall_mem_cons.mpr ⟨by simp [isWordChar, Char.isAlphanum, h.1], h.2⟩

/-- A word holds none of the marks between words. -/
theorem bne_of_isWord {s : String} (h : isWord s = true) {d : Char}
    (hd : isWordChar d = false) : ∀ c ∈ s.toList, (c != d) = true := by
  intro c hc
  rw [bne_iff_ne]
  rintro rfl
  exact absurd (mem_of_isWord h c hc) (by simp [hd])

theorem visible_word {s : String} (h : isWord s = true) : Json.Visible s.toList :=
  Json.visible_class (by decide) (mem_of_isWord h)

/-- A word begins with a letter. -/
theorem exists_head_of_isWord {s : String} (h : isWord s = true) :
    ∃ c cs, s.toList = c :: cs ∧ c.isAlpha = true := by
  rw [isWord] at h
  cases hs : s.toList with
  | nil => exact absurd h (by simp [hs, shaped])
  | cons c cs =>
    simp only [hs, shaped, Bool.and_eq_true] at h
    exact ⟨c, cs, rfl, h.1⟩

/-- **A word ends** where something else begins. -/
theorem word_append {s : String} (h : isWord s = true) {c : Char} (hc : isWordChar c = false)
    (rest : List Char) :
    word (s.toList ++ c :: rest) = s ∧ behindWord (s.toList ++ c :: rest) = c :: rest := by
  have hstop : ¬ isWordChar c = true := by simp [hc]
  rw [word, behindWord, List.takeWhile_append_of_pos (mem_of_isWord h),
    List.takeWhile_cons_of_neg hstop, List.append_nil, String.ofList_toList,
    List.dropWhile_append_of_pos (mem_of_isWord h), List.dropWhile_cons_of_neg hstop]
  exact ⟨rfl, rfl⟩

end Python

open Python

namespace PythonField

/-! ## What a line says -/

/-- Whether a line is that of a field: a word moved to the right, with a colon behind it. -/
def isField (line : List Char) : Bool :=
  "    ".toList.isPrefixOf line && ": ".toList.isPrefixOf (behindWord (line.drop 4))

/-- The name in the line of a field. -/
def fieldName (line : List Char) : String :=
  word (line.drop 4)

/-- What stands behind the first bracket of a line. -/
def shownArguments (line : List Char) : List Char :=
  (line.dropWhile (· != '(')).drop 1

/-- What a field is called on the wire, read off its line: by its alias, if one stands behind the
default, and else by its own name. -/
def wireName? (line : List Char) : Option String :=
  match ((shownArguments line).dropWhile fun c => c != ',' && c != ')').dropPrefix?
    ", alias=\"".toList with
  | some literal => (Json.Raw.text? literal).bind Prod.fst
  | none => some (fieldName line)

/-- The annotation in the line of a field. -/
def shownAnnotation (line : List Char) : List Char :=
  ((line.dropWhile (· != ':')).drop 2).takeWhile (· != ' ')

/-- The value in the line of a field for when it is not given. -/
def shownDefault (line : List Char) : List Char :=
  (shownArguments line).takeWhile fun c => c != ',' && c != ')'

/-- The line of a field asks for a value. -/
def MustBeGiven (line : List Char) : Prop :=
  ¬ "Optional[".toList <+: shownAnnotation line ∧ shownDefault line = "...".toList

/-- The line of a field makes do without a value. -/
def MayBeLeftOut (line : List Char) : Prop :=
  "Optional[".toList <+: shownAnnotation line ∧ shownDefault line = "None".toList

/-! ## The parts of a line -/

/-- The alias in the line of a field. -/
def aliasText (f : PythonField) : List Char :=
  if f.isAliased then ", alias=".toList ++ Json.literal f.key else []

/-- The description in the line of a field. -/
def descriptionText (f : PythonField) : List Char :=
  match f.schema.description with
  | some d => ", description=".toList ++ Json.literal d
  | none => []

/-- What the line of a field has behind its first bracket. -/
def arguments (f : PythonField) (required : Bool) : List Char :=
  (defaultValue required).toList ++ (f.aliasText ++ (f.descriptionText ++ [')']))

/-- The line of a field. -/
def line (f : PythonField) (required : Bool) : List Char :=
  "    ".toList ++ (f.name.toList ++ (':' :: ' ' :: ((f.annotation required).toList
    ++ (" = Field".toList ++ '(' :: f.arguments required))))

theorem text_eq (f : PythonField) (required : Bool) :
    (f.text required).toList = f.line required ++ ['\n'] := by
  unfold text line arguments aliasText descriptionText codeLiteral
  simp only [String.toList_append]
  -- A literal gives way to the list of its characters, which the kernel would decode one by one.
  repeat rw [String.toList_ofList]
  cases f.isAliased <;> cases f.schema.description <;>
    simp

theorem annotation_plain (f : PythonField) (required : Bool) :
    ∀ c ∈ (f.annotation required).toList, c ≠ '(' ∧ c ≠ ' ' := by
  have htype : ∀ c ∈ (pythonType f.schema).toList, c ≠ '(' ∧ c ≠ ' ' := by
    unfold pythonType
    cases f.schema.type with
    | none => rw [String.toList_ofList]; decide
    | some type => cases type <;> (rw [String.toList_ofList]; decide)
  unfold annotation
  cases required with
  | true => exact htype
  | false =>
    simp only [Bool.false_eq_true, if_false, String.toList_append, List.forall_mem_append]
    repeat rw [String.toList_ofList]
    exact ⟨⟨by decide, htype⟩, by decide⟩

theorem defaultValue_plain (required : Bool) :
    ∀ c ∈ (defaultValue required).toList, (c != ',' && c != ')') = true := by
  unfold defaultValue
  cases required <;> simp

/-! ## Lines are read -/

variable {f : PythonField}

theorem isField_line (h : isWord f.name = true) (required : Bool) :
    isField (f.line required) = true := by
  unfold isField line
  show ": ".toList.isPrefixOf (behindWord (f.name.toList ++ _)) = true
  rw [(word_append h (by decide) _).2]
  rfl

/-- **The name of a field** is read off its line. -/
theorem fieldName_line (h : isWord f.name = true) (required : Bool) :
    fieldName (f.line required) = f.name :=
  (word_append h (by decide) _).1

/-- A reader that looks for the first bracket finds the arguments. -/
theorem shownArguments_line (h : isWord f.name = true) (required : Bool) :
    shownArguments (f.line required) = f.arguments required := by
  have hfront : ∀ c ∈ "    ".toList ++ (f.name.toList ++ (':' :: ' ' ::
      ((f.annotation required).toList ++ " = Field".toList))), (c != '(') = true := by
    simp only [List.mem_append, List.mem_cons]
    rintro c (hc | hc | rfl | rfl | hc | hc)
    · exact (by simp : ∀ c ∈ "    ".toList, (c != '(') = true) c hc
    · exact bne_of_isWord h (by decide) c hc
    · rfl
    · rfl
    · exact bne_iff_ne.mpr (annotation_plain f required c hc).1
    · exact (by simp : ∀ c ∈ " = Field".toList, (c != '(') = true) c hc
  have hline : f.line required = ("    ".toList ++ (f.name.toList ++ (':' :: ' ' ::
      ((f.annotation required).toList ++ " = Field".toList)))) ++ '(' :: f.arguments required := by
    unfold line
    simp only [List.append_assoc, List.cons_append]
  rw [shownArguments, hline, List.dropWhile_append_of_pos hfront]
  rfl

/-- **A field is called on the wire as its key.** -/
theorem wireName?_line (h : isWord f.name = true) (required : Bool) :
    wireName? (f.line required) = some f.key := by
  unfold wireName?
  rw [shownArguments_line h, fieldName_line h, arguments,
    List.dropWhile_append_of_pos (defaultValue_plain required)]
  by_cases halias : f.isAliased = true
  · generalize f.descriptionText ++ [')'] = rest
    have hquoted : f.aliasText ++ rest = ',' :: (" alias=\"".toList ++
        (f.key.toList.flatMap Json.literalChar ++ '"' :: rest)) := by
      simp [aliasText, halias, Json.literal]
    have hdrop : (',' :: (" alias=\"".toList ++ (f.key.toList.flatMap Json.literalChar ++
        '"' :: rest))).dropPrefix? ", alias=\"".toList =
          some (f.key.toList.flatMap Json.literalChar ++ '"' :: rest) :=
      List.dropPrefix?_eq_some_iff.mpr ⟨", alias=\"".toList, by simp, by simp⟩
    rw [hquoted, List.dropWhile_cons_of_neg (by decide), hdrop]
    dsimp only
    rw [Json.Raw.text?_literal]
    rfl
  · have hsame : f.name = f.key := by simpa [isAliased] using halias
    have hdrop : ((f.aliasText ++ (f.descriptionText ++ [')'])).dropWhile
        fun c => c != ',' && c != ')').dropPrefix? ", alias=\"".toList = none := by
      rw [aliasText, if_neg halias, descriptionText]
      cases f.schema.description with
      | none => rw [String.toList_ofList]; rfl
      | some d => rfl
    rw [hdrop, hsame]

theorem shownAnnotation_line (h : isWord f.name = true) (required : Bool) :
    shownAnnotation (f.line required) = (f.annotation required).toList := by
  have hname : ∀ c ∈ "    ".toList ++ f.name.toList, (c != ':') = true := by
    intro c hc
    rcases List.mem_append.mp hc with hc | hc
    · exact (by simp : ∀ c ∈ "    ".toList, (c != ':') = true) c hc
    · exact bne_of_isWord h (by decide) c hc
  have hannotation : ∀ c ∈ (f.annotation required).toList, (c != ' ') = true :=
    fun c hc => bne_iff_ne.mpr (annotation_plain f required c hc).2
  unfold shownAnnotation line
  rw [← List.append_assoc, List.dropWhile_append_of_pos hname]
  show ((f.annotation required).toList ++ (" = Field".toList ++ _)).takeWhile _ = _
  rw [List.takeWhile_append_of_pos hannotation]
  exact List.append_nil _

theorem shownDefault_line (h : isWord f.name = true) (required : Bool) :
    shownDefault (f.line required) = (defaultValue required).toList := by
  have hstop : ((f.aliasText ++ (f.descriptionText ++ [')'])).takeWhile
      fun c => c != ',' && c != ')') = [] := by
    unfold aliasText descriptionText
    cases f.isAliased <;> cases f.schema.description <;> rfl
  rw [shownDefault, shownArguments_line h, arguments,
    List.takeWhile_append_of_pos (defaultValue_plain required), hstop, List.append_nil]

theorem annotation_optional (f : PythonField) (required : Bool) :
    "Optional[".toList <+: (f.annotation required).toList ↔ required = false := by
  unfold annotation
  cases required with
  | false => simp
  | true =>
    have hplain : ∀ s : Schema, ¬ "Optional[".toList <+: (pythonType s).toList := by
      intro s
      unfold pythonType
      rw [String.toList_ofList]
      split <;> (rw [String.toList_ofList]; decide)
    simpa using hplain f.schema

/-- **The line of a required argument** asks for a value, and no other line does. -/
theorem mustBeGiven_line (h : isWord f.name = true) (required : Bool) :
    MustBeGiven (f.line required) ↔ required = true := by
  unfold MustBeGiven
  rw [shownAnnotation_line h, shownDefault_line h, annotation_optional]
  cases required <;> simp [defaultValue]

/-- **The line of any other argument** makes do without one. -/
theorem mayBeLeftOut_line (h : isWord f.name = true) (required : Bool) :
    MayBeLeftOut (f.line required) ↔ required = false := by
  unfold MayBeLeftOut
  rw [shownAnnotation_line h, shownDefault_line h, annotation_optional]
  cases required <;> simp [defaultValue]

end PythonField
end OntologyCompiler
