import OntologyCompiler.Proofs.Python.Docstring
import OntologyCompiler.Proofs.Statements

/-!
# The statements of a module

Of the lines of a module, its docstrings apart, those at the left margin begin statements: imports,
models, functions, structured tools and the list of these. All that a statement says is read off its
lines again, and nothing in a name or a literal is taken for anything else, as neither holds a line
end.

* `PythonTool.models_statements`, `PythonTool.functions_statements`,
  `PythonTool.handles_statements`: what the statements of one tool say.
* `PythonModule.statements_text`: the statements of a module.
-/

namespace OntologyCompiler

open Lexis Python

/-! ## What statements say -/

namespace Python

/-- The statements of a module. -/
def statements (code : String) : List Statement :=
  python.statements (python.comments code) code

/-- A model: its name, and the lines of its fields. -/
structure Model where
  name : String
  fields : List (List Char)
  deriving DecidableEq

/-- The name behind a keyword at the front of a line. -/
def nameBehind? (keyword : String) (line : List Char) : Option String :=
  if word line = keyword then some (word ((behindWord line).drop 1)) else none

/-- The model that a statement declares. -/
def model? (s : Statement) : Option Model :=
  (nameBehind? "class" s.head).map fun name => ⟨name, s.block.filter PythonField.isField⟩

/-- The function that a statement declares. -/
def function? (s : Statement) : Option String :=
  nameBehind? "def" s.head

/-- A structured tool: its name, and what it is made of. -/
structure Handle where
  name : String
  function : Option String
  tool : Option String
  model : Option String
  deriving DecidableEq

/-- What stands in a block behind the name of an argument. -/
def argument? (mark : String) (block : List (List Char)) : Option (List Char) :=
  block.findSome? fun line => line.dropPrefix? mark.toList

/-- The structured tool that a statement makes. -/
def handle? (s : Statement) : Option Handle :=
  if behindWord s.head = " = StructuredTool.from_function(".toList then
    some {
      name := word s.head
      function := (argument? "    func=" s.block).map word
      tool := (argument? "    name=\"" s.block).bind fun cs => (Json.Raw.text? cs).bind Prod.fst
      model := (argument? "    args_schema=" s.block).map word }
  else none

/-- The names that the list of structured tools holds. -/
def listedBy (s : Statement) : List String :=
  if word s.head = "TOOLS" then s.block.map fun line => word (line.drop 4) else []

/-- The names that a line imports. -/
def importedBy (line : List Char) : List String :=
  match line.splitOn ' ' with
  | first :: _ :: _ :: names =>
    if first = "from".toList then
      names.map fun name => String.ofList (name.takeWhile (· != ','))
    else []
  | _ => []

/-- **A name behind a keyword** is read. -/
theorem nameBehind?_keyword {keyword name : String} (hkeyword : isWord keyword = true)
    (hname : isWord name = true) {c : Char} (hc : isWordChar c = false) (rest : List Char) :
    nameBehind? keyword (keyword.toList ++ ' ' :: (name.toList ++ c :: rest)) = some name := by
  obtain ⟨hword, hbehind⟩ := word_append hkeyword (c := ' ') (by decide) (name.toList ++ c :: rest)
  rw [nameBehind?, hword, if_pos rfl, hbehind, List.drop_one, List.tail_cons,
    (word_append hname hc rest).1]

/-- What stands behind a keyword is no structured tool. -/
theorem handle?_keyword (keyword : String) {name : String} (hkeyword : isWord keyword = true)
    (hname : isWord name = true) (rest : List Char) (block : List (List Char)) :
    handle? ⟨keyword.toList ++ ' ' :: (name.toList ++ rest), block⟩ = none := by
  obtain ⟨c, cs, hs, hc⟩ := exists_head_of_isWord hname
  rw [handle?, (word_append hkeyword (c := ' ') (by decide) (name.toList ++ rest)).2, hs, if_neg]
  intro heq
  obtain ⟨rfl, -⟩ := List.cons.inj (List.cons.inj heq).2
  exact absurd hc (by decide)

theorem argument?_append (mark : String) (cs : List Char) (block : List (List Char)) :
    argument? mark ((mark.toList ++ cs) :: block) = some cs := by
  have hdrop : (mark.toList ++ cs).dropPrefix? mark.toList = some cs :=
    List.dropPrefix?_eq_some_iff.mpr ⟨mark.toList, rfl, beq_self_eq_true _⟩
  rw [argument?, List.findSome?_cons, hdrop]

theorem argument?_cons {mark : String} {line : List Char} (h : line.dropPrefix? mark.toList = none)
    (block : List (List Char)) : argument? mark (line :: block) = argument? mark block := by
  rw [argument?, List.findSome?_cons, h, argument?]

theorem importedBy_eq_nil (first : List Char) (hblank : ' ' ∉ first)
    (hne : first ≠ "from".toList) (rest : List Char) : importedBy (first ++ ' ' :: rest) = [] := by
  unfold importedBy
  rw [List.splitOn_append_cons_self, List.splitOn_eq_singleton hblank, List.singleton_append]
  split
  · rename_i heq
    obtain ⟨rfl, -⟩ := List.cons.inj heq
    rw [if_neg hne]
  · rfl

end Python

/-! ## Lines -/

namespace Lexis

theorem inline_python : python.Inline where
  opening := by decide
  closing := by decide
  head := by decide

/-- A line without controls that begins with no quote is plain. -/
theorem plain_visible {front rest : List Char} {c : Char}
    (hhead : (front.dropWhile (· == ' ')).head? = some c) (hc : c ≠ '"')
    (hfront : Json.Visible front) (hrest : Json.Visible rest) :
    (Row.line (front ++ rest)).Plain python :=
  plain_line hhead (by simpa [python] using hc) (hfront.append hrest).line_not_mem

theorem plain_behind {cs rest : List Char} {c : Char}
    (hhead : (cs.dropWhile (· == ' ')).head? = some c) (hc : c ≠ '"')
    (hfront : Json.Visible cs) (hrest : Json.Visible rest) :
    (Row.line ((String.ofList cs).toList ++ rest)).Plain python := by
  rw [String.toList_ofList]
  exact plain_visible hhead hc hfront hrest

theorem head?_word {s : String} (h : isWord s = true) :
    ∃ c, (s.toList.dropWhile (· == ' ')).head? = some c ∧ c ≠ '"' := by
  obtain ⟨c, cs, hs, hc⟩ := exists_head_of_isWord h
  have hne : ∀ d : Char, d.isAlpha = false → c ≠ d := by
    rintro d hd rfl
    exact absurd hc (by simp [hd])
  refine ⟨c, ?_, hne '"' (by decide)⟩
  rw [hs, List.dropWhile_cons_of_neg (by simpa using hne ' ' (by decide)), List.head?_cons]

/-- A literal on a line of its own opens no docstring. -/
theorem plain_literal (s : String) : (Row.line ("    ".toList ++ Json.literal s)).Plain python := by
  have hblanks : Json.Visible "    ".toList := by decide
  have hdrop : ("    ".toList ++ Json.literal s).dropWhile (· == ' ') = Json.literal s := rfl
  refine ⟨(hblanks.append (Json.visible_literal s)).line_not_mem, ?_⟩
  rw [hdrop, Bool.eq_false_iff, ne_eq, List.isPrefixOf_iff_prefix]
  intro hprefix
  have hlonger := hprefix.trans (List.prefix_append _ ['\n'])
  rw [Json.Raw.literal_append, ← List.isPrefixOf_iff_prefix,
    opening_literal s (c := '\n') (by decide)] at hlonger
  exact absurd hlonger (by decide)

end Lexis

/-! ## Tools -/

namespace PythonField

theorem visible_annotation (f : PythonField) (required : Bool) :
    Json.Visible (f.annotation required).toList := by
  have htype : Json.Visible (pythonType f.schema).toList := by
    unfold pythonType
    split <;> exact Json.visible_text (by decide)
  unfold annotation
  split
  · exact htype
  · rw [String.toList_append, String.toList_append]
    exact ((Json.visible_text (by decide)).append htype).append (Json.visible_text (by decide))

theorem visible_line {f : PythonField} (h : isWord f.name = true) (required : Bool) :
    Json.Visible (f.line required) := by
  have hdefault : Json.Visible (defaultValue required).toList := by
    cases required <;> exact Json.visible_text (by decide)
  have halias : Json.Visible f.aliasText := by
    unfold aliasText
    split
    · exact (Json.visible_text (by decide)).append (Json.visible_literal _)
    · decide
  have hdescription : Json.Visible f.descriptionText := by
    unfold descriptionText
    cases f.schema.description with
    | none => exact fun c hc => absurd hc List.not_mem_nil
    | some d => exact (Json.visible_text (by decide)).append (Json.visible_literal d)
  have harguments : Json.Visible (f.arguments required) :=
    hdefault.append (halias.append (hdescription.append (by decide)))
  have hfront : Json.Visible ("    ".toList ++ (f.name.toList ++ ": ".toList)) :=
    (Json.visible_text (by decide)).append
      ((visible_word h).append (Json.visible_text (by decide)))
  have hbehind : Json.Visible (" = Field".toList ++ '(' :: f.arguments required) :=
    (Json.visible_text (by decide)).append (List.forall_mem_cons.mpr ⟨by decide, harguments⟩)
  have hline : f.line required = "    ".toList ++ (f.name.toList ++ ": ".toList) ++
      ((f.annotation required).toList ++ (" = Field".toList ++ '(' :: f.arguments required)) := by
    unfold line
    simp
  rw [hline]
  exact hfront.append ((f.visible_annotation required).append hbehind)

theorem plain_line {f : PythonField} (h : isWord f.name = true) (required : Bool) :
    (Row.line (f.line required)).Plain python := by
  obtain ⟨c, hc, hne⟩ := head?_word h
  have hline : f.line required = ("    ".toList ++ f.name.toList) ++ (':' :: ' ' ::
      ((f.annotation required).toList ++ (" = Field".toList ++ '(' :: f.arguments required))) :=
    (List.append_assoc _ _ _).symm
  have hbreak := (visible_line h required).line_not_mem
  rw [hline] at hbreak ⊢
  exact Lexis.plain_line hc (by simpa [python] using hne) hbreak

end PythonField

namespace PythonTool

/-- The lines in the model of a tool, its docstring apart. -/
def modelBlock (t : PythonTool) : List (List Char) :=
  (if t.fields.any PythonField.isAliased then [configLine] else []) ++ t.fields.map t.fieldLine

/-- The statements of a tool. -/
def statements (t : PythonTool) : List Statement :=
  [⟨t.classLine, t.modelBlock⟩, ⟨t.functionLine, t.functionBlock⟩, ⟨t.handleLine, t.handleBlock⟩,
    ⟨[')'], []⟩]

/-! ### Lines make up statements -/

/-- The lines at the margin of a tool in words: a name or a keyword, and what stands behind it. -/
theorem classLine_eq (t : PythonTool) : t.classLine =
    "class".toList ++ ' ' :: (t.model.toList ++ '(' :: "BaseModel):".toList) := by
  unfold classLine
  repeat rw [String.toList_ofList]
  rfl

theorem functionLine_eq (t : PythonTool) : t.functionLine =
    "def".toList ++ ' ' :: (t.function.toList ++ '(' :: "**kwargs: Any) -> dict:".toList) := by
  unfold functionLine
  repeat rw [String.toList_ofList]
  rfl

theorem handleLine_eq (t : PythonTool) : t.handleLine =
    t.handle.toList ++ ' ' :: "= StructuredTool.from_function(".toList := by
  unfold handleLine
  repeat rw [String.toList_ofList]

theorem plain_modelLines {t : PythonTool} (h : t.Settled) :
    ∀ cs ∈ t.modelLines, (Row.line cs).Plain python := by
  have hconfig : (Row.line configLine).Plain python := Row.plain_text ⟨by decide, by decide⟩
  unfold modelLines
  refine List.forall_mem_append.mpr ⟨?_, List.forall_mem_append.mpr ⟨?_, ?_⟩⟩
  · split
    · exact List.forall_mem_cons.mpr ⟨plain_nil, List.forall_mem_singleton.mpr hconfig⟩
    · exact List.forall_mem_nil _
  · split
    · exact List.forall_mem_nil _
    · exact List.forall_mem_singleton.mpr plain_nil
  · exact List.forall_mem_map.mpr fun f hf =>
      PythonField.plain_line (h.isField hf).isLegal.word _

theorem plain_functionBlock (t : PythonTool) :
    ∀ cs ∈ t.functionBlock, (Row.line cs).Plain python := by
  refine List.forall_mem_cons.mpr ⟨plain_literal _, List.forall_mem_singleton.mpr ?_⟩
  exact plain_behind (c := 'r') rfl (by decide) (by decide)
    ((Json.visible_literal _).append (by decide))

theorem plain_handleBlock {t : PythonTool} (h : t.Settled) :
    ∀ cs ∈ t.handleBlock, (Row.line cs).Plain python := by
  have hword : ∀ {s : String}, isWord s = true → Json.Visible (s.toList ++ [',']) :=
    fun hs => (visible_word hs).append (by decide)
  have hliteral : ∀ s : String, Json.Visible (Json.literal s ++ [',']) :=
    fun s => (Json.visible_literal s).append (by decide)
  have hfunction := hword h.isIdentifier.isLegal.word
  have hmodel := hword h.isModel.isLegal.word
  exact List.forall_mem_cons.mpr
    ⟨plain_behind (c := 'f') rfl (by decide) (by decide) hfunction,
    List.forall_mem_cons.mpr
      ⟨plain_behind (c := 'n') rfl (by decide) (by decide) (hliteral _),
    List.forall_mem_cons.mpr
      ⟨plain_behind (c := 'd') rfl (by decide) (by decide) (hliteral _),
    List.forall_mem_singleton.mpr
      (plain_behind (c := 'a') rfl (by decide) (by decide) hmodel)⟩⟩⟩

theorem plain_serviceLines {t : PythonTool} (h : t.Settled) :
    ∀ cs ∈ t.serviceLines, (Row.line cs).Plain python := by
  have hfunction : (Row.line t.functionLine).Plain python :=
    plain_behind (c := 'd') rfl (by decide) (by decide)
      ((visible_word h.isIdentifier.isLegal.word).append (Json.visible_text (by decide)))
  have hhandle : (Row.line t.handleLine).Plain python := by
    obtain ⟨c, hc, hne⟩ := head?_word h.isHandle.isLegal.word
    exact plain_visible hc hne (visible_word h.isHandle.isLegal.word)
      (Json.visible_text (by decide))
  have hclose : (Row.line [')']).Plain python := ⟨by decide, by decide⟩
  unfold serviceLines
  refine List.forall_mem_cons.mpr ⟨plain_nil, List.forall_mem_cons.mpr ⟨plain_nil,
    List.forall_mem_cons.mpr ⟨hfunction, List.forall_mem_append.mpr ⟨t.plain_functionBlock, ?_⟩⟩⟩⟩
  exact List.forall_mem_cons.mpr ⟨plain_nil, List.forall_mem_cons.mpr ⟨plain_nil,
    List.forall_mem_cons.mpr ⟨hhandle, List.forall_mem_append.mpr
      ⟨plain_handleBlock h, List.forall_mem_singleton.mpr hclose⟩⟩⟩⟩

/-- **Each row of a tool** is a line by itself, or a docstring behind blanks. -/
theorem plain_rows {t : PythonTool} (h : t.Settled) : ∀ r ∈ t.rows, r.Plain python := by
  have hclass : (Row.line t.classLine).Plain python :=
    plain_behind (c := 'c') rfl (by decide) (by decide)
      ((visible_word h.isModel.isLegal.word).append (Json.visible_text (by decide)))
  exact List.forall_mem_cons.mpr ⟨plain_nil, List.forall_mem_cons.mpr ⟨plain_nil,
    List.forall_mem_cons.mpr ⟨hclass, List.forall_mem_cons.mpr ⟨by simp [Row.Plain],
      List.forall_mem_map.mpr (List.forall_mem_append.mpr
        ⟨plain_modelLines h, plain_serviceLines h⟩)⟩⟩⟩⟩

theorem filter_modelLines (t : PythonTool) : t.modelLines.filter (!·.isEmpty) = t.modelBlock := by
  have hfields : (t.fields.map t.fieldLine).filter (!·.isEmpty) = t.fields.map t.fieldLine :=
    List.filter_eq_self.mpr (List.forall_mem_map.mpr fun _ _ => rfl)
  unfold modelLines modelBlock
  rw [List.filter_append, List.filter_append, hfields]
  unfold configLine
  rw [String.toList_ofList]
  cases t.fields.any PythonField.isAliased <;> cases t.fields.isEmpty <;> rfl

/-- The lines of a tool are those of its statements, and blank ones. -/
theorem filter_rows {t : PythonTool} (h : t.Settled) :
    (t.rows.filterMap Row.code?).filter (!·.isEmpty) = t.statements.flatMap Statement.lines := by
  have hservice : t.serviceLines.filter (!·.isEmpty) = t.functionLine :: (t.functionBlock ++
      t.handleLine :: (t.handleBlock ++ [[')']])) := by
    obtain ⟨c, cs, hhandle, -⟩ := exists_head_of_isWord h.isHandle.isLegal.word
    unfold serviceLines functionLine functionBlock handleLine handleBlock
    rw [hhandle]
    repeat rw [String.toList_ofList]
    rfl
  have hcodes : t.rows.filterMap Row.code? =
      [] :: [] :: t.classLine :: (t.modelLines ++ t.serviceLines) :=
    congrArg ([] :: [] :: t.classLine :: ·) (filterMap_code?_lines _)
  have hlines : t.statements.flatMap Statement.lines = t.classLine :: (t.modelBlock ++
      t.functionLine :: (t.functionBlock ++ t.handleLine :: (t.handleBlock ++ [[')']]))) := by
    simp [statements, Statement.lines]
  have hclass : (!t.classLine.isEmpty) = true := by
    rw [classLine_eq]
    rfl
  rw [hcodes, hlines, List.filter_cons_of_neg (by decide), List.filter_cons_of_neg (by decide),
    List.filter_cons_of_pos (p := fun cs : List Char => !cs.isEmpty) hclass, List.filter_append,
    filter_modelLines, hservice]

theorem shaped_statements {t : PythonTool} (h : t.Settled) : ∀ s ∈ t.statements, s.Shaped := by
  have hmodel : ∀ line ∈ t.modelBlock, Statement.isMoved line = true := by
    unfold modelBlock
    refine List.forall_mem_append.mpr
      ⟨?_, List.forall_mem_map.mpr fun _ _ => Statement.isMoved_text _⟩
    split
    · refine List.forall_mem_singleton.mpr ?_
      unfold configLine
      rw [String.toList_ofList]
      rfl
    · exact List.forall_mem_nil _
  have hfunction : ∀ line ∈ t.functionBlock, Statement.isMoved line = true :=
    List.forall_mem_cons.mpr ⟨Statement.isMoved_text _,
      List.forall_mem_singleton.mpr (Statement.isMoved_text _)⟩
  have hhandle : ∀ line ∈ t.handleBlock, Statement.isMoved line = true :=
    List.forall_mem_cons.mpr ⟨Statement.isMoved_text _,
      List.forall_mem_cons.mpr ⟨Statement.isMoved_text _,
        List.forall_mem_cons.mpr ⟨Statement.isMoved_text _,
          List.forall_mem_singleton.mpr (Statement.isMoved_text _)⟩⟩⟩
  have hhead : Statement.isMoved t.handleLine = false := by
    obtain ⟨c, cs, hname, hc⟩ := exists_head_of_isWord h.isHandle.isLegal.word
    have hne : c ≠ ' ' := by
      rintro rfl
      exact absurd hc (by decide)
    rw [handleLine, hname, Statement.isMoved, List.cons_append, List.head?_cons]
    simpa using hne
  exact List.forall_mem_cons.mpr ⟨⟨rfl, hmodel⟩, List.forall_mem_cons.mpr ⟨⟨rfl, hfunction⟩,
    List.forall_mem_cons.mpr ⟨⟨hhead, hhandle⟩,
      List.forall_mem_singleton.mpr (Statement.shaped_line rfl)⟩⟩⟩

/-! ### What the statements of a tool say -/

/-- A structured tool begins with its name, and models and functions with their keywords. -/
theorem word_handleLine {t : PythonTool} (h : t.Settled) : word t.handleLine = t.handle := by
  rw [handleLine_eq]
  exact (word_append h.isHandle.isLegal.word (by decide) _).1

theorem word_classLine (t : PythonTool) : word t.classLine = "class" := by
  rw [classLine_eq]
  exact (word_append (by decide) (by decide) _).1

theorem word_functionLine (t : PythonTool) : word t.functionLine = "def" := by
  rw [functionLine_eq]
  exact (word_append (by decide) (by decide) _).1

theorem handle_ne {t : PythonTool} (h : t.Settled) {keyword : String}
    (hmem : keyword ∈ hardKeywords) : t.handle ≠ keyword := by
  rintro rfl
  exact h.isHandle.isLegal.keyword hmem

theorem imports_statements {t : PythonTool} (h : t.Settled) :
    t.statements.flatMap (fun s => importedBy s.head) = [] := by
  have hclass : importedBy t.classLine = [] := by
    rw [classLine_eq]
    exact importedBy_eq_nil _ (by decide) (by decide) _
  have hfunction : importedBy t.functionLine = [] := by
    rw [functionLine_eq]
    exact importedBy_eq_nil _ (by decide) (by decide) _
  have hhandle : importedBy t.handleLine = [] := by
    rw [handleLine_eq]
    refine importedBy_eq_nil _ (fun hmem => ?_) (fun heq => ?_) _
    · exact absurd (mem_of_isWord h.isHandle.isLegal.word _ hmem) (by decide)
    · exact handle_ne h (by decide +kernel) (String.toList_inj.mp heq)
  have hclose : importedBy [')'] = [] := by decide
  simp [statements, hclass, hfunction, hhandle, hclose]

theorem filter_modelBlock {t : PythonTool} (h : t.Settled) :
    t.modelBlock.filter PythonField.isField = t.fields.map t.fieldLine := by
  have hfields : (t.fields.map t.fieldLine).filter PythonField.isField = t.fields.map t.fieldLine :=
    List.filter_eq_self.mpr (List.forall_mem_map.mpr fun f hf =>
      PythonField.isField_line (h.isField hf).isLegal.word _)
  have hconfig : PythonField.isField configLine = false := by
    unfold PythonField.isField configLine
    repeat rw [String.toList_ofList]
    rfl
  rw [modelBlock, List.filter_append, hfields]
  cases t.fields.any PythonField.isAliased <;> simp [hconfig]

/-- **The model of a tool** is read with the lines of its fields. -/
theorem models_statements {t : PythonTool} (h : t.Settled) :
    t.statements.filterMap model? = [⟨t.model, t.fields.map t.fieldLine⟩] := by
  have hclass : nameBehind? "class" t.classLine = some t.model := by
    rw [classLine_eq]
    exact nameBehind?_keyword (by decide) h.isModel.isLegal.word (by decide) _
  have hfunction : nameBehind? "class" t.functionLine = none := by
    rw [nameBehind?, word_functionLine, if_neg (by decide)]
  have hhandle : nameBehind? "class" t.handleLine = none := by
    rw [nameBehind?, word_handleLine h, if_neg (handle_ne h (by decide +kernel))]
  have hclose : nameBehind? "class" [')'] = none := by decide
  simp [statements, model?, hclass, hfunction, hhandle, hclose, filter_modelBlock h]

theorem functions_statements {t : PythonTool} (h : t.Settled) :
    t.statements.filterMap function? = [t.function] := by
  have hclass : nameBehind? "def" t.classLine = none := by
    rw [nameBehind?, word_classLine, if_neg (by decide)]
  have hfunction : nameBehind? "def" t.functionLine = some t.function := by
    rw [functionLine_eq]
    exact nameBehind?_keyword (by decide) h.isIdentifier.isLegal.word (by decide) _
  have hhandle : nameBehind? "def" t.handleLine = none := by
    rw [nameBehind?, word_handleLine h, if_neg (handle_ne h (by decide +kernel))]
  have hclose : nameBehind? "def" [')'] = none := by decide
  simp [statements, function?, hclass, hfunction, hhandle, hclose]

theorem argument?_func (t : PythonTool) :
    argument? "    func=" t.handleBlock = some (t.function.toList ++ [',']) :=
  argument?_append _ _ _

theorem argument?_name (t : PythonTool) : argument? "    name=\"" t.handleBlock =
    some (t.tool.name.toList.flatMap Json.literalChar ++ ['"', ',']) := by
  have hline : "    name=".toList ++ (Json.literal t.tool.name ++ [',']) =
      "    name=\"".toList ++ (t.tool.name.toList.flatMap Json.literalChar ++ ['"', ',']) := by
    rw [Json.Raw.literal_append]
    repeat rw [String.toList_ofList]
    rfl
  rw [handleBlock, argument?_cons (by rfl), hline, argument?_append]

theorem argument?_schema (t : PythonTool) :
    argument? "    args_schema=" t.handleBlock = some (t.model.toList ++ [',']) := by
  rw [handleBlock, argument?_cons (by rfl), argument?_cons (by rfl), argument?_cons (by rfl),
    argument?_append]

/-- **The structured tool** is read with what it is made of. -/
theorem handles_statements {t : PythonTool} (h : t.Settled) : t.statements.filterMap handle? =
    [⟨t.handle, some t.function, some t.tool.name, some t.model⟩] := by
  have hclass : handle? ⟨t.classLine, t.modelBlock⟩ = none := by
    rw [classLine_eq]
    exact handle?_keyword "class" (by decide) h.isModel.isLegal.word _ _
  have hfunction : handle? ⟨t.functionLine, t.functionBlock⟩ = none := by
    rw [functionLine_eq]
    exact handle?_keyword "def" (by decide) h.isIdentifier.isLegal.word _ _
  have hclose : handle? ⟨[')'], []⟩ = none := by decide
  have hbehind : behindWord t.handleLine = " = StructuredTool.from_function(".toList := by
    rw [handleLine_eq, (word_append h.isHandle.isLegal.word (by decide) _).2]
    repeat rw [String.toList_ofList]
  have hname : (Json.Raw.text? (t.tool.name.toList.flatMap Json.literalChar ++ ['"', ','])).bind
      Prod.fst = some t.tool.name := by
    rw [Json.Raw.text?_literal]
    rfl
  have hhandle : handle? ⟨t.handleLine, t.handleBlock⟩ =
      some ⟨t.handle, some t.function, some t.tool.name, some t.model⟩ := by
    rw [handle?, if_pos hbehind, word_handleLine h, argument?_func, argument?_name,
      argument?_schema, Option.map_some, Option.map_some, Option.bind_some, hname,
      (word_append h.isIdentifier.isLegal.word (c := ',') (by decide) _).1,
      (word_append h.isModel.isLegal.word (c := ',') (by decide) _).1]
  simp [statements, hclass, hfunction, hhandle, hclose]

theorem listed_statements {t : PythonTool} (h : t.Settled) :
    t.statements.flatMap listedBy = [] := by
  have hlist : t.handle ≠ "TOOLS" := by
    intro heq
    have hsnake := h.isHandle.snake
    rw [heq] at hsnake
    exact absurd hsnake (by decide)
  have hclose : word [')'] ≠ "TOOLS" := by decide
  simp [statements, listedBy, word_classLine, word_functionLine, word_handleLine h, hlist, hclose]

end PythonTool

/-! ## Modules -/

namespace PythonModule

/-- The imports of a module. -/
def headerStatements : List Statement :=
  (headerLines.filter (!·.isEmpty)).map fun line => ⟨line, []⟩

/-- The list of structured tools. -/
def listStatements (m : PythonModule) : List Statement :=
  if m.tools.isEmpty then [⟨"TOOLS: list[StructuredTool] = []".toList, []⟩]
  else [⟨"TOOLS: list[StructuredTool] = [".toList, m.tools.map entryLine⟩, ⟨[']'], []⟩]

/-- All statements of a module. -/
def statements (m : PythonModule) : List Statement :=
  headerStatements ++ (m.tools.flatMap PythonTool.statements ++ m.listStatements)

/-- The statements that are not made for a tool begin with `from` and `TOOLS`. -/
theorem word_headerStatements : ∀ s ∈ headerStatements, word s.head = "from" := by
  unfold headerStatements headerLines
  repeat rw [String.toList_ofList]
  decide +kernel

theorem word_emptyList : word "TOOLS: list[StructuredTool] = []".toList = "TOOLS" := by
  rw [String.toList_ofList]
  decide

theorem word_openList : word "TOOLS: list[StructuredTool] = [".toList = "TOOLS" := by
  rw [String.toList_ofList]
  decide

theorem plain_listLines {m : PythonModule} (h : ∀ t ∈ m.tools, t.Settled) :
    ∀ cs ∈ m.listLines, (Row.line cs).Plain python := by
  have hentry : ∀ t ∈ m.tools, (Row.line (entryLine t)).Plain python := by
    intro t ht
    have hword := (h t ht).isHandle.isLegal.word
    obtain ⟨c, hc, hne⟩ := head?_word hword
    have hfront : Json.Visible ("    ".toList ++ t.handle.toList) :=
      Json.Visible.append (by decide) (visible_word hword)
    have hplain : (Row.line (("    ".toList ++ t.handle.toList) ++ [','])).Plain python :=
      plain_visible hc hne hfront (by decide)
    rwa [List.append_assoc] at hplain
  have hclose : (Row.line [']']).Plain python := ⟨by decide, by decide⟩
  unfold listLines
  split
  · exact List.forall_mem_singleton.mpr (Row.plain_text ⟨by decide, by decide⟩)
  · exact List.forall_mem_cons.mpr ⟨Row.plain_text ⟨by decide, by decide⟩,
      List.forall_mem_append.mpr ⟨List.forall_mem_map.mpr hentry,
        List.forall_mem_singleton.mpr hclose⟩⟩

theorem plain_rows {m : PythonModule} (h : ∀ t ∈ m.tools, t.Settled) :
    ∀ r ∈ m.rows, r.Plain python := by
  have hheader : ∀ cs ∈ headerLines, (Row.line cs).Plain python :=
    List.forall_mem_cons.mpr ⟨plain_nil, List.forall_mem_cons.mpr
      ⟨Row.plain_text ⟨by decide, by decide⟩, List.forall_mem_cons.mpr ⟨plain_nil,
        List.forall_mem_cons.mpr ⟨Row.plain_text ⟨by decide, by decide⟩,
          List.forall_mem_singleton.mpr (Row.plain_text ⟨by decide, by decide⟩)⟩⟩⟩⟩
  refine List.forall_mem_cons.mpr ⟨by simp [Row.Plain], List.forall_mem_append.mpr
    ⟨List.forall_mem_map.mpr hheader, List.forall_mem_append.mpr ⟨?_, ?_⟩⟩⟩
  · exact List.forall_mem_flatMap.mpr fun t ht => PythonTool.plain_rows (h t ht)
  · exact List.forall_mem_map.mpr (List.forall_mem_cons.mpr ⟨plain_nil,
      List.forall_mem_cons.mpr ⟨plain_nil, plain_listLines h⟩⟩)

theorem filter_listLines (m : PythonModule) :
    m.listLines.filter (!·.isEmpty) = m.listStatements.flatMap Statement.lines := by
  have hentries : (m.tools.map entryLine).filter (!·.isEmpty) = m.tools.map entryLine :=
    List.filter_eq_self.mpr (List.forall_mem_map.mpr fun _ _ => rfl)
  unfold listLines listStatements
  by_cases hempty : m.tools.isEmpty = true
  · rw [if_pos hempty, if_pos hempty, String.toList_ofList]
    rfl
  · have hopen : (!"TOOLS: list[StructuredTool] = [".toList.isEmpty) = true := by
      rw [String.toList_ofList]
      rfl
    rw [if_neg hempty, if_neg hempty,
      List.filter_cons_of_pos (p := fun cs : List Char => !cs.isEmpty) hopen, List.filter_append,
      hentries]
    simp [Statement.lines]

theorem filter_rows {m : PythonModule} (h : ∀ t ∈ m.tools, t.Settled) :
    (m.rows.filterMap Row.code?).filter (!·.isEmpty) = m.statements.flatMap Statement.lines := by
  have hcodes : m.rows.filterMap Row.code? = headerLines ++
      ((m.tools.flatMap PythonTool.rows).filterMap Row.code? ++ [] :: [] :: m.listLines) := by
    rw [rows, List.filterMap_cons_none (by rfl), List.filterMap_append, List.filterMap_append,
      filterMap_code?_lines, filterMap_code?_lines]
  have hheader : headerStatements.flatMap Statement.lines = headerLines.filter (!·.isEmpty) := by
    rw [headerStatements, List.flatMap_map]
    exact List.flatMap_singleton' _
  have htools : ((m.tools.flatMap PythonTool.rows).filterMap Row.code?).filter (!·.isEmpty) =
      (m.tools.flatMap PythonTool.statements).flatMap Statement.lines := by
    rw [List.filterMap_flatMap, List.filter_flatMap, List.flatMap_assoc]
    exact List.flatMap_congr fun t ht => PythonTool.filter_rows (h t ht)
  rw [hcodes, statements, List.filter_append, List.filter_append, List.flatMap_append,
    List.flatMap_append, hheader, htools, List.filter_cons_of_neg (by decide),
    List.filter_cons_of_neg (by decide), filter_listLines]

theorem shaped_statements {m : PythonModule} (h : ∀ t ∈ m.tools, t.Settled) :
    ∀ s ∈ m.statements, s.Shaped := by
  have hheader : ∀ line ∈ headerLines.filter (!·.isEmpty), Statement.isMoved line = false := by
    unfold headerLines
    repeat rw [String.toList_ofList]
    decide
  have hlist : ∀ s ∈ m.listStatements, s.Shaped := by
    unfold listStatements
    split
    · rw [String.toList_ofList]
      exact List.forall_mem_singleton.mpr (Statement.shaped_line rfl)
    · rw [String.toList_ofList]
      have hentries : ∀ line ∈ m.tools.map entryLine, Statement.isMoved line = true :=
        List.forall_mem_map.mpr fun _ _ => Statement.isMoved_text _
      exact List.forall_mem_cons.mpr
        ⟨⟨rfl, hentries⟩, List.forall_mem_singleton.mpr (Statement.shaped_line rfl)⟩
  refine List.forall_mem_append.mpr ⟨?_, List.forall_mem_append.mpr ⟨?_, hlist⟩⟩
  · exact List.forall_mem_map.mpr fun line hline => Statement.shaped_line (hheader line hline)
  · exact List.forall_mem_flatMap.mpr fun t ht => PythonTool.shaped_statements (h t ht)

/-- **The statements of a module** are its imports, those of its tools, and the list. -/
theorem statements_text {m : PythonModule} (h : ∀ t ∈ m.tools, t.Settled) :
    Python.statements m.text = m.statements := by
  have hrest : (python.codeLines [] 0 (([] : List Char).splitOn '\n')).filter (!·.isEmpty) = [] :=
    rfl
  have hread := statements_rows inline_python ((text_rows m).trans (List.append_nil _).symm)
    (plain_rows h) ((congrArg _ (docstrings_text h)).trans (docstrings_rows m).symm) (filter_rows h)
    (shaped_statements h) hrest (by simp)
  exact hread.trans (List.append_nil _)

end PythonModule
end OntologyCompiler
