import OntologyCompiler.Proofs.Comments
import OntologyCompiler.Proofs.Python.Field

/-!
# The rows of a module

A module is a sequence of lines with docstrings between them: one at its top, and one in the model
of each tool. A literal that is passed over must not run into a third quote, so it is passed
together with what stands behind it.

* `closed_plain`: a text without quotes and backslashes stays inside its docstring.
* `PythonTool.text_rows`, `PythonModule.text_rows`: the text of a tool and of a module in rows.
* `PythonTool.quiet_rows`: nothing else opens a docstring.
* `PythonModule.docstrings_text`: the docstrings of a module.
-/

namespace OntologyCompiler

namespace Lexis

/-- The marks of Python; a docstring ends at three quotes unless a backslash stands before them. -/
def python : Lexis where
  line := ['#']
  opening := ['"', '"', '"']
  closing := ['"', '"', '"']
  quotes := ['"', Char.ofNat 39]
  escapes := true

/-- **A text without quotes and backslashes** stays inside its docstring. -/
theorem closed_plain {body : List Char} (h : ∀ c ∈ body, c ≠ '"' ∧ c ≠ '\\') :
    python.Closed body where
  mark front c back rest heq hprefix := by
    have hc : c ∈ body := by simp [heq]
    exact (h c hc).1 (List.cons_prefix_cons.mp hprefix).1.symm
  escape _ hmem := (h _ hmem).2 rfl

/-! ## Code -/

/-- What may stand behind a literal: it is passed, and does not begin with a quote. -/
structure Behind (cs : List Char) : Prop where
  passed : python.Passed cs
  head : ∃ c rest, cs = c :: rest ∧ c ≠ '"'

theorem behind_chars {c : Char} {cs : List Char} (hc : c ≠ '"')
    (h : (c :: cs).all (· ∉ python.openers) = true) : Behind (c :: cs) :=
  ⟨passed_chars h, c, cs, rfl, hc⟩

theorem Behind.append {cs ds : List Char} (hc : Behind cs) (hd : python.Passed ds) :
    Behind (cs ++ ds) := by
  obtain ⟨c, rest, rfl, hne⟩ := hc.head
  exact ⟨hc.passed.append hd, c, rest ++ ds, rfl, hne⟩

/-- The quote of a literal opens no docstring: two more stand behind none. -/
theorem opening_literal (s : String) {c : Char} (hne : c ≠ '"') (rest : List Char) :
    python.opening.isPrefixOf ('"' :: (s.toList.flatMap Json.literalChar ++ '"' :: c :: rest)) =
      false := by
  rw [Bool.eq_false_iff, ne_eq, List.isPrefixOf_iff_prefix]
  intro hprefix
  have hrest := (List.cons_prefix_cons.mp hprefix).2
  cases hs : s.toList with
  | nil =>
    rw [hs] at hrest
    exact hne (List.cons_prefix_cons.mp (List.cons_prefix_cons.mp hrest).2).1.symm
  | cons d ds =>
    obtain ⟨e, more, hd, hquote⟩ := Json.Raw.literalChar_head d
    rw [hs, List.flatMap_cons, hd] at hrest
    exact hquote (List.cons_prefix_cons.mp hrest).1.symm

theorem scan_quote {cs : List Char} (h : python.opening.isPrefixOf ('"' :: cs) = false) :
    python.scan 0 .code ('"' :: cs) = python.scan 0 (.quoted '"' false) cs := by
  rw [scan, h]
  rfl

/-- **A literal is passed** with what stands behind it. -/
theorem Behind.literal (s : String) {cs : List Char} (h : Behind cs) :
    python.Passed (Json.literal s ++ cs) := by
  intro after
  obtain ⟨c, rest, rfl, hne⟩ := h.head
  rw [List.append_assoc, Json.Raw.literal_append, List.cons_append,
    scan_quote (opening_literal s hne _), scan_literal, ← List.cons_append, h.passed]

theorem passed_name {s : String} (h : Python.isWord s = true) : python.Passed s.toList :=
  passed_class (p := Python.isWordChar) (by decide) (Python.mem_of_isWord h)

end Lexis

open Lexis

namespace PythonField

theorem passed_annotation (f : PythonField) (required : Bool) :
    python.Passed (f.annotation required).toList := by
  have htype : python.Passed (pythonType f.schema).toList := by
    unfold pythonType
    split <;> exact passed_text (by decide)
  unfold annotation
  cases required with
  | true => exact htype
  | false =>
    exact passed_append (passed_append (passed_text (by decide)) htype) (passed_text (by decide))

theorem passed_defaultValue (required : Bool) : python.Passed (defaultValue required).toList := by
  cases required <;> exact passed_text (by decide)

theorem behind_descriptionText (f : PythonField) : Behind (f.descriptionText ++ [')', '\n']) := by
  have hclose : Behind [')', '\n'] := behind_chars (by decide) (by decide)
  unfold descriptionText
  cases f.schema.description with
  | none => exact hclose
  | some d =>
    have hmark : Behind ", description=".toList := behind_chars (by decide) (by decide)
    rw [List.append_assoc]
    exact hmark.append (hclose.literal d)

theorem passed_aliasText (f : PythonField) :
    python.Passed (f.aliasText ++ (f.descriptionText ++ [')', '\n'])) := by
  unfold aliasText
  by_cases halias : f.isAliased = true
  · rw [if_pos halias, List.append_assoc]
    exact (passed_text (by decide)).append (f.behind_descriptionText.literal f.key)
  · rw [if_neg halias]
    exact f.behind_descriptionText.passed

/-- The line of a field is passed. -/
theorem passed_line {f : PythonField} (h : Python.isWord f.name = true) (required : Bool) :
    python.Passed (f.line required ++ ['\n']) := by
  have hfront : python.Passed ("    ".toList ++ (f.name.toList ++ (": ".toList ++
      ((f.annotation required).toList ++ (" = Field".toList ++ "(".toList))))) :=
    (passed_text (by decide)).append ((passed_name h).append ((passed_text (by decide)).append
      ((f.passed_annotation required).append ((passed_text (by decide)).append
        (passed_text (by decide))))))
  have hline : f.line required ++ ['\n'] = ("    ".toList ++ (f.name.toList ++ (": ".toList ++
      ((f.annotation required).toList ++ (" = Field".toList ++ "(".toList))))) ++
        ((defaultValue required).toList ++
          (f.aliasText ++ (f.descriptionText ++ [')', '\n']))) := by
    unfold line arguments
    simp
  rw [hline]
  exact hfront.append ((passed_defaultValue required).append f.passed_aliasText)

end PythonField

/-! ## Tools -/

/-- The docstring of the model of a tool. -/
def Tool.docstring (t : Tool) : String :=
  "Arguments for " ++ commentText t.name ++ "."

theorem Tool.closed_docstring (t : Tool) : python.Closed t.docstring.toList := by
  apply closed_plain
  unfold docstring
  simp only [String.toList_append, List.mem_append]
  rintro c ((hc | hc) | hc)
  · exact plain_text (by decide) c hc
  · exact commentText_plain t.name c hc
  · exact plain_text (by decide) c hc

namespace PythonTool

/-- The line of the model. -/
def classLine (t : PythonTool) : List Char :=
  "class ".toList ++ (t.model.toList ++ "(BaseModel):".toList)

/-- The line by which fields with an alias may be given under their own names. -/
def configLine : List Char :=
  "    model_config = ConfigDict(populate_by_name=True)".toList

/-- The line of a field. -/
def fieldLine (t : PythonTool) (f : PythonField) : List Char :=
  f.line (t.tool.parameters.isRequired f.key)

/-- The lines of the model behind its docstring. -/
def modelLines (t : PythonTool) : List (List Char) :=
  (if t.fields.any PythonField.isAliased then [[], configLine] else [])
    ++ ((if t.fields.isEmpty then [] else [[]]) ++ t.fields.map t.fieldLine)

/-- The line of the function. -/
def functionLine (t : PythonTool) : List Char :=
  "def ".toList ++ (t.function.toList ++ "(**kwargs: Any) -> dict:".toList)

/-- The lines in the function. -/
def functionBlock (t : PythonTool) : List (List Char) :=
  ["    ".toList ++ Json.literal t.tool.description,
    "    raise NotImplementedError(".toList ++
      (Json.literal (t.tool.name ++ " is served by " ++ t.tool.http.verb.name ++ " "
        ++ t.tool.http.path) ++ [')'])]

/-- The line of the structured tool. -/
def handleLine (t : PythonTool) : List Char :=
  t.handle.toList ++ " = StructuredTool.from_function(".toList

/-- The arguments of the structured tool. -/
def handleBlock (t : PythonTool) : List (List Char) :=
  ["    func=".toList ++ (t.function.toList ++ [',']),
    "    name=".toList ++ (Json.literal t.tool.name ++ [',']),
    "    description=".toList ++ (Json.literal t.tool.description ++ [',']),
    "    args_schema=".toList ++ (t.model.toList ++ [','])]

/-- The lines of the function and the structured tool. -/
def serviceLines (t : PythonTool) : List (List Char) :=
  [] :: [] :: t.functionLine :: (t.functionBlock ++
    [] :: [] :: t.handleLine :: (t.handleBlock ++ [[')']]))

/-- A tool in rows. -/
def rows (t : PythonTool) : List Row :=
  .line [] :: .line [] :: .line t.classLine :: .comment "    ".toList t.tool.docstring.toList ::
    (t.modelLines ++ t.serviceLines).map .line

theorem fieldsText_eq (t : PythonTool) :
    (String.join (t.fields.map fun f => f.text (t.tool.parameters.isRequired f.key))).toList =
      (t.fields.map t.fieldLine).flatMap (· ++ ['\n']) := by
  rw [String.toList_join, List.flatMap_map, List.flatMap_map]
  exact List.flatMap_congr fun f _ => f.text_eq _

/-- The model opens with its line and its docstring. -/
theorem classText_eq (t : PythonTool) : ("class " ++ t.model ++
    "(BaseModel):\n    \"\"\"Arguments for " ++ commentText t.tool.name ++ ".\"\"\"\n").toList =
      t.classLine ++ ['\n'] ++
        (Row.comment "    ".toList t.tool.docstring.toList).chars python := by
  unfold classLine Row.chars Tool.docstring
  simp only [String.toList_append]
  repeat rw [String.toList_ofList]
  simp [python]

theorem modelText_eq (t : PythonTool) : t.modelText.toList = t.classLine ++ ['\n'] ++
    ((Row.comment "    ".toList t.tool.docstring.toList).chars python ++
      t.modelLines.flatMap (· ++ ['\n'])) := by
  have hconfig : (if t.fields.any PythonField.isAliased then
      "\n    model_config = ConfigDict(populate_by_name=True)\n" else "").toList =
        (if t.fields.any PythonField.isAliased then [[], configLine] else []).flatMap
          (· ++ ['\n']) := by
    split
    · unfold configLine
      repeat rw [String.toList_ofList]
      simp
    · rfl
  have hgap : (if t.fields.isEmpty then "" else "\n").toList =
      (if t.fields.isEmpty then [] else [[]]).flatMap (· ++ ['\n']) := by
    split <;> rfl
  have hbehind := congrArg₂ (· ++ ·) hconfig (congrArg₂ (· ++ ·) hgap t.fieldsText_eq)
  have htext := congrArg₂ (· ++ ·) t.classText_eq hbehind
  rw [modelLines, List.flatMap_append, List.flatMap_append, ← List.append_assoc, ← htext]
  unfold modelText
  simp only [String.toList_append, List.append_assoc]

theorem serviceText_eq (t : PythonTool) :
    ("\n\n" ++ (t.functionText ++ ("\n\n" ++ t.handleText))).toList =
      t.serviceLines.flatMap (· ++ ['\n']) := by
  unfold functionText handleText codeLiteral serviceLines functionLine functionBlock handleLine
    handleBlock
  simp only [String.toList_append]
  repeat rw [String.toList_ofList]
  simp

theorem text_rows (t : PythonTool) : t.text.toList = t.rows.flatMap (Row.chars python) := by
  have htext : t.text =
      "\n\n" ++ (t.modelText ++ ("\n\n" ++ (t.functionText ++ ("\n\n" ++ t.handleText)))) := by
    simp only [text, String.append_assoc]
  have hparts := congrArg₂ (· ++ ·) t.modelText_eq t.serviceText_eq
  rw [htext, String.toList_append, String.toList_append]
  refine (congrArg ("\n\n".toList ++ ·) hparts).trans ?_
  rw [rows, List.flatMap_cons, List.flatMap_cons, List.flatMap_cons, List.flatMap_cons,
    flatMap_lines, List.flatMap_append]
  simp [Row.chars]

theorem passed_modelLines {t : PythonTool} (h : t.Settled) :
    ∀ cs ∈ t.modelLines, python.Passed (cs ++ ['\n']) := by
  have hend : python.Passed ['\n'] := passed_chars (by decide)
  have hconfig : python.Passed (configLine ++ ['\n']) := (passed_text (by decide)).append hend
  unfold modelLines
  refine List.forall_mem_append.mpr ⟨?_, List.forall_mem_append.mpr ⟨?_, ?_⟩⟩
  · split
    · exact List.forall_mem_cons.mpr ⟨hend, List.forall_mem_singleton.mpr hconfig⟩
    · exact List.forall_mem_nil _
  · split
    · exact List.forall_mem_nil _
    · exact List.forall_mem_singleton.mpr hend
  · exact List.forall_mem_map.mpr fun f hf =>
      PythonField.passed_line (h.isField hf).isLegal.word _

theorem passed_functionBlock (t : PythonTool) :
    ∀ cs ∈ t.functionBlock, python.Passed (cs ++ ['\n']) := by
  have hend : Behind ['\n'] := behind_chars (by decide) (by decide)
  have hclose : Behind [')', '\n'] := behind_chars (by decide) (by decide)
  unfold functionBlock
  refine List.forall_mem_cons.mpr ⟨?_, List.forall_mem_singleton.mpr ?_⟩
  · rw [List.append_assoc]
    exact (passed_text (by decide)).append (hend.literal _)
  · rw [List.append_assoc, List.append_assoc]
    exact (passed_text (by decide)).append (hclose.literal _)

theorem passed_handleBlock {t : PythonTool} (h : t.Settled) :
    ∀ cs ∈ t.handleBlock, python.Passed (cs ++ ['\n']) := by
  have hclose : Behind [',', '\n'] := behind_chars (by decide) (by decide)
  have hword : ∀ {front : List Char} {name : String}, python.Passed front →
      Python.isWord name = true → python.Passed (front ++ (name.toList ++ [',']) ++ ['\n']) := by
    intro front name hfront hname
    rw [List.append_assoc, List.append_assoc]
    exact hfront.append ((passed_name hname).append hclose.passed)
  have hliteral : ∀ {front : List Char} {s : String}, python.Passed front →
      python.Passed (front ++ (Json.literal s ++ [',']) ++ ['\n']) := by
    intro front s hfront
    rw [List.append_assoc, List.append_assoc]
    exact hfront.append (hclose.literal s)
  exact List.forall_mem_cons.mpr ⟨hword (passed_text (by decide)) h.isIdentifier.isLegal.word,
    List.forall_mem_cons.mpr ⟨hliteral (passed_text (by decide)),
    List.forall_mem_cons.mpr ⟨hliteral (passed_text (by decide)),
    List.forall_mem_singleton.mpr (hword (passed_text (by decide)) h.isModel.isLegal.word)⟩⟩⟩

theorem passed_serviceLines {t : PythonTool} (h : t.Settled) :
    ∀ cs ∈ t.serviceLines, python.Passed (cs ++ ['\n']) := by
  have hend : python.Passed ['\n'] := passed_chars (by decide)
  have hfunction : python.Passed (t.functionLine ++ ['\n']) :=
    ((passed_text (by decide)).append ((passed_name h.isIdentifier.isLegal.word).append
      (passed_text (by decide)))).append hend
  have hhandle : python.Passed (t.handleLine ++ ['\n']) :=
    ((passed_name h.isHandle.isLegal.word).append (passed_text (by decide))).append hend
  have hclose : python.Passed ([')'] ++ ['\n']) := passed_chars (by decide)
  unfold serviceLines
  refine List.forall_mem_cons.mpr ⟨hend, List.forall_mem_cons.mpr ⟨hend, List.forall_mem_cons.mpr
    ⟨hfunction, List.forall_mem_append.mpr ⟨t.passed_functionBlock, ?_⟩⟩⟩⟩
  exact List.forall_mem_cons.mpr ⟨hend, List.forall_mem_cons.mpr ⟨hend, List.forall_mem_cons.mpr
    ⟨hhandle, List.forall_mem_append.mpr
      ⟨passed_handleBlock h, List.forall_mem_singleton.mpr hclose⟩⟩⟩⟩

/-- **Outside its docstring** a tool opens none. -/
theorem quiet_rows {t : PythonTool} (h : t.Settled) : ∀ r ∈ t.rows, r.Quiet python := by
  have hend : python.Passed ['\n'] := passed_chars (by decide)
  have hclass : python.Passed (t.classLine ++ ['\n']) :=
    ((passed_text (by decide)).append ((passed_name h.isModel.isLegal.word).append
      (passed_text (by decide)))).append hend
  exact List.forall_mem_cons.mpr ⟨hend, List.forall_mem_cons.mpr ⟨hend, List.forall_mem_cons.mpr
    ⟨hclass, List.forall_mem_cons.mpr ⟨⟨passed_text (by decide), hend⟩,
      List.forall_mem_map.mpr (List.forall_mem_append.mpr
        ⟨passed_modelLines h, passed_serviceLines h⟩)⟩⟩⟩⟩

end PythonTool

/-! ## Modules -/

namespace PythonModule

/-- The docstring of a module. -/
def docstring : String :=
  "LangChain tools generated from the ontology. Do not edit by hand."

/-- The lines at the top of a module, behind its docstring. -/
def headerLines : List (List Char) :=
  [[], "from typing import Any, Optional".toList, [],
    "from langchain_core.tools import StructuredTool".toList,
    "from pydantic import BaseModel, ConfigDict, Field".toList]

/-- The line of a structured tool in the list of all. -/
def entryLine (t : PythonTool) : List Char :=
  "    ".toList ++ (t.handle.toList ++ [','])

/-- The lines of the list. -/
def listLines (m : PythonModule) : List (List Char) :=
  if m.tools.isEmpty then ["TOOLS: list[StructuredTool] = []".toList]
  else "TOOLS: list[StructuredTool] = [".toList :: (m.tools.map entryLine ++ [[']']])

/-- A module in rows. -/
def rows (m : PythonModule) : List Row :=
  .comment [] docstring.toList :: (headerLines.map .line ++
    (m.tools.flatMap PythonTool.rows ++ ([] :: [] :: m.listLines).map .line))

theorem header_rows : header.toList =
    (Row.comment [] docstring.toList).chars python ++ headerLines.flatMap (· ++ ['\n']) := by
  unfold header headerLines docstring Row.chars
  simp only [String.toList_append]
  repeat rw [String.toList_ofList]
  rfl

theorem listText_eq (m : PythonModule) :
    ("\n\n" ++ m.listText).toList = ([] :: [] :: m.listLines).flatMap (· ++ ['\n']) := by
  have hentries : (String.join (m.tools.map fun t => "    " ++ t.handle ++ ",\n")).toList =
      (m.tools.map entryLine).flatMap (· ++ ['\n']) := by
    rw [String.toList_join, List.flatMap_map, List.flatMap_map]
    refine List.flatMap_congr fun t _ => ?_
    unfold entryLine
    simp only [String.toList_append]
    repeat rw [String.toList_ofList]
    simp
  unfold listText listLines
  cases m.tools.isEmpty
  · simp only [String.toList_append, hentries, Bool.false_eq_true, if_false]
    repeat rw [String.toList_ofList]
    simp
  · simp only [String.toList_append, if_true]
    repeat rw [String.toList_ofList]
    simp

theorem text_rows (m : PythonModule) : m.text.toList = m.rows.flatMap (Row.chars python) := by
  have htext : m.text =
      header ++ (String.join (m.tools.map PythonTool.text) ++ ("\n\n" ++ m.listText)) := by
    simp only [text, String.append_assoc]
  have hparts := congrArg₂ (· ++ ·) (toList_join_rows PythonTool.text_rows m.tools) m.listText_eq
  have hrows : m.rows.flatMap (Row.chars python) = header.toList ++
      ((m.tools.flatMap PythonTool.rows).flatMap (Row.chars python) ++
        ([] :: [] :: m.listLines).flatMap (· ++ ['\n'])) := by
    rw [rows, List.flatMap_cons, List.flatMap_append, List.flatMap_append, flatMap_lines,
      flatMap_lines, header_rows, List.append_assoc]
  rw [hrows, htext, String.toList_append, String.toList_append]
  exact congrArg (header.toList ++ ·) hparts

theorem docstrings_rows (m : PythonModule) : m.rows.filterMap Row.body? =
    (docstring :: m.tools.map fun t => t.tool.docstring).map String.toList := by
  have htool : ∀ t : PythonTool, t.rows.filterMap Row.body? = [t.tool.docstring.toList] := by
    intro t
    have hbody : Row.body? (.comment "    ".toList t.tool.docstring.toList) =
      some t.tool.docstring.toList := rfl
    rw [PythonTool.rows, List.filterMap_cons_none (by rfl), List.filterMap_cons_none (by rfl),
      List.filterMap_cons_none (by rfl), List.filterMap_cons_some hbody,
      filterMap_body?_lines]
  have hfirst : Row.body? (.comment [] docstring.toList) = some docstring.toList := rfl
  rw [rows, List.filterMap_cons_some hfirst, List.filterMap_append, List.filterMap_append,
    filterMap_body?_lines, filterMap_body?_lines, List.filterMap_flatMap, List.map_cons,
    List.map_map, List.nil_append, List.append_nil, List.map_eq_flatMap]
  exact congrArg _ (List.flatMap_congr fun t _ => htool t)

theorem passed_listLines {m : PythonModule} (h : ∀ t ∈ m.tools, t.Settled) :
    ∀ cs ∈ m.listLines, python.Passed (cs ++ ['\n']) := by
  have hend : python.Passed ['\n'] := passed_chars (by decide)
  have hentry : ∀ t ∈ m.tools, python.Passed (entryLine t ++ ['\n']) := fun t ht =>
    ((passed_text (by decide)).append ((passed_name (h t ht).isHandle.isLegal.word).append
      (passed_chars (by decide)))).append hend
  have hclose : python.Passed ([']'] ++ ['\n']) := passed_chars (by decide)
  unfold listLines
  split
  · exact List.forall_mem_singleton.mpr ((passed_text (by decide)).append hend)
  · exact List.forall_mem_cons.mpr ⟨(passed_text (by decide)).append hend,
      List.forall_mem_append.mpr ⟨List.forall_mem_map.mpr hentry,
        List.forall_mem_singleton.mpr hclose⟩⟩

/-- **The docstrings of a module** are its own and those of its tools. -/
theorem docstrings_text {m : PythonModule} (h : ∀ t ∈ m.tools, t.Settled) :
    python.comments m.text = docstring :: m.tools.map fun t => t.tool.docstring := by
  have hend : python.Passed ['\n'] := passed_chars (by decide)
  have hheader : ∀ cs ∈ headerLines, python.Passed (cs ++ ['\n']) := by
    have hplain : ∀ cs ∈ headerLines, python.Passed cs :=
      List.forall_mem_cons.mpr ⟨passed_nil, List.forall_mem_cons.mpr ⟨passed_text (by decide),
        List.forall_mem_cons.mpr ⟨passed_nil, List.forall_mem_cons.mpr ⟨passed_text (by decide),
          List.forall_mem_singleton.mpr (passed_text (by decide))⟩⟩⟩⟩
    exact fun cs hcs => (hplain cs hcs).append hend
  have hquiet : ∀ r ∈ m.rows, r.Quiet python := by
    refine List.forall_mem_cons.mpr ⟨⟨passed_nil, hend⟩, List.forall_mem_append.mpr
      ⟨List.forall_mem_map.mpr hheader, List.forall_mem_append.mpr ⟨?_, ?_⟩⟩⟩
    · exact List.forall_mem_flatMap.mpr fun t ht => PythonTool.quiet_rows (h t ht)
    · exact List.forall_mem_map.mpr (List.forall_mem_cons.mpr ⟨hend,
        List.forall_mem_cons.mpr ⟨hend, passed_listLines h⟩⟩)
  have hclosed : ∀ body ∈ m.rows.filterMap Row.body?, python.Closed body := by
    rw [docstrings_rows, List.forall_mem_map, List.forall_mem_cons, List.forall_mem_map]
    exact ⟨closed_plain (plain_text (by decide)), fun t _ => t.tool.closed_docstring⟩
  have hscan := scan_rows [] hquiet hclosed
  rw [List.append_nil, ← text_rows, docstrings_rows] at hscan
  rw [comments_eq_iff, hscan]
  exact List.append_nil _

end PythonModule
end OntologyCompiler
