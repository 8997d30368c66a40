import OntologyCompiler.Proofs.Statements
import OntologyCompiler.Proofs.TypeScript.Comment

/-!
# The interfaces of a module

The declarations of a module stand in front of its array, and the members of an interface are the
lines of its block. The text of a comment may be anything, even what closes the comment early, so a
reader of the interfaces is told the comments.

* `statements_text`: the statements of a module, up to its array.
* `interfaces_text`: the members of each interface.
-/

namespace OntologyCompiler

open Lexis

/-! ## What statements say -/

namespace TypeScript

/-- The lines of the members that a statement declares for a tool. A type that is no interface has
none. -/
def members? (s : Statement) : Option (List (List Char)) :=
  if "export interface ".toList.isPrefixOf s.head then some s.block
  else if "export type ".toList.isPrefixOf s.head then some []
  else none

/-- Whether a statement declares a value. -/
def isValue (s : Statement) : Bool :=
  "export const ".toList.isPrefixOf s.head

/-- The lines of the members of each interface of code whose comments are known. Interfaces stand in
front of all values. -/
def interfaces (comments : List String) (code : String) : List (List (List Char)) :=
  ((typeScript.statements comments code).takeWhile (!isValue ·)).filterMap members?

end TypeScript

/-! ## Lines -/

namespace Lexis

theorem inline_typeScript : typeScript.Inline where
  opening := by decide
  closing := by decide
  head := by decide

theorem visible_key (name : String) : Json.Visible (typeScriptKey name).toList := by
  rcases typeScriptKey_cases name with ⟨heq, hplain⟩ | heq
  · rw [heq]
    exact Json.visible_class (p := isKeyChar) (by decide) (isKeyChar_of_isPlainKey hplain).1
  · rw [heq]
    exact Json.visible_literal name

theorem head?_key (name : String) :
    ∃ c, ((typeScriptKey name).toList.dropWhile (· == ' ')).head? = some c ∧ c ≠ '/' := by
  rcases typeScriptKey_cases name with ⟨heq, hplain⟩ | heq
  · obtain ⟨-, c, rest, hname, hc⟩ := isKeyChar_of_isPlainKey hplain
    have hne : ∀ d : Char, isKeyChar d = false → c ≠ d := by
      rintro d hd rfl
      exact absurd hc (by simp [hd])
    refine ⟨c, ?_, hne '/' (by decide)⟩
    rw [heq, hname, List.dropWhile_cons_of_neg (by simpa using hne ' ' (by decide)),
      List.head?_cons]
  · exact ⟨'"', by rw [heq]; rfl, by decide⟩

end Lexis

/-! ## Tools -/

namespace TypeScriptTool

/-- The lines of the members of a tool. -/
def memberLines (t : TypeScriptTool) : List (List Char) :=
  t.tool.parameters.properties.map fun p => t.memberLine p.1 p.2

/-- The statements of a tool. -/
def statements (t : TypeScriptTool) : List Statement :=
  if t.tool.parameters.properties.isEmpty then [⟨t.typeLine, []⟩]
  else [⟨t.interfaceLine, t.memberLines⟩, ⟨"\x7d".toList, []⟩]

theorem plain_memberLine (t : TypeScriptTool) (name : String) (s : Schema) :
    (Row.line (t.memberLine name s)).Plain typeScript := by
  obtain ⟨c, hc, hne⟩ := head?_key name
  have hmark : Json.Visible (if t.tool.parameters.isRequired name then [] else ['?']) := by
    split <;> decide
  have htype : Json.Visible (typeScriptType s).toList :=
    Json.visible_class (by decide) (isTypeChar_type s)
  have hfront : Json.Visible ("  ".toList ++ (typeScriptKey name).toList) :=
    Json.Visible.append (by decide) (visible_key name)
  have hcolon : Json.Visible [':', ' '] := by decide
  have hrest : Json.Visible (t.memberRest name s) :=
    hmark.append (hcolon.append (htype.append (by decide)))
  have hplain : (Row.line (("  ".toList ++ (typeScriptKey name).toList) ++
      t.memberRest name s)).Plain typeScript :=
    plain_line hc (by simpa [typeScript] using hne) (hfront.append hrest).line_not_mem
  rwa [List.append_assoc] at hplain

theorem plain_memberRows (t : TypeScriptTool) (p : String × Schema) :
    ∀ r ∈ t.memberRows p, r.Plain typeScript := by
  have hline : ∀ r ∈ [Row.line (t.memberLine p.1 p.2)], r.Plain typeScript :=
    List.forall_mem_singleton.mpr (t.plain_memberLine p.1 p.2)
  unfold memberRows
  cases p.2.description with
  | none => exact hline
  | some d =>
    exact List.forall_mem_append.mpr ⟨List.forall_mem_singleton.mpr (by simp [Row.Plain]), hline⟩

theorem plain_rows {t : TypeScriptTool} (h : Python.isWord t.typeName = true) :
    ∀ r ∈ t.rows, r.Plain typeScript := by
  have hnamed : ∀ {cs ds : List Char}, (cs.dropWhile (· == ' ')).head? = some 'e' →
      Json.Visible cs → Json.Visible ds → (Row.line ((String.ofList cs).toList ++
        (t.typeName.toList ++ (String.ofList ds).toList))).Plain typeScript := by
    intro cs ds hhead hfront hback
    rw [String.toList_ofList, String.toList_ofList]
    exact plain_line hhead (by decide)
      (hfront.append ((Python.visible_word h).append hback)).line_not_mem
  have hclose : (Row.line "\x7d".toList).Plain typeScript := ⟨by decide, by decide⟩
  unfold rows declaration
  refine List.forall_mem_cons.mpr ⟨plain_nil, List.forall_mem_cons.mpr ⟨by simp [Row.Plain], ?_⟩⟩
  by_cases hempty : t.tool.parameters.properties.isEmpty = true
  · rw [if_pos hempty]
    exact List.forall_mem_singleton.mpr (hnamed rfl (by decide) (by decide))
  · rw [if_neg hempty]
    refine List.forall_mem_cons.mpr ⟨hnamed rfl (by decide) (by decide),
      List.forall_mem_append.mpr ⟨?_, List.forall_mem_singleton.mpr hclose⟩⟩
    exact List.forall_mem_flatMap.mpr fun p _ => t.plain_memberRows p

/-- The lines of a tool are those of its statements, and a blank one. -/
theorem filter_rows (t : TypeScriptTool) :
    (t.rows.filterMap Row.code?).filter (!·.isEmpty) = t.statements.flatMap Statement.lines := by
  have hmember : ∀ p, (t.memberRows p).filterMap Row.code? = [t.memberLine p.1 p.2] := by
    intro p
    unfold memberRows
    cases p.2.description <;> rfl
  have hmembers : (t.tool.parameters.properties.flatMap t.memberRows).filterMap Row.code? =
      t.memberLines := by
    rw [List.filterMap_flatMap, memberLines, List.map_eq_flatMap]
    exact List.flatMap_congr fun p _ => hmember p
  have hfilter : t.memberLines.filter (!·.isEmpty) = t.memberLines :=
    List.filter_eq_self.mpr (List.forall_mem_map.mpr fun _ _ => rfl)
  have hcodes : t.rows.filterMap Row.code? = [] :: t.declaration.filterMap Row.code? := rfl
  rw [hcodes, List.filter_cons_of_neg (by decide)]
  unfold declaration statements
  by_cases hempty : t.tool.parameters.properties.isEmpty = true
  · rw [if_pos hempty, if_pos hempty]
    rfl
  · have hopen : Row.code? (.line t.interfaceLine) = some t.interfaceLine := rfl
    have hclose : [Row.line "\x7d".toList].filterMap Row.code? = ["\x7d".toList] := rfl
    have hline : (!t.interfaceLine.isEmpty) = true := rfl
    rw [if_neg hempty, if_neg hempty, List.filterMap_cons_some hopen, List.filterMap_append,
      hmembers, hclose, List.filter_cons_of_pos (p := fun cs : List Char => !cs.isEmpty) hline,
      List.filter_append, hfilter]
    simp [Statement.lines]

theorem shaped_statements (t : TypeScriptTool) : ∀ s ∈ t.statements, s.Shaped := by
  have hmembers : ∀ line ∈ t.memberLines, Statement.isMoved line = true :=
    List.forall_mem_map.mpr fun _ _ => rfl
  unfold statements
  split
  · exact List.forall_mem_singleton.mpr (Statement.shaped_line rfl)
  · exact List.forall_mem_cons.mpr ⟨⟨rfl, hmembers⟩,
      List.forall_mem_singleton.mpr (Statement.shaped_line rfl)⟩

/-- **The members of a tool** are read off its statements. -/
theorem members_statements (t : TypeScriptTool) :
    t.statements.filterMap TypeScript.members? = [t.memberLines] := by
  have htype : TypeScript.members? ⟨t.typeLine, []⟩ = some [] := rfl
  have hinterface : TypeScript.members? ⟨t.interfaceLine, t.memberLines⟩ = some t.memberLines := rfl
  have hclose : TypeScript.members? ⟨"\x7d".toList, []⟩ = none := rfl
  unfold statements
  by_cases hempty : t.tool.parameters.properties.isEmpty = true
  · rw [if_pos hempty, List.filterMap_cons_some htype, List.filterMap_nil, memberLines,
      List.isEmpty_iff.mp hempty, List.map_nil]
  · rw [if_neg hempty, List.filterMap_cons_some hinterface, List.filterMap_cons_none hclose,
      List.filterMap_nil]

theorem isValue_statements (t : TypeScriptTool) :
    ∀ s ∈ t.statements, TypeScript.isValue s = false := by
  unfold statements
  split
  · exact List.forall_mem_singleton.mpr rfl
  · exact List.forall_mem_cons.mpr ⟨rfl, List.forall_mem_singleton.mpr rfl⟩

end TypeScriptTool

/-! ## Modules -/

namespace TypeScriptModule

variable {m : TypeScriptModule}

/-- The statements in front of the array. -/
def declarations (m : TypeScriptModule) : List Statement :=
  headerLines.map (⟨·, []⟩) ++ m.tools.flatMap TypeScriptTool.statements

theorem plain_rows (h : ∀ t ∈ m.tools, Python.isWord t.typeName = true) :
    ∀ r ∈ m.rows, r.Plain typeScript := by
  have hheader : ∀ cs ∈ headerLines, (Row.line cs).Plain typeScript :=
    List.forall_mem_cons.mpr ⟨Row.plain_text ⟨by decide, by decide⟩,
      List.forall_mem_singleton.mpr (Row.plain_text ⟨by decide, by decide⟩)⟩
  exact List.forall_mem_append.mpr ⟨List.forall_mem_map.mpr hheader,
    List.forall_mem_flatMap.mpr fun t ht => TypeScriptTool.plain_rows (h t ht)⟩

theorem filter_rows (m : TypeScriptModule) :
    (m.rows.filterMap Row.code?).filter (!·.isEmpty) = m.declarations.flatMap Statement.lines := by
  have hheader : (headerLines.map (⟨·, []⟩)).flatMap Statement.lines =
      headerLines.filter (!·.isEmpty) := by
    unfold headerLines
    repeat rw [String.toList_ofList]
    rfl
  have htools : ((m.tools.flatMap TypeScriptTool.rows).filterMap Row.code?).filter (!·.isEmpty) =
      (m.tools.flatMap TypeScriptTool.statements).flatMap Statement.lines := by
    rw [List.filterMap_flatMap, List.filter_flatMap, List.flatMap_assoc]
    exact List.flatMap_congr fun t _ => t.filter_rows
  rw [rows, List.filterMap_append, filterMap_code?_lines, List.filter_append, htools, declarations,
    List.flatMap_append, hheader]

theorem shaped_declarations (m : TypeScriptModule) : ∀ s ∈ m.declarations, s.Shaped := by
  have hheader : ∀ line ∈ headerLines, Statement.isMoved line = false := by
    unfold headerLines
    repeat rw [String.toList_ofList]
    decide
  exact List.forall_mem_append.mpr
    ⟨List.forall_mem_map.mpr fun line hline => Statement.shaped_line (hheader line hline),
      List.forall_mem_flatMap.mpr fun t _ => t.shaped_statements⟩

/-- Behind the declarations comes the array. -/
theorem exists_footer (m : TypeScriptModule) : ∃ line lines,
    (typeScript.codeLines [] 0 (m.footer.toList.splitOn '\n')).filter (!·.isEmpty) =
      ("export const ".toList ++ line) :: lines := by
  have hfooter : ∃ back, m.footer.toList = [] ++ '\n' :: ("export const ".toList ++ back) := by
    unfold footer
    simp only [String.toList_append, List.append_assoc]
    repeat rw [String.toList_ofList]
    exact ⟨_, rfl⟩
  obtain ⟨back, hback⟩ := hfooter
  have hfront : '\n' ∉ "export const ".toList := by decide
  obtain ⟨line, lines, hsplit, -⟩ := exists_splitOn_append hfront back
  have hopen : typeScript.opening.isPrefixOf
      (("export const ".toList ++ line).dropWhile (· == ' ')) = false := rfl
  have hempty : typeScript.opening.isPrefixOf (([] : List Char).dropWhile (· == ' ')) = false := rfl
  have hline : (!("export const ".toList ++ line).isEmpty) = true := rfl
  refine ⟨line, (typeScript.codeLines [] 0 lines).filter (!·.isEmpty), ?_⟩
  rw [hback, List.splitOn_append_cons_self, List.splitOn_nil, List.singleton_append, hsplit,
    codeLines, hempty, if_neg (by decide), codeLines, hopen, if_neg (by decide),
    List.filter_cons_of_neg (by decide),
    List.filter_cons_of_pos (p := fun cs : List Char => !cs.isEmpty) hline]

/-- **The statements of a module**, told its comments, are its declarations, the array, and what
stands behind that. -/
theorem statements_text (h : ∀ t ∈ m.tools, Python.isWord t.typeName = true) :
    ∃ value more, typeScript.statements m.comments m.text = m.declarations ++ value :: more ∧
      TypeScript.isValue value = true := by
  obtain ⟨line, lines, hlines⟩ := m.exists_footer
  have hhead : Statement.isMoved ("export const ".toList ++ line) = false := rfl
  have hread := statements_rows inline_typeScript m.text_rows (plain_rows h) m.comments_rows.symm
    m.filter_rows m.shaped_declarations hlines (by simpa using hhead)
  rw [Statement.group, hhead, if_neg (by decide)] at hread
  exact ⟨_, _, hread, rfl⟩

/-- **The interfaces of a module** have a member for each argument, tool by tool. -/
theorem interfaces_text (h : ∀ t ∈ m.tools, Python.isWord t.typeName = true) :
    TypeScript.interfaces m.comments m.text = m.tools.map TypeScriptTool.memberLines := by
  obtain ⟨value, more, hread, hvalue⟩ := statements_text h
  have hheader : (headerLines.map (⟨·, []⟩)).filterMap TypeScript.members? = [] := by
    unfold headerLines
    repeat rw [String.toList_ofList]
    decide +kernel
  have hdeclarations : ∀ s ∈ m.declarations, (!TypeScript.isValue s) = true := by
    have hlines : ∀ line ∈ headerLines, (!TypeScript.isValue ⟨line, []⟩) = true := by
      unfold headerLines
      repeat rw [String.toList_ofList]
      decide +kernel
    refine List.forall_mem_append.mpr ⟨List.forall_mem_map.mpr hlines,
      List.forall_mem_flatMap.mpr fun t _ s hs => ?_⟩
    rw [t.isValue_statements s hs, Bool.not_false]
  rw [TypeScript.interfaces, hread, List.takeWhile_append_of_pos hdeclarations,
    List.takeWhile_cons_of_neg (by simp [hvalue]), List.append_nil, declarations,
    List.filterMap_append, hheader, List.nil_append, List.filterMap_flatMap, List.map_eq_flatMap]
  exact List.flatMap_congr fun t _ => t.members_statements

end TypeScriptModule
end OntologyCompiler
