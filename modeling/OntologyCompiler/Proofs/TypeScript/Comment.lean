import OntologyCompiler.Proofs.Comments
import OntologyCompiler.Proofs.Python.Field
import OntologyCompiler.Proofs.TypeScript.Array

/-!
# The rows of a module of interfaces

A module has a comment for every tool and one for every argument with a description. Outside these
it has names, literals and marks between them, none of which opens a comment.

* `closed_iff`, `scan_open`: a text stays inside its comment unless it holds the end of one.
* `Tool.interfaceComments_iff`: which texts of a tool close their comments.
* `TypeScriptTool.text_rows`, `TypeScriptModule.text_rows`: the text of a tool and of a module in
  rows.
* `TypeScriptTool.quiet_rows`: nothing else opens a comment.
* `TypeScriptModule.comments_text_iff`: the comments of a module.
-/

namespace OntologyCompiler

namespace Lexis

/-- The marks of TypeScript. -/
def typeScript : Lexis where
  line := ['/', '/']
  opening := ['/', '*']
  closing := ['*', '/']
  quotes := ['"', Char.ofNat 39, Char.ofNat 96]
  escapes := false

/-- **A text stays inside its comment** unless it holds the end of one. -/
theorem closed_iff {body : List Char} : typeScript.Closed body ↔ ¬ ['*', '/'] <:+: body := by
  constructor
  · rintro h ⟨front, back, rfl⟩
    exact h.mark front '*' ('/' :: back) [] (by simp) ⟨back ++ ['*', '/'], by simp [typeScript]⟩
  · intro h
    refine ⟨?_, fun he => absurd he (by decide)⟩
    rintro front c back rest rfl hprefix
    obtain ⟨rfl, htail⟩ := List.cons_prefix_cons.mp hprefix
    cases back with
    | nil => exact absurd (List.cons_prefix_cons.mp htail).1 (by decide)
    | cons d back =>
      obtain ⟨rfl, -⟩ := List.cons_prefix_cons.mp htail
      exact h ⟨front, back, by simp⟩

/-- Of a comment that is closed by its own text, less than the text is read. -/
theorem scan_cut : ∀ {body : List Char}, ['*', '/'] <:+: body → ∀ read rest, ∃ first more,
    typeScript.scan 0 (.comment read false) (body ++ rest) = (read.reverse ++ first) :: more ∧
      first.length < body.length
  | [], h, _, _ => absurd h (by simp)
  | c :: body, h, read, rest => by
    by_cases hprefix : typeScript.closing.isPrefixOf (c :: (body ++ rest)) = true
    · refine ⟨[], typeScript.scan 1 .code (body ++ rest), ?_, Nat.succ_pos _⟩
      rw [List.cons_append, scan, hprefix, Bool.not_false, Bool.and_self, if_pos rfl,
        List.append_nil]
      rfl
    · have hbody : ['*', '/'] <:+: body := by
        refine (List.infix_cons_iff.mp h).resolve_left fun hfront => hprefix ?_
        rw [List.isPrefixOf_iff_prefix]
        exact hfront.trans (List.prefix_append (c :: body) rest)
      obtain ⟨first, more, hscan, hlength⟩ := scan_cut hbody (c :: read) rest
      refine ⟨c :: first, more, ?_, Nat.succ_lt_succ hlength⟩
      rw [List.cons_append, scan, Bool.eq_false_iff.mpr hprefix]
      simpa [typeScript] using hscan

theorem scan_open (body rest : List Char) (h : ¬ typeScript.Closed body) :
    (typeScript.scan 0 (.comment [] false) (body ++ (typeScript.closing ++ rest))).head? ≠
      some body := by
  obtain ⟨first, more, hscan, hlength⟩ := scan_cut (not_not.mp (closed_iff.not.mp h)) []
    (typeScript.closing ++ rest)
  rw [hscan]
  intro heq
  obtain rfl := Option.some.inj heq
  exact absurd hlength (lt_irrefl _)

/-! ## Code -/

theorem passed_literal (s : String) : typeScript.Passed (Json.literal s) := by
  intro rest
  rw [Json.Raw.literal_append, ← scan_literal s rest]
  rfl

theorem passed_digits (n : Number) : typeScript.Passed n.digits := by
  obtain ⟨negative, c, cs, hdigits, -, hall⟩ := n.digits_form
  rw [hdigits]
  refine Passed.append (passed_chars (by cases negative <;> decide)) ?_
  exact passed_class (p := fun d => d.isDigit || ['.', 'e', '+', '-'].contains d) (by decide)
    fun d hd => by simpa using hall d hd

theorem layout_plain : Json.layout.all (· ∉ typeScript.openers) = true := by
  unfold Json.layout
  rw [String.toList_ofList]
  decide

theorem passed_parts : Json.HoldsOfParts typeScript.Passed where
  append := Passed.append
  layout h := passed_plain fun c hc =>
    of_decide_eq_true (List.all_eq_true.mp layout_plain c (h c hc))
  number := passed_digits
  literal := passed_literal

theorem passed_word {s : String} (h : Python.isWord s = true) : typeScript.Passed s.toList :=
  passed_class (p := Python.isWordChar) (by decide) (Python.mem_of_isWord h)

theorem passed_key (name : String) : typeScript.Passed (typeScriptKey name).toList := by
  rcases typeScriptKey_cases name with ⟨heq, hplain⟩ | heq
  · rw [heq]
    exact passed_class (p := isKeyChar) (by decide) (isKeyChar_of_isPlainKey hplain).1
  · rw [heq]
    exact passed_literal name

theorem passed_type (s : Schema) : typeScript.Passed (typeScriptType s).toList :=
  passed_class (p := isTypeChar) (by decide) (isTypeChar_type s)

/-- A comment up to the end of its line is passed. -/
theorem passed_line {cs : List Char} (h : '\n' ∉ cs) :
    typeScript.Passed ('/' :: '/' :: (cs ++ ['\n'])) := by
  intro rest
  have hline : '/' :: '/' :: (cs ++ ['\n']) ++ rest = '/' :: '/' :: (cs ++ '\n' :: rest) := by simp
  rw [hline, ← scan_line h rest]
  rfl

end Lexis

/-! ## Tools -/

namespace Tool

/-- The comment above the arguments of a tool. -/
def argumentsComment (t : Tool) : String :=
  "* Arguments for \x60" ++ commentText t.name ++ "\x60. "

/-- The comment above an argument with a description. -/
def descriptionComment (description : String) : String :=
  "* " ++ commentText description ++ " "

/-- The comments of the interface of a tool. -/
def interfaceComments (t : Tool) : List String :=
  t.argumentsComment :: t.parameters.properties.filterMap fun p =>
    p.2.description.map descriptionComment

/-- **The comment above the arguments is closed by its own text** just if the name of the tool has a
star before a backslash. -/
theorem closes_argumentsComment (t : Tool) :
    ['*', '/'] <:+: t.argumentsComment.toList ↔ ['*', '\\'] <:+: t.name.toList := by
  unfold argumentsComment
  rw [String.toList_append, String.toList_append, List.append_assoc, infix_framed
    (by decide) (by decide) (by decide) (by decide), closes_commentText]

theorem closes_descriptionComment (d : String) :
    ['*', '/'] <:+: (Tool.descriptionComment d).toList ↔ ['*', '\\'] <:+: d.toList := by
  unfold descriptionComment
  rw [String.toList_append, String.toList_append, List.append_assoc, infix_framed
    (by decide) (by decide) (by decide) (by decide), closes_commentText]

/-- No comment of an interface is closed by its own text, when no text it holds has a star before a
backslash. -/
theorem interfaceComments_iff (t : Tool) :
    (∀ c ∈ t.interfaceComments, ¬ ['*', '/'] <:+: c.toList) ↔
      ¬ ['*', '\\'] <:+: t.name.toList ∧ ∀ p ∈ t.parameters.properties,
        ∀ d ∈ p.2.description, ¬ ['*', '\\'] <:+: d.toList := by
  have hdescription : ∀ s : Schema, (∀ c ∈ s.description.map descriptionComment,
      ¬ ['*', '/'] <:+: c.toList) ↔ ∀ d ∈ s.description, ¬ ['*', '\\'] <:+: d.toList := by
    intro s
    rw [Option.forall_mem_map]
    exact forall₂_congr fun d _ => (closes_descriptionComment d).not
  rw [interfaceComments, List.forall_mem_cons, closes_argumentsComment, List.forall_mem_filterMap]
  exact and_congr_right fun _ => forall₂_congr fun p _ => hdescription p.2

end Tool

namespace TypeScriptTool

open Lexis

/-- A member in rows. -/
def memberRows (t : TypeScriptTool) (p : String × Schema) : List Row :=
  (match p.2.description with
    | some d => [.comment "  ".toList (Tool.descriptionComment d).toList]
    | none => []) ++ [.line (t.memberLine p.1 p.2)]

/-- The line of a tool without arguments. -/
def typeLine (t : TypeScriptTool) : List Char :=
  "export type ".toList ++ (t.typeName.toList ++ " = Record<string, never>;".toList)

/-- The line of the interface of any other tool. -/
def interfaceLine (t : TypeScriptTool) : List Char :=
  "export interface ".toList ++ (t.typeName.toList ++ " \x7b".toList)

theorem memberText_rows (t : TypeScriptTool) (p : String × Schema) :
    (t.memberText p.1 p.2).toList = (t.memberRows p).flatMap (Row.chars typeScript) := by
  have hline : ("  " ++ (typeScriptKey p.1 ++
      ((if t.tool.parameters.isRequired p.1 then "" else "?") ++
        (": " ++ (typeScriptType p.2 ++ ";\n"))))).toList =
          [Row.line (t.memberLine p.1 p.2)].flatMap (Row.chars typeScript) := by
    unfold memberLine memberRest
    simp only [String.toList_append]
    repeat rw [String.toList_ofList]
    cases t.tool.parameters.isRequired p.1 <;> simp [Row.chars]
  unfold memberText memberRows
  rw [List.flatMap_append, ← hline]
  cases p.2.description with
  | none => simp only [String.append_assoc, String.empty_append, List.flatMap_nil, List.nil_append]
  | some d =>
    have hcomment : ("  /** " ++ (commentText d ++ " */\n")).toList =
        [Row.comment "  ".toList (Tool.descriptionComment d).toList].flatMap
          (Row.chars typeScript) := by
      unfold Tool.descriptionComment
      simp only [String.toList_append]
      repeat rw [String.toList_ofList]
      simp [Row.chars, typeScript]
    rw [← hcomment, ← String.toList_append]
    simp only [String.append_assoc]

/-- The declaration behind the comment of a tool. -/
def declaration (t : TypeScriptTool) : List Row :=
  if t.tool.parameters.properties.isEmpty then [.line t.typeLine]
  else .line t.interfaceLine ::
    (t.tool.parameters.properties.flatMap t.memberRows ++ [.line "\x7d".toList])

/-- The declaration of the arguments in rows. -/
def rows (t : TypeScriptTool) : List Row :=
  .line [] :: .comment [] t.tool.argumentsComment.toList :: t.declaration

theorem commentText_rows (t : TypeScriptTool) :
    ("\n/** Arguments for \x60" ++ (commentText t.tool.name ++ "\x60. */\n")).toList =
      [Row.line [], .comment [] t.tool.argumentsComment.toList].flatMap (Row.chars typeScript) := by
  unfold Tool.argumentsComment
  simp only [String.toList_append]
  repeat rw [String.toList_ofList]
  simp [Row.chars, typeScript]

theorem declarationText_rows (t : TypeScriptTool) :
    (if t.tool.parameters.properties.isEmpty then
      "export type " ++ t.typeName ++ " = Record<string, never>;\n"
    else
      "export interface " ++ t.typeName ++ " \x7b\n"
        ++ String.join (t.tool.parameters.properties.map fun p => t.memberText p.1 p.2)
        ++ "\x7d\n").toList = t.declaration.flatMap (Row.chars typeScript) := by
  have hmembers := toList_join_rows t.memberText_rows t.tool.parameters.properties
  unfold declaration
  by_cases hempty : t.tool.parameters.properties.isEmpty = true
  · rw [if_pos hempty, if_pos hempty, List.flatMap_singleton]
    unfold typeLine Row.chars
    simp only [String.toList_append]
    repeat rw [String.toList_ofList]
    simp
  · rw [if_neg hempty, if_neg hempty, List.flatMap_cons, List.flatMap_append, ← hmembers,
      List.flatMap_singleton]
    unfold interfaceLine Row.chars
    simp only [String.toList_append]
    repeat rw [String.toList_ofList]
    simp

theorem text_rows (t : TypeScriptTool) : t.text.toList = t.rows.flatMap (Row.chars typeScript) := by
  have hparts := congrArg₂ (· ++ ·) t.commentText_rows t.declarationText_rows
  have hrows : t.rows = [.line [], .comment [] t.tool.argumentsComment.toList] ++ t.declaration :=
    rfl
  rw [hrows, List.flatMap_append, ← hparts, ← String.toList_append]
  exact congrArg (fun front => String.toList (front ++ _)) String.append_assoc

theorem comments_rows (t : TypeScriptTool) :
    t.rows.filterMap Row.body? = t.tool.interfaceComments.map String.toList := by
  have hmember : ∀ p, (t.memberRows p).filterMap Row.body? =
      ((p.2.description.map Tool.descriptionComment).map String.toList).toList := by
    intro p
    unfold memberRows
    cases p.2.description <;> rfl
  have hmembers : (t.tool.parameters.properties.flatMap t.memberRows).filterMap Row.body? =
      (t.tool.parameters.properties.filterMap fun p =>
        p.2.description.map Tool.descriptionComment).map String.toList := by
    rw [List.filterMap_flatMap, List.map_filterMap, List.filterMap_eq_flatMap_toList]
    exact List.flatMap_congr fun p _ => hmember p
  rw [Tool.interfaceComments, List.map_cons, ← hmembers]
  unfold rows declaration
  by_cases hempty : t.tool.parameters.properties.isEmpty = true
  · rw [if_pos hempty, List.isEmpty_iff.mp hempty]
    rfl
  · rw [if_neg hempty]
    simp only [List.filterMap_cons, List.filterMap_append, List.filterMap_nil, Row.body?,
      List.append_nil]

theorem passed_memberLine (t : TypeScriptTool) (name : String) (s : Schema) :
    typeScript.Passed (t.memberLine name s ++ ['\n']) := by
  have hmark :
      typeScript.Passed (if t.tool.parameters.isRequired name then [] else ['?']) := by
    split
    · exact passed_nil
    · exact passed_chars (by decide)
  have hcolon : typeScript.Passed [':', ' '] := passed_chars (by decide)
  have hrest : typeScript.Passed (t.memberRest name s) :=
    hmark.append (hcolon.append ((passed_type s).append (passed_chars (by decide))))
  exact ((passed_text (by decide)).append ((passed_key name).append hrest)).append
    (passed_chars (by decide))

theorem quiet_memberRows (t : TypeScriptTool) (p : String × Schema) :
    ∀ r ∈ t.memberRows p, r.Quiet typeScript := by
  have hline : ∀ r ∈ [Row.line (t.memberLine p.1 p.2)], r.Quiet typeScript :=
    List.forall_mem_singleton.mpr (t.passed_memberLine p.1 p.2)
  unfold memberRows
  cases p.2.description with
  | none => exact hline
  | some d =>
    exact List.forall_mem_append.mpr ⟨List.forall_mem_singleton.mpr
      ⟨passed_text (by decide), passed_chars (by decide)⟩, hline⟩

/-- **Outside its comments** a tool opens none. -/
theorem quiet_rows {t : TypeScriptTool} (h : Python.isWord t.typeName = true) :
    ∀ r ∈ t.rows, r.Quiet typeScript := by
  have hend : typeScript.Passed ['\n'] := passed_chars (by decide)
  have hnamed : ∀ {front back : List Char}, typeScript.Passed front → typeScript.Passed back →
      typeScript.Passed (front ++ (t.typeName.toList ++ back) ++ ['\n']) := fun hfront hback =>
    (hfront.append ((passed_word h).append hback)).append hend
  unfold rows declaration
  refine List.forall_mem_cons.mpr ⟨hend, List.forall_mem_cons.mpr ⟨⟨passed_nil, hend⟩, ?_⟩⟩
  by_cases hempty : t.tool.parameters.properties.isEmpty = true
  · rw [if_pos hempty]
    exact List.forall_mem_singleton.mpr (hnamed (passed_text (by decide)) (passed_text (by decide)))
  · rw [if_neg hempty]
    refine List.forall_mem_cons.mpr ⟨hnamed (passed_text (by decide)) (passed_text (by decide)),
      List.forall_mem_append.mpr ⟨?_, List.forall_mem_singleton.mpr (quiet_text (by decide))⟩⟩
    exact List.forall_mem_flatMap.mpr fun p _ => t.quiet_memberRows p

end TypeScriptTool

/-! ## Modules -/

namespace TypeScriptModule

open Lexis

/-- The names of the types are words. -/
theorem isWord_typeName (s : NameScope) (tools : List Tool) :
    ∀ t ∈ (bindTools s tools).1, Python.isWord t.typeName = true := by
  induction tools generalizing s with
  | nil => exact fun t ht => absurd ht List.not_mem_nil
  | cons tool rest ih =>
    rw [bindTools]
    refine List.forall_mem_cons.mpr ⟨?_, ih _⟩
    exact Python.isWord_of_stems
      (NameScope.stems_of_bind (rfl : s.bind (argumentsName tool.name) "" tool.name = _))
      (Python.argumentsName_word tool.name)

theorem passed_arrayText (m : TypeScriptModule) : typeScript.Passed m.arrayText.toList := by
  by_cases hempty : m.tools.isEmpty = true
  · unfold arrayText
    rw [if_pos hempty]
    exact passed_text (by decide)
  · have hitems : m.items ≠ [] := by simpa [items, List.isEmpty_iff] using hempty
    have hlist : typeScript.Passed (Json.joined [','] (Json.prettyItems 1 m.items)) :=
      Json.holds_joined passed_parts (Json.holds_prettyItems passed_parts 1 m.items)
    have hopen : typeScript.Passed ['['] := passed_chars (by decide)
    rw [arrayText_eq hitems]
    refine passed_append ?_ (passed_text (by decide))
    rw [String.toList_ofList]
    exact hopen.append hlist

theorem passed_namesText (m : TypeScriptModule) : typeScript.Passed m.namesText.toList := by
  unfold namesText
  by_cases hempty : m.tools.isEmpty = true
  · rw [if_pos hempty]
    exact passed_text (by decide)
  · rw [if_neg hempty]
    refine passed_intercalate (passed_text (by decide)) ?_
    rintro x hx
    obtain ⟨t, -, rfl⟩ := List.mem_map.mp hx
    rw [codeLiteral, String.toList_ofList]
    exact passed_literal t.tool.name

/-- What stands behind the declarations. -/
def footer (m : TypeScriptModule) : String :=
  "\nexport const tools: ChatCompletionTool[] = " ++ m.arrayText ++ ";\n"
    ++ "\nexport type ToolName = " ++ m.namesText ++ ";\n"

theorem passed_footer (m : TypeScriptModule) : typeScript.Passed m.footer.toList := by
  unfold footer
  exact passed_append (passed_append (passed_append (passed_append (passed_append
    (passed_text (by decide)) m.passed_arrayText) (passed_text (by decide)))
    (passed_text (by decide))) m.passed_namesText) (passed_text (by decide))

/-- The lines at the top of a module. -/
def headerLines : List (List Char) :=
  ["// OpenAI tools generated from the ontology. Do not edit by hand.".toList,
    "import type \x7b ChatCompletionTool \x7d from \"openai/resources/chat/completions\";".toList]

theorem passed_headerLines : ∀ cs ∈ headerLines, typeScript.Passed (cs ++ ['\n']) := by
  have hline :
      "// OpenAI tools generated from the ontology. Do not edit by hand.".toList ++ ['\n'] =
        '/' :: '/' :: (" OpenAI tools generated from the ontology. Do not edit by hand.".toList
          ++ ['\n']) := by
    repeat rw [String.toList_ofList]
    rfl
  have hsource : String.toList
      "import type \x7b ChatCompletionTool \x7d from \"openai/resources/chat/completions\";"
        ++ ['\n'] = "import type \x7b ChatCompletionTool \x7d from ".toList ++
          (Json.literal "openai/resources/chat/completions" ++ [';', '\n']) := by
    unfold Json.literal
    repeat rw [String.toList_ofList]
    decide +kernel
  have hbreak : '\n' ∉
      " OpenAI tools generated from the ontology. Do not edit by hand.".toList := by
    rw [String.toList_ofList]
    decide
  refine List.forall_mem_cons.mpr ⟨?_, List.forall_mem_singleton.mpr ?_⟩
  · rw [hline]
    exact passed_line hbreak
  · rw [hsource]
    exact (passed_text (by decide)).append ((passed_literal _).append (passed_chars (by decide)))

/-- The declarations of a module in rows. -/
def rows (m : TypeScriptModule) : List Row :=
  headerLines.map .line ++ m.tools.flatMap TypeScriptTool.rows

/-- The comments of a module. -/
def comments (m : TypeScriptModule) : List String :=
  m.tools.flatMap fun t => t.tool.interfaceComments

/-- The comments of a module are those of its tools. -/
theorem comments_ofTools (tools : List Tool) :
    (ofTools tools).output.comments = tools.flatMap Tool.interfaceComments := by
  have htools : (ofTools tools).output.tools.map TypeScriptTool.tool = tools :=
    bindTools_tools _ tools
  conv_rhs => rw [← htools, List.flatMap_map]
  rfl

theorem header_rows : header.toList = headerLines.flatMap (· ++ ['\n']) := by
  unfold header headerLines
  simp only [String.toList_append]
  repeat rw [String.toList_ofList]
  rfl

theorem text_rows (m : TypeScriptModule) :
    m.text.toList = m.rows.flatMap (Row.chars typeScript) ++ m.footer.toList := by
  have htext : m.text = header ++ (String.join (m.tools.map TypeScriptTool.text) ++ m.footer) := by
    unfold text footer
    simp only [String.append_assoc]
  have htools := toList_join_rows TypeScriptTool.text_rows m.tools
  have hbehind := congrArg (· ++ m.footer.toList) htools
  rw [htext, String.toList_append, String.toList_append, rows, List.flatMap_append, flatMap_lines,
    List.append_assoc]
  exact congrArg₂ (· ++ ·) header_rows hbehind

theorem comments_rows (m : TypeScriptModule) :
    m.rows.filterMap Row.body? = m.comments.map String.toList := by
  rw [rows, List.filterMap_append, filterMap_body?_lines, List.nil_append, comments,
    List.filterMap_flatMap, List.map_flatMap]
  exact List.flatMap_congr fun t _ => t.comments_rows

/-- **The comments of a module** are found just if none holds the end of one. -/
theorem comments_text_iff {m : TypeScriptModule}
    (h : ∀ t ∈ m.tools, Python.isWord t.typeName = true) :
    typeScript.comments m.text = m.comments ↔
      ∀ c ∈ m.comments, ¬ ['*', '/'] <:+: c.toList := by
  have hquiet : ∀ r ∈ m.rows, r.Quiet typeScript :=
    List.forall_mem_append.mpr ⟨List.forall_mem_map.mpr passed_headerLines,
      List.forall_mem_flatMap.mpr fun t ht => TypeScriptTool.quiet_rows (h t ht)⟩
  have hfooter : typeScript.scan 0 .code m.footer.toList = [] := by
    have hpassed := m.passed_footer []
    rwa [List.append_nil] at hpassed
  have hscan := Iff.intro
    (fun hread => closed_of_scan_rows scan_open hquiet
      (hread.trans (List.append_nil _).symm))
    (fun hclosed => (scan_rows m.footer.toList hquiet hclosed).trans
      (by rw [hfooter, List.append_nil]))
  rw [← text_rows, comments_rows, List.forall_mem_map] at hscan
  rw [comments_eq_iff, hscan]
  exact forall₂_congr fun _ _ => closed_iff

end TypeScriptModule
end OntologyCompiler
