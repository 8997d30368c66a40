import Mathlib.Data.List.Perm.Basic
import OntologyCompiler.Code.Generate
import OntologyCompiler.Proofs.Python.Statements

/-!
# The names in the code of a module

What the names of a module come to is read off its code, statement by statement: what it imports,
which models, functions and structured tools it declares, what the lines of the fields say, and what
`TOOLS` lists.

* `importedNames_eq`: what a module imports.
* `outline_text`: everything that the code of a module declares.
* `wellNamed_render`: the names in all generated code are distinct, legal and reported.
-/

namespace OntologyCompiler

open NameScope Python

namespace Python

/-! ## What a module imports -/

/-- The names that a module imports, read off its first lines. -/
def importedNames : List String :=
  (PythonModule.header.toList.splitOn '\n').flatMap importedBy

theorem importedNames_eq : importedNames =
    ["Any", "Optional", "StructuredTool", "BaseModel", "ConfigDict", "Field"] := by
  unfold importedNames PythonModule.header
  simp only [String.toList_append]
  repeat rw [String.toList_ofList]
  decide +kernel

/-- The names of a module that are not made for a tool. -/
def ownNames : List String :=
  "TOOLS" :: importedNames

theorem ownNames_apart : ∀ n ∈ ownNames, isSnake n = false ∧ ¬ modelMark <:+: n.toList := by
  rw [ownNames, importedNames_eq]
  decide +kernel

/-! ## What a module declares -/

/-- The models that code declares. -/
def models (code : String) : List Model :=
  (statements code).filterMap model?

/-- Everything that code declares. -/
structure Outline where
  imports : List String
  models : List Model
  functions : List String
  handles : List Handle
  listed : List String

/-- Everything that code declares, read off its statements. -/
def outline (code : String) : Outline where
  imports := (statements code).flatMap fun s => importedBy s.head
  models := models code
  functions := (statements code).filterMap function?
  handles := (statements code).filterMap handle?
  listed := (statements code).flatMap listedBy

/-- The names of the fields of a model. -/
def Model.fieldNames (m : Model) : List String :=
  m.fields.map PythonField.fieldName

namespace Outline

/-- The names of functions, models and structured tools. -/
def names (o : Outline) : List String :=
  o.functions ++ (o.models.map Model.name ++ o.handles.map Handle.name)

/-- Everything that was bound for tools, when code declares it in the order of the tools. -/
def bindings (o : Outline) (tools : List Tool) : List Binding :=
  (tools.zip (o.functions.zip (o.models.zip o.handles))).flatMap
    fun (tool, function, model, handle) =>
      [⟨pythonIdentifier tool.name, tool.name, function⟩,
        ⟨argumentsName tool.name, tool.name, model.name⟩,
        ⟨function ++ "_tool", tool.name, handle.name⟩]
      ++ (tool.parameters.properties.zip model.fieldNames).map fun (property, name) =>
        ⟨pythonIdentifier property.1, tool.name ++ "." ++ property.1, name⟩

end Outline

end Python

/-! ## The code of a module -/

namespace PythonTool

/-- What the code declares as the model of a tool. -/
def shownModel (t : PythonTool) : Model :=
  ⟨t.model, t.fields.map t.fieldLine⟩

/-- What the code makes as the structured tool of a tool. -/
def shownHandle (t : PythonTool) : Handle :=
  ⟨t.handle, some t.function, some t.tool.name, some t.model⟩

theorem Settled.isLegal {t : PythonTool} (h : t.Settled) :
    ∀ n ∈ t.names ++ t.fields.map PythonField.name, IsLegal n := by
  intro n hn
  rcases List.mem_append.mp hn with hn | hn
  · rcases mem_names.mp hn with rfl | rfl | rfl
    · exact h.isIdentifier.isLegal
    · exact h.isModel.isLegal
    · exact h.isHandle.isLegal
  · obtain ⟨f, hf, rfl⟩ := List.mem_map.mp hn
    exact (h.isField hf).isLegal

/-- Functions and structured tools begin with small letters, and models hold `Args`. -/
theorem Settled.notMem_ownNames {t : PythonTool} (h : t.Settled) :
    ∀ n ∈ t.names, n ∉ ownNames := by
  intro n hn hown
  obtain ⟨hsnake, hmark⟩ := ownNames_apart n hown
  exact h.notMem_names hsnake hmark hn

/-- The fields are shown under their names. -/
theorem Settled.fieldNames_eq {t : PythonTool} (h : t.Settled) :
    t.shownModel.fieldNames = t.fields.map PythonField.name := by
  rw [shownModel, Model.fieldNames, List.map_map]
  exact List.map_congr_left fun f hf =>
    PythonField.fieldName_line (h.isField hf).isLegal.word _

/-- The fields are called on the wire as the properties of the tool. -/
theorem Settled.wireNames_eq {t : PythonTool} (h : t.Settled) :
    t.shownModel.fields.map PythonField.wireName? =
      t.tool.parameters.properties.map fun p => some p.1 := by
  rw [shownModel, ← h.properties, List.map_map, List.map_map]
  exact List.map_congr_left fun f hf =>
    PythonField.wireName?_line (h.isField hf).isLegal.word _

end PythonTool

namespace PythonModule

variable {m : PythonModule}

/-- What is read of one statement of each tool, and of no other, is read tool by tool. -/
theorem filterMap_statements {α : Type} (h : ∀ t ∈ m.tools, t.Settled)
    {f : Statement → Option α} {g : PythonTool → α} (hheader : ∀ s ∈ headerStatements, f s = none)
    (htool : ∀ t ∈ m.tools, t.statements.filterMap f = [g t])
    (hempty : f ⟨"TOOLS: list[StructuredTool] = []".toList, []⟩ = none)
    (hopen : ∀ block, f ⟨"TOOLS: list[StructuredTool] = [".toList, block⟩ = none)
    (hclose : f ⟨[']'], []⟩ = none) :
    (Python.statements m.text).filterMap f = m.tools.map g := by
  have hlist : m.listStatements.filterMap f = [] := by
    unfold listStatements
    split
    · rw [List.filterMap_cons_none hempty, List.filterMap_nil]
    · rw [List.filterMap_cons_none (hopen _), List.filterMap_cons_none hclose, List.filterMap_nil]
  have htools : (m.tools.flatMap PythonTool.statements).filterMap f = m.tools.map g := by
    rw [List.filterMap_flatMap, List.map_eq_flatMap]
    exact List.flatMap_congr htool
  rw [statements_text h, statements, List.filterMap_append, List.filterMap_append,
    List.filterMap_eq_nil_iff.mpr hheader, htools, hlist, List.nil_append, List.append_nil]

/-- **The models of a module** are those of its tools. -/
theorem models_text (h : ∀ t ∈ m.tools, t.Settled) :
    models m.text = m.tools.map PythonTool.shownModel := by
  have hnone : ∀ {s : Statement} {keyword : String}, word s.head = keyword → keyword ≠ "class" →
      model? s = none := by
    rintro s _ rfl hne
    rw [model?, nameBehind?, if_neg hne, Option.map_none]
  exact filterMap_statements h (fun s hs => hnone (word_headerStatements s hs) (by decide))
    (fun t ht => PythonTool.models_statements (h t ht)) (hnone word_emptyList (by decide))
    (fun _ => hnone word_openList (by decide)) (by decide)

theorem functions_text (h : ∀ t ∈ m.tools, t.Settled) :
    (Python.statements m.text).filterMap function? = m.tools.map PythonTool.function := by
  have hnone : ∀ {s : Statement} {keyword : String}, word s.head = keyword → keyword ≠ "def" →
      function? s = none := by
    rintro s _ rfl hne
    rw [function?, nameBehind?, if_neg hne]
  exact filterMap_statements h (fun s hs => hnone (word_headerStatements s hs) (by decide))
    (fun t ht => PythonTool.functions_statements (h t ht)) (hnone word_emptyList (by decide))
    (fun _ => hnone word_openList (by decide)) (by decide)

theorem handles_text (h : ∀ t ∈ m.tools, t.Settled) :
    (Python.statements m.text).filterMap handle? = m.tools.map PythonTool.shownHandle := by
  have hheader : ∀ s ∈ headerStatements,
      behindWord s.head ≠ " = StructuredTool.from_function(".toList := by
    unfold headerStatements headerLines
    repeat rw [String.toList_ofList]
    decide +kernel
  have hempty : behindWord "TOOLS: list[StructuredTool] = []".toList ≠
      " = StructuredTool.from_function(".toList := by
    repeat rw [String.toList_ofList]
    decide
  have hopen : behindWord "TOOLS: list[StructuredTool] = [".toList ≠
      " = StructuredTool.from_function(".toList := by
    repeat rw [String.toList_ofList]
    decide
  exact filterMap_statements h (fun s hs => if_neg (hheader s hs))
    (fun t ht => PythonTool.handles_statements (h t ht)) (if_neg hempty) (fun _ => if_neg hopen)
    (by decide)

theorem imports_text (h : ∀ t ∈ m.tools, t.Settled) :
    (Python.statements m.text).flatMap (fun s => importedBy s.head) = importedNames := by
  have hheader : headerStatements.flatMap (fun s => importedBy s.head) =
      ["Any", "Optional", "StructuredTool", "BaseModel", "ConfigDict", "Field"] := by
    unfold headerStatements headerLines
    repeat rw [String.toList_ofList]
    decide +kernel
  have htools :
      (m.tools.flatMap PythonTool.statements).flatMap (fun s => importedBy s.head) = [] := by
    rw [List.flatMap_assoc]
    exact List.flatMap_eq_nil_iff.mpr fun t ht => PythonTool.imports_statements (h t ht)
  have hlist : m.listStatements.flatMap (fun s => importedBy s.head) = [] := by
    have hempty : importedBy "TOOLS: list[StructuredTool] = []".toList = [] := by
      rw [String.toList_ofList]
      decide
    have hopen : importedBy "TOOLS: list[StructuredTool] = [".toList = [] := by
      rw [String.toList_ofList]
      decide
    have hclose : importedBy [']'] = [] := by decide
    unfold listStatements
    split
    · rw [List.flatMap_singleton, hempty]
    · rw [List.flatMap_cons, List.flatMap_singleton, hopen, hclose, List.nil_append]
  rw [statements_text h, statements, List.flatMap_append, List.flatMap_append, hheader, htools,
    hlist, importedNames_eq, List.nil_append, List.append_nil]

/-- **`TOOLS` lists the structured tools** in order. -/
theorem listed_text (h : ∀ t ∈ m.tools, t.Settled) :
    (Python.statements m.text).flatMap listedBy = m.tools.map PythonTool.handle := by
  have hheader : headerStatements.flatMap listedBy = [] := by
    refine List.flatMap_eq_nil_iff.mpr fun s hs => if_neg ?_
    rw [word_headerStatements s hs]
    decide
  have htools : (m.tools.flatMap PythonTool.statements).flatMap listedBy = [] := by
    rw [List.flatMap_assoc]
    exact List.flatMap_eq_nil_iff.mpr fun t ht => PythonTool.listed_statements (h t ht)
  have hlist : m.listStatements.flatMap listedBy = m.tools.map PythonTool.handle := by
    have hclose : listedBy ⟨[']'], []⟩ = [] := by decide
    have hentry : ∀ t ∈ m.tools, word ((entryLine t).drop 4) = t.handle := fun t ht =>
      (word_append (h t ht).isHandle.isLegal.word (c := ',') (by decide) []).1
    unfold listStatements
    by_cases hempty : m.tools.isEmpty = true
    · have hread : listedBy ⟨"TOOLS: list[StructuredTool] = []".toList, []⟩ = [] :=
        if_pos word_emptyList
      rw [if_pos hempty, List.isEmpty_iff.mp hempty, List.flatMap_singleton, hread, List.map_nil]
    · have hread : listedBy ⟨"TOOLS: list[StructuredTool] = [".toList, m.tools.map entryLine⟩ =
          (m.tools.map entryLine).map fun line => word (line.drop 4) := if_pos word_openList
      rw [if_neg hempty, List.flatMap_cons, List.flatMap_singleton, hclose, List.append_nil, hread,
        List.map_map]
      exact List.map_congr_left hentry
  rw [statements_text h, statements, List.flatMap_append, List.flatMap_append, hheader, htools,
    hlist, List.nil_append, List.nil_append]

/-- **Everything that the code of a module declares.** -/
theorem outline_text (h : ∀ t ∈ m.tools, t.Settled) : outline m.text = {
    imports := importedNames
    models := m.tools.map PythonTool.shownModel
    functions := m.tools.map PythonTool.function
    handles := m.tools.map PythonTool.shownHandle
    listed := m.tools.map PythonTool.handle } := by
  rw [outline, imports_text h, models_text h, functions_text h, handles_text h, listed_text h]

/-- The names that the code declares are those of the tools. -/
theorem names_outline (h : ∀ t ∈ m.tools, t.Settled) : (outline m.text).names.Perm m.names := by
  have hperm : (m.tools.map PythonTool.function ++
      (m.tools.map PythonTool.model ++ m.tools.map PythonTool.handle)).Perm m.names := by
    rw [List.map_eq_flatMap, List.map_eq_flatMap, List.map_eq_flatMap]
    exact ((List.flatMap_append_perm _ _ _).append_left _).trans (List.flatMap_append_perm _ _ _)
  rw [outline_text h, Outline.names, List.map_map, List.map_map]
  exact hperm

/-- What was bound for the tools is read off the code. -/
theorem bindings_outline (h : ∀ t ∈ m.tools, t.Settled) :
    (outline m.text).bindings (m.tools.map PythonTool.tool) =
      m.tools.flatMap PythonTool.bindings := by
  have hfields : ∀ t ∈ m.tools, (t.tool.parameters.properties.zip t.shownModel.fieldNames).map
      (fun (property, name) =>
        (⟨pythonIdentifier property.1, t.tool.name ++ "." ++ property.1, name⟩ : Binding)) =
          t.fields.map (PythonTool.fieldBinding t.tool) := by
    intro t ht
    rw [(h t ht).fieldNames_eq, ← (h t ht).properties, List.zip_map', List.map_map]
    rfl
  rw [outline_text h, Outline.bindings]
  simp only [List.zip_map', List.flatMap_map]
  refine List.flatMap_congr fun t ht => ?_
  rw [hfields t ht]
  rfl

/-! ## The names of a module -/

/-- What is promised of the names that the code of tools declares. -/
structure WellNamed (tools : List Tool) (o : Outline) (findings : List Finding) : Prop where
  /-- The names of functions, models and structured tools are distinct, all tools together. -/
  distinct : o.names.Nodup
  /-- They are none of the imported names, nor `TOOLS`. -/
  apart : ∀ n ∈ o.names, n ∉ o.imports ∧ n ≠ "TOOLS"
  /-- The names that are imported. -/
  imported : o.imports =
    ["Any", "Optional", "StructuredTool", "BaseModel", "ConfigDict", "Field"]
  /-- The fields of each model are distinct, and none is `model_config`. -/
  fields : ∀ m ∈ o.models, m.fieldNames.Nodup ∧ "model_config" ∉ m.fieldNames
  /-- All of them are legal. -/
  legal : ∀ n ∈ o.names ++ o.models.flatMap Model.fieldNames, IsLegal n
  /-- There is one structured tool for each tool, in order. -/
  inOrder : o.handles.map Handle.tool = tools.map fun t => some t.name
  /-- Each is made of the function and the model that stand for the same tool. -/
  made : o.handles.map Handle.function = o.functions.map some ∧
    o.handles.map Handle.model = o.models.map fun m => some m.name
  /-- `TOOLS` lists the structured tools in order. -/
  listed : o.listed = o.handles.map Handle.name
  /-- The fields of a model are called on the wire as the properties of its tool, in order. -/
  wired : o.models.map (fun m => m.fields.map PythonField.wireName?) =
    tools.map fun t => t.parameters.properties.map fun p => some p.1
  /-- Each name that is not its candidate is reported, and nothing else is. -/
  reported : findings = (o.bindings tools).filterMap (Binding.finding? .python)
  /-- There are as many warnings as such names, and no errors. -/
  counted : findings.countP (fun f => !f.isError) =
    (o.bindings tools).countP fun b => b.name != b.candidate
  warnings : ∀ f ∈ findings, f.isError = false

/-- **The names in generated code**, read off the code, are distinct, legal and reported, whatever
the names and properties of the tools. -/
theorem wellNamed_render (tools : List Tool) :
    WellNamed tools (outline (CodeTarget.python.render tools).output)
      (CodeTarget.python.render tools).findings := by
  have hsettled : ∀ t ∈ (ofTools tools).output.tools, t.Settled := settled_bindTools _ tools
  have htools : (ofTools tools).output.tools.map PythonTool.tool = tools := bindTools_tools _ tools
  have hcode : (CodeTarget.python.render tools).output = (ofTools tools).output.text := rfl
  have hfound : (CodeTarget.python.render tools).findings =
      ((ofTools tools).output.tools.flatMap PythonTool.bindings).filterMap
        (Binding.finding? .python) := found_bindTools (s := ⟨.python, []⟩) rfl tools
  obtain ⟨_, hbinds, -⟩ := binds_names ⟨.python, []⟩ tools
  have hnames := names_outline hsettled
  have hbindings := bindings_outline hsettled
  have houtline := outline_text hsettled
  rw [htools] at hbindings
  rw [← hcode] at hnames hbindings houtline
  have hwarn : ∀ f ∈ (CodeTarget.python.render tools).findings, f.isError = false := fun f hf =>
    isError_of_mem_findings (hfound ▸ hf)
  have himports : (outline (CodeTarget.python.render tools).output).imports = importedNames := by
    rw [houtline]
  exact {
    distinct := hnames.nodup_iff.mpr hbinds.nodup
    apart := fun n hn => by
      obtain ⟨t, ht, hn⟩ := List.mem_flatMap.mp (hnames.mem_iff.mp hn)
      have hown := (hsettled t ht).notMem_ownNames n hn
      rw [ownNames, List.mem_cons, not_or] at hown
      rw [himports]
      exact hown.symm
    imported := himports.trans importedNames_eq
    fields := by
      rw [houtline, List.forall_mem_map]
      intro t ht
      rw [(hsettled t ht).fieldNames_eq]
      exact ⟨(hsettled t ht).distinct, (hsettled t ht).apart⟩
    legal := fun n hn => by
      rcases List.mem_append.mp hn with hn | hn
      · obtain ⟨t, ht, hn⟩ := List.mem_flatMap.mp (hnames.mem_iff.mp hn)
        exact (hsettled t ht).isLegal n (List.mem_append_left _ hn)
      · rw [houtline, List.flatMap_map] at hn
        obtain ⟨t, ht, hn⟩ := List.mem_flatMap.mp hn
        rw [(hsettled t ht).fieldNames_eq] at hn
        exact (hsettled t ht).isLegal n (List.mem_append_right _ hn)
    inOrder := by
      conv_rhs => rw [← htools, List.map_map]
      rw [houtline, List.map_map]
      rfl
    made := by
      rw [houtline]
      simp [PythonTool.shownHandle, PythonTool.shownModel]
    listed := by
      rw [houtline, List.map_map]
      rfl
    wired := by
      conv_rhs => rw [← htools, List.map_map]
      rw [houtline, List.map_map]
      exact List.map_congr_left fun t ht => (hsettled t ht).wireNames_eq
    reported := by rw [hbindings, hfound]
    counted := by
      rw [List.countP_eq_length.mpr fun f hf => by simp [hwarn f hf], hbindings, hfound,
        length_findings]
    warnings := hwarn }

end PythonModule
end OntologyCompiler
