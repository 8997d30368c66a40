import OntologyCompiler.Proofs.Python.Identifier

/-!
# How the names of a module are settled

The names of tools are bound one after the other, and the fields of each tool in a scope of their
own. A step binds what the candidates stem for, leaves no candidate free, and reports each name that
is not its candidate; a run does the same, by induction on the list.

* `PythonTool.Settled`, `PythonTool.settled_bind`: what one tool comes to.
* `PythonTool.binds_names`, `PythonTool.found_bind`: what its step does to the scope, and reports.
* `PythonModule.binds_names`, `PythonModule.settled_bindTools`, `PythonModule.found_bindTools`: the
  same for a run.
-/

namespace OntologyCompiler

open NameScope Python

namespace PythonTool

/-- The names of a tool at the level of the module. -/
def names (t : PythonTool) : List String :=
  [t.function, t.model, t.handle]

theorem mem_names {t : PythonTool} {n : String} :
    n ∈ t.names ↔ n = t.function ∨ n = t.model ∨ n = t.handle := by
  simp [names]

/-- A field as what is bound for its key. -/
def fieldBinding (tool : Tool) (f : PythonField) : Binding :=
  ⟨pythonIdentifier f.key, tool.name ++ "." ++ f.key, f.name⟩

/-- Everything that is bound for a tool, in order. -/
def bindings (t : PythonTool) : List Binding :=
  [⟨pythonIdentifier t.tool.name, t.tool.name, t.function⟩,
    ⟨argumentsName t.tool.name, t.tool.name, t.model⟩,
    ⟨t.function ++ "_tool", t.tool.name, t.handle⟩] ++ t.fields.map (fieldBinding t.tool)

/-! ## Fields -/

/-- All that the first field does: its name is bound, and the others follow. -/
theorem bindFields_cases (tool : Tool) (s : NameScope) (p : String × Schema)
    (rest : List (String × Schema)) : ∃ name found s',
      s.bind (pythonIdentifier p.1) "_" (tool.name ++ "." ++ p.1) = (name, found, s') ∧
      bindFields tool s (p :: rest) = (⟨name, p.1, p.2⟩ :: (bindFields tool s' rest).1,
        found ++ (bindFields tool s' rest).2) := by
  rcases hstep : s.bind (pythonIdentifier p.1) "_" (tool.name ++ "." ++ p.1) with ⟨name, found, s'⟩
  exact ⟨name, found, s', rfl, by rw [bindFields, hstep]⟩

theorem bindFields_properties (tool : Tool) (s : NameScope) (properties : List (String × Schema)) :
    (bindFields tool s properties).1.map (fun f => (f.key, f.schema)) = properties := by
  induction properties generalizing s with
  | nil => rfl
  | cons p rest ih =>
    obtain ⟨name, found, s', -, hrun⟩ := bindFields_cases tool s p rest
    rw [hrun, List.map_cons, ih]

theorem bindFields_stems (tool : Tool) (s : NameScope) (properties : List (String × Schema)) :
    ∀ f ∈ (bindFields tool s properties).1, Stems (pythonIdentifier f.key) "_" f.name := by
  induction properties generalizing s with
  | nil => exact fun f hf => absurd hf List.not_mem_nil
  | cons p rest ih =>
    obtain ⟨name, found, s', hstep, hrun⟩ := bindFields_cases tool s p rest
    rw [hrun]
    exact List.forall_mem_cons.mpr ⟨stems_of_bind hstep, ih s'⟩

/-- **The names of fields** are distinct and were free, and no candidate stays free. -/
theorem binds_bindFields (tool : Tool) (s : NameScope) (properties : List (String × Schema)) :
    ∃ s', s.Binds ((bindFields tool s properties).1.map PythonField.name) s' ∧
      ∀ f ∈ (bindFields tool s properties).1, pythonIdentifier f.key ∈ s'.taken := by
  induction properties generalizing s with
  | nil => exact ⟨s, binds_nil s, fun f hf => absurd hf List.not_mem_nil⟩
  | cons p rest ih =>
    obtain ⟨name, found, s₁, hstep, hrun⟩ := bindFields_cases tool s p rest
    obtain ⟨s₂, hbinds, htaken⟩ := ih s₁
    rw [hrun]
    refine ⟨s₂, (binds_of_bind hstep).trans hbinds, List.forall_mem_cons.mpr ⟨?_, htaken⟩⟩
    exact (hbinds.taken _).mpr (Or.inr (mem_taken_of_bind hstep))

theorem found_bindFields (tool : Tool) {s : NameScope} {target : CodeTarget}
    (hs : s.target = target) (properties : List (String × Schema)) :
    (bindFields tool s properties).2 =
      ((bindFields tool s properties).1.map (fieldBinding tool)).filterMap
        (Binding.finding? target) := by
  induction properties generalizing s with
  | nil => rfl
  | cons p rest ih =>
    obtain ⟨name, found, s', hstep, hrun⟩ := bindFields_cases tool s p rest
    rw [hrun, ih ((binds_of_bind hstep).target.trans hs), findings_of_bind hstep hs,
      ← List.filterMap_append, List.singleton_append, List.map_cons, fieldBinding]

/-! ## Tools -/

/-- What the names of a tool come to: each stems from its candidate; the fields stand for the
properties in order; and their names are distinct from each other and from the one that the model
itself needs, which is the only other name that can be in their way. -/
structure Settled (t : PythonTool) : Prop where
  function : Stems (pythonIdentifier t.tool.name) "_" t.function
  model : Stems (argumentsName t.tool.name) "" t.model
  handle : Stems (t.function ++ "_tool") "_" t.handle
  properties : t.fields.map (fun f => (f.key, f.schema)) = t.tool.parameters.properties
  fields : ∀ f ∈ t.fields, Stems (pythonIdentifier f.key) "_" f.name
  distinct : (t.fields.map PythonField.name).Nodup
  apart : "model_config" ∉ t.fields.map PythonField.name
  reached : ∀ f ∈ t.fields, pythonIdentifier f.key ∈ t.fields.map PythonField.name ∨
    pythonIdentifier f.key = "model_config"

namespace Settled

variable {t : PythonTool}

theorem isIdentifier (h : t.Settled) : IsIdentifier t.function :=
  isIdentifier_of_stems h.function

theorem isModel (h : t.Settled) : IsModel t.model :=
  isModel_of_stems h.model

theorem isHandle (h : t.Settled) : IsHandle t.handle :=
  isHandle_of_stems h.isIdentifier.snake h.handle

theorem isField (h : t.Settled) {f : PythonField} (hf : f ∈ t.fields) : IsIdentifier f.name :=
  isIdentifier_of_stems (h.fields f hf)

/-- A name that begins with a capital and is no model's is not among the names of a tool. -/
theorem notMem_names (h : t.Settled) {n : String} (hsnake : isSnake n = false)
    (hmark : ¬ modelMark <:+: n.toList) : n ∉ t.names := by
  intro hn
  rcases mem_names.mp hn with rfl | rfl | rfl
  · exact absurd h.isIdentifier.snake (by simp [hsnake])
  · exact hmark h.isModel.mark
  · exact absurd h.isHandle.snake (by simp [hsnake])

end Settled

/-- All that settling a tool does: its three names are bound one after the other, and its fields in
a scope of their own. -/
theorem bind_cases (s : NameScope) (tool : Tool) :
    ∃ function model handle found₁ found₂ found₃ s₁ s₂ s₃,
      s.bind (pythonIdentifier tool.name) "_" tool.name = (function, found₁, s₁) ∧
      s₁.bind (argumentsName tool.name) "" tool.name = (model, found₂, s₂) ∧
      s₂.bind (function ++ "_tool") "_" tool.name = (handle, found₃, s₃) ∧
      PythonTool.bind s tool = (⟨tool, function, model, handle,
        (bindFields tool ⟨.python, ["model_config"]⟩ tool.parameters.properties).1⟩,
        found₁ ++ found₂ ++ found₃ ++
          (bindFields tool ⟨.python, ["model_config"]⟩ tool.parameters.properties).2, s₃) := by
  rcases hf : s.bind (pythonIdentifier tool.name) "_" tool.name with ⟨function, found₁, s₁⟩
  rcases hm : s₁.bind (argumentsName tool.name) "" tool.name with ⟨model, found₂, s₂⟩
  rcases hh : s₂.bind (function ++ "_tool") "_" tool.name with ⟨handle, found₃, s₃⟩
  exact ⟨function, model, handle, found₁, found₂, found₃, s₁, s₂, s₃, rfl, hm, hh,
    by rw [PythonTool.bind, hf]; dsimp only; rw [hm]; dsimp only; rw [hh]⟩

theorem bind_tool (s : NameScope) (tool : Tool) : (PythonTool.bind s tool).1.tool = tool :=
  rfl

/-- **A tool is settled** in every scope. -/
theorem settled_bind (s : NameScope) (tool : Tool) : (PythonTool.bind s tool).1.Settled := by
  obtain ⟨function, model, handle, _, _, _, s₁, s₂, s₃, hf, hm, hh, hbind⟩ := bind_cases s tool
  obtain ⟨_, hrun, htaken⟩ :=
    binds_bindFields tool ⟨.python, ["model_config"]⟩ tool.parameters.properties
  rw [hbind]
  exact {
    function := stems_of_bind hf
    model := stems_of_bind hm
    handle := stems_of_bind hh
    properties := bindFields_properties tool _ _
    fields := bindFields_stems tool _ _
    distinct := hrun.nodup
    apart := fun hmem => hrun.free _ hmem List.mem_cons_self
    reached := fun f hf => ((hrun.taken _).mp (htaken f hf)).imp_right List.mem_singleton.mp }

/-- **A step binds the three names of a tool**, and the first candidate is not free behind it. -/
theorem binds_names (s : NameScope) (tool : Tool) :
    s.Binds (PythonTool.bind s tool).1.names (PythonTool.bind s tool).2.2 ∧
      pythonIdentifier tool.name ∈ (PythonTool.bind s tool).2.2.taken := by
  obtain ⟨function, model, handle, _, _, _, s₁, s₂, s₃, hf, hm, hh, hbind⟩ := bind_cases s tool
  have hrest := (binds_of_bind hm).trans (binds_of_bind hh)
  rw [hbind]
  exact ⟨(binds_of_bind hf).trans hrest, (hrest.taken _).mpr (Or.inr (mem_taken_of_bind hf))⟩

/-- **A step reports** each name that is not its candidate. -/
theorem found_bind {s : NameScope} (hs : s.target = .python) (tool : Tool) :
    (PythonTool.bind s tool).2.1 =
      (PythonTool.bind s tool).1.bindings.filterMap (Binding.finding? .python) := by
  obtain ⟨function, model, handle, _, _, _, s₁, s₂, s₃, hf, hm, hh, hbind⟩ := bind_cases s tool
  -- the target is the same in each scope along the way
  have hs₁ := (binds_of_bind hf).target.trans hs
  have hs₂ := (binds_of_bind hm).target.trans hs₁
  rw [hbind]
  simp only [findings_of_bind hf hs, findings_of_bind hm hs₁, findings_of_bind hh hs₂,
    found_bindFields tool (s := ⟨.python, ["model_config"]⟩) rfl, ← List.filterMap_append,
    bindings, List.cons_append, List.nil_append]

end PythonTool

namespace PythonModule

/-- The names of a module, tool by tool. -/
def names (m : PythonModule) : List String :=
  m.tools.flatMap PythonTool.names

/-! ## Runs -/

/-- All that the first tool of a run does: it is settled, and the others follow. -/
theorem bindTools_cases (s : NameScope) (tool : Tool) (rest : List Tool) : ∃ t found s',
    PythonTool.bind s tool = (t, found, s') ∧
    bindTools s (tool :: rest) = (t :: (bindTools s' rest).1, found ++ (bindTools s' rest).2) := by
  rcases hstep : PythonTool.bind s tool with ⟨t, found, s'⟩
  exact ⟨t, found, s', rfl, by rw [bindTools, hstep]⟩

theorem bindTools_tools (s : NameScope) (tools : List Tool) :
    (bindTools s tools).1.map PythonTool.tool = tools := by
  induction tools generalizing s with
  | nil => rfl
  | cons tool rest ih =>
    obtain ⟨t, found, s', hstep, hrun⟩ := bindTools_cases s tool rest
    have htool := PythonTool.bind_tool s tool
    rw [hstep] at htool
    rw [hrun, List.map_cons, ih, htool]

/-- **Every tool of a run is settled.** -/
theorem settled_bindTools (s : NameScope) (tools : List Tool) :
    ∀ t ∈ (bindTools s tools).1, t.Settled := by
  induction tools generalizing s with
  | nil => exact fun t ht => absurd ht List.not_mem_nil
  | cons tool rest ih =>
    obtain ⟨t, found, s', hstep, hrun⟩ := bindTools_cases s tool rest
    have hsettled := PythonTool.settled_bind s tool
    rw [hstep] at hsettled
    rw [hrun]
    exact List.forall_mem_cons.mpr ⟨hsettled, ih s'⟩

/-- **The names that a run binds** are distinct and were free, and no name of a tool stays free. -/
theorem binds_names (s : NameScope) (tools : List Tool) :
    ∃ s', s.Binds ((bindTools s tools).1.flatMap PythonTool.names) s' ∧
      ∀ tool ∈ tools, pythonIdentifier tool.name ∈ s'.taken := by
  induction tools generalizing s with
  | nil => exact ⟨s, binds_nil s, fun t ht => absurd ht List.not_mem_nil⟩
  | cons tool rest ih =>
    obtain ⟨t, found, s₁, hstep, hrun⟩ := bindTools_cases s tool rest
    obtain ⟨hnames, hmem⟩ := PythonTool.binds_names s tool
    obtain ⟨s₂, hbinds, htaken⟩ := ih s₁
    rw [hstep] at hnames hmem
    rw [hrun, List.flatMap_cons]
    exact ⟨s₂, hnames.trans hbinds, List.forall_mem_cons.mpr
      ⟨(hbinds.taken _).mpr (Or.inr hmem), htaken⟩⟩

/-- **A run reports** each name that is not its candidate. -/
theorem found_bindTools {s : NameScope} (hs : s.target = .python) (tools : List Tool) :
    (bindTools s tools).2 =
      ((bindTools s tools).1.flatMap PythonTool.bindings).filterMap
        (Binding.finding? .python) := by
  induction tools generalizing s with
  | nil => rfl
  | cons tool rest ih =>
    obtain ⟨t, found, s', hstep, hrun⟩ := bindTools_cases s tool rest
    have htarget := (PythonTool.binds_names s tool).1.target
    have hfound := PythonTool.found_bind hs tool
    rw [hstep] at htarget hfound
    rw [hrun, List.flatMap_cons, List.filterMap_append, ← hfound, ← ih (htarget.trans hs)]

end PythonModule
end OntologyCompiler
