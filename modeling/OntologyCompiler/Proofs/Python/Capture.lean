import OntologyCompiler.Proofs.Python.Module

/-!
# Names that a module relies on

The code of a module refers to what it imports, to its list, to the failure that its functions
raise, and to the types that its annotations name. Names of tools and fields are never the first
three. The names of the types are not set aside, though: a tool or a field with such a name takes it
over, and every later annotation means the tool or field.

* `captured_iff`: which of the names a module or a model takes over, and when.
-/

namespace OntologyCompiler

open NameScope Python

namespace Python

/-- The types that annotations name without importing them. -/
def builtinTypes : List String :=
  ["str", "float", "int", "bool", "list", "dict"]

/-- The names that the code of a module refers to and does not make for a tool. -/
def reliedOn : List String :=
  builtinTypes ++ "NotImplementedError" :: ownNames

theorem reliedOn_cases : ∀ n ∈ reliedOn, n ∈ builtinTypes ∨ isSnake n = false := by
  rw [reliedOn, ownNames, importedNames_eq]
  decide +kernel

theorem reliedOn_unmarked : ∀ n ∈ reliedOn, ¬ modelMark <:+: n.toList := by
  rw [reliedOn, ownNames, importedNames_eq]
  decide +kernel

theorem builtinTypes_plain : ∀ n ∈ builtinTypes, '_' ∉ n.toList := by
  decide +kernel

/-- A name without an underscore has no number. -/
theorem eq_of_stems {candidate name : String} (h : Stems candidate "_" name)
    (hplain : '_' ∉ name.toList) : candidate = name := by
  rcases h with rfl | ⟨n, rfl⟩
  · rfl
  · exact absurd (underscore_mem_numbered candidate n) hplain

end Python

namespace PythonTool

/-- A tool takes over nothing but the name of a type, and that with its function. -/
theorem Settled.of_mem_names {t : PythonTool} (h : t.Settled) {n : String} (hn : n ∈ reliedOn)
    (hmem : n ∈ t.names) : n ∈ builtinTypes ∧ pythonIdentifier t.tool.name = n := by
  have htype : n ∈ builtinTypes := (reliedOn_cases n hn).resolve_right fun hsnake =>
    h.notMem_names hsnake (reliedOn_unmarked n hn) hmem
  have hplain := builtinTypes_plain n htype
  refine ⟨htype, ?_⟩
  rcases mem_names.mp hmem with rfl | rfl | rfl
  · exact eq_of_stems h.function hplain
  · exact absurd h.isModel.mark (reliedOn_unmarked _ hn)
  · exact absurd h.isHandle.underscore hplain

/-- **What a model takes over**: the names of types that its keys are written as. -/
theorem Settled.mem_fields_iff {t : PythonTool} (h : t.Settled) {n : String} (hn : n ∈ reliedOn) :
    n ∈ t.fields.map PythonField.name ↔ n ∈ builtinTypes ∧
      ∃ p ∈ t.tool.parameters.properties, pythonIdentifier p.1 = n := by
  constructor
  · intro hmem
    obtain ⟨f, hf, rfl⟩ := List.mem_map.mp hmem
    have htype : f.name ∈ builtinTypes := (reliedOn_cases _ hn).resolve_right fun hsnake =>
      absurd (h.isField hf).snake (by simp [hsnake])
    refine ⟨htype, (f.key, f.schema), ?_, eq_of_stems (h.fields f hf) (builtinTypes_plain _ htype)⟩
    rw [← h.properties]
    exact List.mem_map_of_mem hf
  · rintro ⟨htype, p, hp, rfl⟩
    rw [← h.properties] at hp
    obtain ⟨f, hf, rfl⟩ := List.mem_map.mp hp
    refine (h.reached f hf).resolve_right fun hconfig => ?_
    exact builtinTypes_plain _ htype (by rw [hconfig]; decide)

end PythonTool

/-- **What generated code takes over** of the names that it relies on: names of types only, by a
function just if a tool has such a name, and by a field just if a property of its tool has. -/
theorem captured_iff (tools : List Tool) {n : String} (hn : n ∈ reliedOn) :
    (n ∈ (PythonModule.ofTools tools).output.names ↔
      n ∈ builtinTypes ∧ ∃ tool ∈ tools, pythonIdentifier tool.name = n) ∧
    ∀ t ∈ (PythonModule.ofTools tools).output.tools, n ∈ t.fields.map PythonField.name ↔
      n ∈ builtinTypes ∧ ∃ p ∈ t.tool.parameters.properties, pythonIdentifier p.1 = n := by
  have hsettled := PythonModule.settled_bindTools ⟨.python, []⟩ tools
  have htools := PythonModule.bindTools_tools ⟨.python, []⟩ tools
  refine ⟨⟨fun hmem => ?_, ?_⟩, fun t ht => (hsettled t ht).mem_fields_iff hn⟩
  · obtain ⟨t, ht, hmem⟩ := List.mem_flatMap.mp hmem
    obtain ⟨htype, heq⟩ := (hsettled t ht).of_mem_names hn hmem
    exact ⟨htype, t.tool, htools ▸ List.mem_map_of_mem ht, heq⟩
  · rintro ⟨-, tool, htool, rfl⟩
    obtain ⟨_, hbinds, htaken⟩ := PythonModule.binds_names ⟨.python, []⟩ tools
    exact ((hbinds.taken _).mp (htaken tool htool)).resolve_right List.not_mem_nil

/-- An action with the name of a type. -/
def Scope.listing : Scope :=
  .object { name := "Order", actions := [.named "List"] }

/-- The function of the action takes over the type of the list that stands behind it. -/
theorem captured_listing : ∃ c, descriptors {} .listing = .ok c ∧
    "list" ∈ (PythonModule.ofTools c.output).output.names ∧
    (PythonModule.ofTools c.output).output.listText =
      "TOOLS: list[StructuredTool] = [\n    list_tool,\n]\n" := by
  have hc : ∃ c, descriptors {} .listing = .ok c := ⟨_, rfl⟩
  obtain ⟨c, hc⟩ := hc
  have heval : ((descriptors {} .listing).toOption.map fun c =>
      (c.output.map fun tool => pythonIdentifier tool.name,
        (PythonModule.ofTools c.output).output.listText)) =
      some (["list"], "TOOLS: list[StructuredTool] = [\n    list_tool,\n]\n") := by
    decide +kernel
  rw [hc] at heval
  obtain ⟨hname, hlist⟩ := Prod.mk.inj (Option.some.inj heval)
  have htool : ∃ tool ∈ c.output, pythonIdentifier tool.name = "list" := by
    rw [← List.mem_map, hname]
    exact List.mem_singleton_self _
  exact ⟨c, hc, (captured_iff c.output (n := "list") (by rw [reliedOn]; decide)).1.mpr
    ⟨by decide, htool⟩, hlist⟩

end OntologyCompiler
