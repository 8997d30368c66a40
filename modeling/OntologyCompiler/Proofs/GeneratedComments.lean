import OntologyCompiler.Code.Generate
import OntologyCompiler.Proofs.Python.Docstring
import OntologyCompiler.Proofs.TypeScript.Comment
import OntologyCompiler.Rendering

/-!
# The comments of generated code

Names and descriptions of tools stand in the comments of generated code. A docstring holds them
whatever they are. A comment of an interface is closed early by a text that has a star before a
backslash, as the description of a path may: the backslash becomes a slash after the ends of
comments were taken apart.

* `comments_found_iff`: when a reader finds the comments of generated code as they were meant.
-/

namespace OntologyCompiler

open Lexis

/-- **The comments of generated code.** A text for a comment has no double quote and no backslash,
and holds the end of a comment just if it was made of one with a star before a backslash. A reader
finds the docstrings of a Python module whatever its tools are called. It finds the comments of a
TypeScript module just if no name of a tool and no description of an argument has a star before a
backslash. -/
theorem comments_found_iff (tools : List Tool) :
    (∀ s : String, (∀ c ∈ (commentText s).toList, c ≠ '"' ∧ c ≠ '\\') ∧
      (['*', '/'] <:+: (commentText s).toList ↔ ['*', '\\'] <:+: s.toList)) ∧
    python.comments (CodeTarget.python.render tools).output =
      PythonModule.docstring :: tools.map Tool.docstring ∧
    (typeScript.comments (CodeTarget.typescript.render tools).output =
        tools.flatMap Tool.interfaceComments ↔
      ∀ tool ∈ tools, ¬ ['*', '\\'] <:+: tool.name.toList ∧
        ∀ p ∈ tool.parameters.properties, ∀ d ∈ p.2.description,
          ¬ ['*', '\\'] <:+: d.toList) := by
  refine ⟨fun s => ⟨commentText_plain s, closes_commentText s⟩, ?_, ?_⟩
  · have htools := PythonModule.bindTools_tools ⟨.python, []⟩ tools
    have hfound := PythonModule.docstrings_text (m := (PythonModule.ofTools tools).output)
      (PythonModule.settled_bindTools ⟨.python, []⟩ tools)
    have hmap : (PythonModule.ofTools tools).output.tools.map (fun t => t.tool.docstring) =
        tools.map Tool.docstring := by
      conv_rhs => rw [← htools, List.map_map]
      rfl
    rw [← hmap]
    exact hfound
  · have hfound := TypeScriptModule.comments_text_iff (m := (TypeScriptModule.ofTools tools).output)
      (TypeScriptModule.isWord_typeName ⟨.typescript, []⟩ tools)
    rw [TypeScriptModule.comments_ofTools, List.forall_mem_flatMap] at hfound
    exact hfound.trans (forall₂_congr fun tool _ => tool.interfaceComments_iff)

/-- An action with a path in the description of its parameter. -/
def Scope.sweeping : Scope :=
  .object { name := "Disk", actions := [{ name := "Sweep", logic := some {
    parameters := [{ name := "folder", description := "Folder, such as C:\\*\\logs" }] } }] }

/-- The comment of the parameter is closed in the middle of the path. -/
theorem comments_found_sweeping : ∃ c, descriptors {} .sweeping = .ok c ∧
    c.output.flatMap Tool.interfaceComments =
      ["* Arguments for \x60sweep\x60. ", "* Folder, such as C:/*/logs "] ∧
    typeScript.comments (CodeTarget.typescript.render c.output).output ≠
      c.output.flatMap Tool.interfaceComments := by
  have hc : ∃ c, descriptors {} .sweeping = .ok c := ⟨_, rfl⟩
  obtain ⟨c, hc⟩ := hc
  have heval : ((descriptors {} .sweeping).toOption.map fun c =>
      (c.output.flatMap Tool.interfaceComments, c.output.map fun tool =>
        tool.parameters.properties.map fun p => p.2.description)) =
      some (["* Arguments for \x60sweep\x60. ", "* Folder, such as C:/*/logs "],
        [[some "Folder, such as C:\\*\\logs"]]) := by
    decide +kernel
  rw [hc] at heval
  obtain ⟨hcomments, hdescriptions⟩ := Prod.mk.inj (Option.some.inj heval)
  obtain ⟨tool, htool, hproperties⟩ := List.mem_map.mp
    (hdescriptions ▸ List.mem_singleton_self _)
  obtain ⟨p, hp, hd⟩ := List.mem_map.mp (hproperties ▸ List.mem_singleton_self _)
  refine ⟨c, hc, hcomments, fun hfound => ?_⟩
  have hsafe := ((comments_found_iff c.output).2.2.mp hfound tool htool).2 p hp _ hd
  exact hsafe (by decide +kernel)

end OntologyCompiler
