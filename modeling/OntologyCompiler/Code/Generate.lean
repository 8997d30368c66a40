import OntologyCompiler.Code.Python
import OntologyCompiler.Code.TypeScript

/-!
# Generated code

* `generate`: the code of a scope in a target language, with the findings of planning before those
  of naming.
-/

namespace OntologyCompiler

namespace CodeTarget

/-- The module of tools in the target language. -/
def render (target : CodeTarget) (tools : List Tool) : Compiled String :=
  match target with
  | python =>
    let m := PythonModule.ofTools tools
    ⟨m.output.text, m.findings⟩
  | typescript =>
    let m := TypeScriptModule.ofTools tools
    ⟨m.output.text, m.findings⟩

end CodeTarget

/-- The code of a scope. -/
def generate (config : Config) (scope : Scope) (target : CodeTarget) :
    Except Failure (Compiled String) := do
  let compiled ← descriptors config scope
  let code := target.render compiled.output
  return ⟨code.output, compiled.findings ++ code.findings⟩

end OntologyCompiler
