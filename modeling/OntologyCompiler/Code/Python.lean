import OntologyCompiler.Code.NameScope
import OntologyCompiler.Tool.Descriptor

/-!
# Python modules

A module holds, for each tool, a model of its arguments, a function and the structured tool made of
both; `TOOLS` lists these. Names are written with underscores; keywords of the language get one at
the end.

* `PythonModule.ofTools`: the names of a module, settled tool by tool.
* `PythonModule.text`: its text.
-/

namespace OntologyCompiler

/-- The keywords of Python. -/
def pythonKeywords : List String :=
  ["False", "None", "True", "and", "as", "assert", "async", "await", "break", "class",
   "continue", "def", "del", "elif", "else", "except", "finally", "for", "from", "global",
   "if", "import", "in", "is", "lambda", "nonlocal", "not", "or", "pass", "raise", "return",
   "try", "while", "with", "yield"]

/-- Lower-case characters with underscores: before a capital that follows a small letter or digit,
and for every run of other characters. `underscored` says that an underscore was written last,
`small` that a small letter or digit was. -/
def snakeFrom : (underscored small : Bool) → List Char → List Char
  | _, _, [] => []
  | underscored, small, c :: cs =>
    if c.isUpper then
      (if small then ['_'] else []) ++ c.toLower :: snakeFrom false false cs
    else if c.isAlphanum then c :: snakeFrom false true cs
    else (if underscored then [] else ['_']) ++ snakeFrom true false cs

/-- The characters without underscores at either end. -/
def withoutUnderscores (cs : List Char) : List Char :=
  ((cs.dropWhile (· == '_')).reverse.dropWhile (· == '_')).reverse

/-- The identifier of a name. -/
def pythonIdentifier (name : String) : String :=
  let cs := withoutUnderscores (snakeFrom false false (Text.stripChars name.toList))
  let s := String.ofList cs
  match cs with
  | [] => "field"
  | c :: _ =>
    if c.isDigit then "field_" ++ s
    else if s ∈ pythonKeywords then s ++ "_"
    else s

/-- A field of a model: its name, the argument it stands for, and the schema of that. -/
structure PythonField where
  name : String
  key : String
  schema : Schema

/-- The names under which a tool appears in a module. -/
structure PythonTool where
  tool : Tool
  function : String
  model : String
  handle : String
  fields : List PythonField

/-- A module, settled up to its text. -/
structure PythonModule where
  tools : List PythonTool

namespace PythonTool

/-- Bind the fields of a model one after the other. -/
def bindFields (tool : Tool) : NameScope → List (String × Schema) → List PythonField × List Finding
  | _, [] => ([], [])
  | scope, (key, schema) :: rest =>
    let (name, found, scope) := scope.bind (pythonIdentifier key) "_" (tool.name ++ "." ++ key)
    let (fields, more) := bindFields tool scope rest
    (⟨name, key, schema⟩ :: fields, found ++ more)

/-- Settle the names of a tool. -/
def bind (scope : NameScope) (tool : Tool) : PythonTool × List Finding × NameScope :=
  let (function, found₁, scope) := scope.bind (pythonIdentifier tool.name) "_" tool.name
  let (model, found₂, scope) := scope.bind (argumentsName tool.name) "" tool.name
  let (handle, found₃, scope) := scope.bind (function ++ "_tool") "_" tool.name
  let (fields, found₄) := bindFields tool ⟨.python, ["model_config"]⟩ tool.parameters.properties
  (⟨tool, function, model, handle, fields⟩, found₁ ++ found₂ ++ found₃ ++ found₄, scope)

end PythonTool

namespace PythonModule

/-- Settle the names of tools one after the other. -/
def bindTools : NameScope → List Tool → List PythonTool × List Finding
  | _, [] => ([], [])
  | scope, tool :: rest =>
    let (t, found, scope) := PythonTool.bind scope tool
    let (ts, more) := bindTools scope rest
    (t :: ts, found ++ more)

/-- The module of tools, with what was found on the way. -/
def ofTools (tools : List Tool) : Compiled PythonModule :=
  let (ts, found) := bindTools ⟨.python, []⟩ tools
  ⟨⟨ts⟩, found⟩

end PythonModule

/-! ## Text -/

/-- The annotation of a schema. -/
def pythonType (s : Schema) : String :=
  match s.type with
  | some .string => "str"
  | some .number => "float"
  | some .integer => "int"
  | some .boolean => "bool"
  | some .array => "list"
  | some .object => "dict"
  | none => "Any"

namespace PythonField

/-- Whether the field has another name than its argument. -/
def isAliased (f : PythonField) : Bool :=
  f.name != f.key

/-- The annotation: optional unless the argument is required. -/
def annotation (f : PythonField) (required : Bool) : String :=
  if required then pythonType f.schema else "Optional[" ++ pythonType f.schema ++ "]"

/-- The value of a field that is not given. -/
def defaultValue (required : Bool) : String :=
  if required then "..." else "None"

/-- The line of a field. -/
def text (f : PythonField) (required : Bool) : String :=
  let arguments := [defaultValue required]
    ++ (if f.isAliased then ["alias=" ++ codeLiteral f.key] else [])
    ++ (f.schema.description.map fun d => "description=" ++ codeLiteral d).toList
  "    " ++ f.name ++ ": " ++ f.annotation required ++ " = Field(" ++ ", ".intercalate arguments
    ++ ")\n"

end PythonField

namespace PythonTool

/-- The model of the arguments. -/
def modelText (t : PythonTool) : String :=
  "class " ++ t.model ++ "(BaseModel):\n    \"\"\"Arguments for " ++ commentText t.tool.name
    ++ ".\"\"\"\n"
    ++ (if t.fields.any PythonField.isAliased then
      "\n    model_config = ConfigDict(populate_by_name=True)\n" else "")
    ++ (if t.fields.isEmpty then "" else "\n")
    ++ String.join (t.fields.map fun f => f.text (t.tool.parameters.isRequired f.key))

/-- The function. -/
def functionText (t : PythonTool) : String :=
  "def " ++ t.function ++ "(**kwargs: Any) -> dict:\n    " ++ codeLiteral t.tool.description
    ++ "\n    raise NotImplementedError("
    ++ codeLiteral (t.tool.name ++ " is served by " ++ t.tool.http.verb.name ++ " "
      ++ t.tool.http.path)
    ++ ")\n"

/-- The structured tool. -/
def handleText (t : PythonTool) : String :=
  t.handle ++ " = StructuredTool.from_function(\n    func=" ++ t.function ++ ",\n    name="
    ++ codeLiteral t.tool.name ++ ",\n    description=" ++ codeLiteral t.tool.description
    ++ ",\n    args_schema=" ++ t.model ++ ",\n)\n"

/-- Everything about a tool. -/
def text (t : PythonTool) : String :=
  "\n\n" ++ t.modelText ++ "\n\n" ++ t.functionText ++ "\n\n" ++ t.handleText

end PythonTool

namespace PythonModule

/-- What stands at the top of a module. -/
def header : String :=
  "\"\"\"LangChain tools generated from the ontology. Do not edit by hand.\"\"\"\n\n"
    ++ "from typing import Any, Optional\n\n"
    ++ "from langchain_core.tools import StructuredTool\n"
    ++ "from pydantic import BaseModel, ConfigDict, Field\n"

/-- The list of all tools. -/
def listText (m : PythonModule) : String :=
  if m.tools.isEmpty then "TOOLS: list[StructuredTool] = []\n"
  else
    "TOOLS: list[StructuredTool] = [\n"
      ++ String.join (m.tools.map fun t => "    " ++ t.handle ++ ",\n") ++ "]\n"

/-- The text of a module. -/
def text (m : PythonModule) : String :=
  header ++ String.join (m.tools.map PythonTool.text) ++ "\n\n" ++ m.listText

end PythonModule
end OntologyCompiler
