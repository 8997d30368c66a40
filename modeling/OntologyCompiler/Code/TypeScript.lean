import OntologyCompiler.Code.NameScope
import OntologyCompiler.Text.Lines
import OntologyCompiler.Tool.Rendering

/-!
# TypeScript modules

A module declares the arguments of each tool as an interface, and all tools as one array in the
shape of function tools; each item of the array is the JSON text of the tool, moved to the right and
followed by a comma.

* `TypeScriptModule.ofTools`: the names of a module, settled tool by tool.
* `TypeScriptModule.text`: its text.
-/

namespace OntologyCompiler

/-- The name under which the arguments of a tool appear. -/
structure TypeScriptTool where
  tool : Tool
  typeName : String

/-- A module, settled up to its text. -/
structure TypeScriptModule where
  tools : List TypeScriptTool

namespace TypeScriptModule

/-- Settle the names of tools one after the other. -/
def bindTools : NameScope → List Tool → List TypeScriptTool × List Finding
  | _, [] => ([], [])
  | scope, tool :: rest =>
    let (typeName, found, scope) := scope.bind (argumentsName tool.name) "" tool.name
    let (ts, more) := bindTools scope rest
    (⟨tool, typeName⟩ :: ts, found ++ more)

/-- The module of tools, with what was found on the way. -/
def ofTools (tools : List Tool) : Compiled TypeScriptModule :=
  let (ts, found) := bindTools ⟨.typescript, []⟩ tools
  ⟨⟨ts⟩, found⟩

end TypeScriptModule

/-! ## Text -/

mutual

/-- The type of a schema. -/
def typeScriptType : Schema → String
  | ⟨type, _, _, _, _, _, items, _, _⟩ =>
    match type with
    | some .string => "string"
    | some .number => "number"
    | some .integer => "number"
    | some .boolean => "boolean"
    | some .array => itemType items ++ "[]"
    | some .object => "Record<string, unknown>"
    | none => "unknown"

/-- The type of the items of a list. -/
def itemType : Option Schema → String
  | some s => typeScriptType s
  | none => "unknown"

end

/-- Whether a key may stand without quotes. -/
def isPlainKey : List Char → Bool
  | [] => false
  | c :: cs =>
    (c.isAlpha || c == '_' || c == '$') && cs.all fun d => d.isAlphanum || d == '_' || d == '$'

/-- A key of an interface. -/
def typeScriptKey (name : String) : String :=
  if isPlainKey name.toList then name else codeLiteral name

/-- A text with every line moved to the right by two blanks. -/
def indented (s : String) : String :=
  String.ofList (Json.joined ['\n'] ((Text.lines s.toList).map fun l => ' ' :: ' ' :: l))

namespace TypeScriptTool

/-- The member of one argument. -/
def memberText (t : TypeScriptTool) (name : String) (s : Schema) : String :=
  (match s.description with
    | some d => "  /** " ++ commentText d ++ " */\n"
    | none => "")
    ++ "  " ++ typeScriptKey name ++ (if t.tool.parameters.isRequired name then "" else "?") ++ ": "
    ++ typeScriptType s ++ ";\n"

/-- The declaration of the arguments. -/
def text (t : TypeScriptTool) : String :=
  "\n/** Arguments for \x60" ++ commentText t.tool.name ++ "\x60. */\n"
    ++ if t.tool.parameters.properties.isEmpty then
      "export type " ++ t.typeName ++ " = Record<string, never>;\n"
    else
      "export interface " ++ t.typeName ++ " \x7b\n"
        ++ String.join (t.tool.parameters.properties.map fun p => t.memberText p.1 p.2) ++ "\x7d\n"

/-- The text of a tool in the array. -/
def itemText (t : TypeScriptTool) : String :=
  indented (t.tool.render .openAi).toJson.pretty

end TypeScriptTool

namespace TypeScriptModule

/-- What stands at the top of a module. -/
def header : String :=
  "// OpenAI tools generated from the ontology. Do not edit by hand.\n"
    ++ "import type \x7b ChatCompletionTool \x7d from \"openai/resources/chat/completions\";\n"

/-- The array of all tools, between its brackets. -/
def arrayText (m : TypeScriptModule) : String :=
  if m.tools.isEmpty then "[]"
  else
    "[\n" ++ String.join (m.tools.map fun t => t.itemText ++ ",\n") ++ "]"

/-- The type of the names of all tools. -/
def namesText (m : TypeScriptModule) : String :=
  if m.tools.isEmpty then "never"
  else " | ".intercalate (m.tools.map fun t => codeLiteral t.tool.name)

/-- The text of a module. -/
def text (m : TypeScriptModule) : String :=
  header ++ String.join (m.tools.map TypeScriptTool.text)
    ++ "\nexport const tools: ChatCompletionTool[] = " ++ m.arrayText ++ ";\n"
    ++ "\nexport type ToolName = " ++ m.namesText ++ ";\n"

end TypeScriptModule
end OntologyCompiler
