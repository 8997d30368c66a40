import OntologyCompiler.Text.Ascii

/-!
# Dialects of tool descriptions

The shapes in which agent runtimes expect their tools. Two of them have a place for governance.

* `Dialect.parse?_name`: a dialect is read from its name; one of them has a second name.
-/

namespace OntologyCompiler

/-- A shape of tool descriptions. -/
inductive Dialect where
  | openAi
  | langChain
  | claude
  | mcp
  | universal
  deriving DecidableEq, Inhabited

namespace Dialect

/-- Every dialect, in the order in which they are listed. -/
def all : List Dialect :=
  [openAi, langChain, claude, mcp, universal]

/-- The written name. -/
def name : Dialect → String
  | openAi => "openai"
  | langChain => "langchain"
  | claude => "claude"
  | mcp => "mcp"
  | universal => "universal"

/-- The name as a value of a document, its words apart. -/
def tag : Dialect → String
  | openAi => "open_ai"
  | langChain => "lang_chain"
  | d => d.name

/-- Whether the dialect has a place for governance. -/
def carriesGovernance : Dialect → Bool
  | langChain => true
  | universal => true
  | _ => false

/-- One line about the dialect. -/
def about : Dialect → String
  | openAi => "OpenAI function calling (type/function envelope)"
  | langChain => "LangChain tool with args_schema and metadata"
  | claude => "Anthropic tool use (input_schema)"
  | mcp => "Model Context Protocol tool (inputSchema/outputSchema)"
  | universal => "Dialect-neutral descriptor with HTTP binding"

/-- The dialect of a name, the case of its letters apart. -/
def parse? (s : String) : Option Dialect :=
  match Text.lowerAscii s with
  | "openai" => some openAi
  | "langchain" => some langChain
  | "claude" => some claude
  | "anthropic" => some claude
  | "mcp" => some mcp
  | "universal" => some universal
  | _ => none

theorem parse?_name (d : Dialect) : parse? d.name = some d := by
  cases d <;> decide +kernel

end Dialect
end OntologyCompiler
