import OntologyCompiler.Text.Ascii
import OntologyCompiler.Text.Blank

/-!
# The closed vocabularies of an ontology

Kinds of actions and parameters, levels of risk and HTTP methods, each with its written name and the
lenient reading of names. Blanks around a name and the case of its letters do not matter.

* `ActionKind.parse?_name`, `Verb.parse?_name`: a written name is read as what it names.
* `RiskLevel.parse_text_of_known`: so is the text of a known level.
-/

namespace OntologyCompiler

/-- How an action is carried out. -/
inductive ActionKind where
  | traditional
  | generative
  deriving DecidableEq, Inhabited

namespace ActionKind

/-- The written name. -/
def name : ActionKind → String
  | traditional => "traditional"
  | generative => "generative"

/-- The kind of a name; none for a name outside the known set. -/
def parse? (s : String) : Option ActionKind :=
  match Text.lowerAscii (Text.strip s) with
  | "traditional" => some traditional
  | "generative" => some generative
  | _ => none

/-- The kind of a name, where an unknown name stands for `traditional`. -/
def parse (s : String) : ActionKind :=
  (parse? s).getD traditional

theorem parse?_name (k : ActionKind) : parse? k.name = some k := by
  cases k <;> decide +kernel

end ActionKind

/-- The declared kind of a parameter. -/
inductive ParameterKind where
  | string
  | number
  | boolean
  | date
  | object
  | array
  | other
  deriving DecidableEq, Inhabited

namespace ParameterKind

/-- The kinds that are written by their own names. -/
def known : List ParameterKind :=
  [string, number, boolean, date, object, array]

/-- The written name. -/
def name : ParameterKind → String
  | string => "string"
  | number => "number"
  | boolean => "boolean"
  | date => "date"
  | object => "object"
  | array => "array"
  | other => "other"

/-- The known kinds by name. -/
def table : List (String × ParameterKind) :=
  known.map fun k => (k.name, k)

end ParameterKind

/-- How much is at stake when an action is run. -/
inductive RiskLevel where
  | low
  | medium
  | high
  | critical
  | other (text : String)
  deriving DecidableEq, Inhabited

namespace RiskLevel

/-- The written level. -/
def text : RiskLevel → String
  | low => "low"
  | medium => "medium"
  | high => "high"
  | critical => "critical"
  | other s => s

/-- The level of a text: nothing stands for `low`, and an unknown level is kept. -/
def parse (s : String) : RiskLevel :=
  let t := Text.strip s
  match Text.lowerAscii t with
  | "" => low
  | "low" => low
  | "medium" => medium
  | "high" => high
  | "critical" => critical
  | _ => other t

theorem parse_text_of_known : ∀ r ∈ [low, medium, high, critical], parse r.text = r := by
  decide +kernel

end RiskLevel

/-- A method of HTTP. -/
inductive Verb where
  | get
  | post
  | put
  | patch
  | delete
  | head
  | options
  deriving DecidableEq

instance : Inhabited Verb := ⟨.post⟩

namespace Verb

/-- Every method. -/
def all : List Verb :=
  [get, post, put, patch, delete, head, options]

/-- The name on the request line. -/
def name : Verb → String
  | get => "GET"
  | post => "POST"
  | put => "PUT"
  | patch => "PATCH"
  | delete => "DELETE"
  | head => "HEAD"
  | options => "OPTIONS"

/-- The name as a key of a path item. -/
def key : Verb → String
  | get => "get"
  | post => "post"
  | put => "put"
  | patch => "patch"
  | delete => "delete"
  | head => "head"
  | options => "options"

/-- Methods whose requests have no body. -/
def isRead : Verb → Bool
  | get => true
  | head => true
  | delete => true
  | options => true
  | post => false
  | put => false
  | patch => false

/-- The methods by name. -/
def table : List (String × Verb) :=
  all.map fun v => (v.name, v)

/-- The method of a name. -/
def parse? (s : String) : Option Verb :=
  table.lookup (Text.upperAscii (Text.strip s))

theorem parse?_name (v : Verb) : parse? v.name = some v := by
  cases v <;> decide +kernel

theorem parse?_key (v : Verb) : parse? v.key = some v := by
  cases v <;> decide +kernel

end Verb
end OntologyCompiler
