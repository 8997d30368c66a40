import OntologyCompiler.Ontology.Basic
import OntologyCompiler.Reading.Medium

/-!
# Reading ontologies

The fields of each type under their written names, in the order in which a positional record gives
them. Names that are not known are passed over. Kinds of actions and levels of risk are read
leniently from any text.
-/

namespace OntologyCompiler

variable {ν : Type} {m : Type → Type} [Reads m] [Medium ν m]

namespace ActionKind

/-- A kind is read from a text; an unknown one is `traditional`. -/
def read (node : ν) : m ActionKind :=
  parse <$> Medium.text node

end ActionKind

namespace RiskLevel

/-- A level is read from a text; an unknown one is kept. -/
def read (node : ν) : m RiskLevel :=
  parse <$> Medium.text node

end RiskLevel

namespace ParameterKind

/-- A kind is read from its name; every other name is `other`. -/
def read : ν → m ParameterKind :=
  Reading.variantOr table other

end ParameterKind

namespace Verb

/-- A method is read from its name in upper case. -/
def read : ν → m Verb :=
  Reading.variant table

end Verb

namespace Parameter

/-- The fields of a parameter. -/
def fields : List (Field ν m Parameter) :=
  [.must "name" Medium.text fun r v => { r with name := v },
   (Field.plain "type" ParameterKind.read fun r v => { r with kind := v }).orNamed "kind",
   .plain "required" Medium.flag fun r v => { r with required := v },
   .plain "description" Medium.text fun r v => { r with description := v }]

/-- Read a parameter. -/
def read : ν → m Parameter :=
  Record.read "ActionParameter" fields {}

end Parameter

namespace BusinessLayer

/-- The fields of a business layer. -/
def fields : List (Field ν m BusinessLayer) :=
  [.plain "description" Medium.text fun r v => { r with description := v },
   .plain "targetObject" Medium.text fun r v => { r with targetObject := v },
   .plain "executorRole" Medium.text fun r v => { r with executorRole := v },
   .plain "triggerCondition" Medium.text fun r v => { r with triggerCondition := v }]

/-- Read a business layer. -/
def read : ν → m BusinessLayer :=
  Record.read "BusinessLayer" fields {}

end BusinessLayer

namespace LogicLayer

/-- The fields of a logic layer. -/
def fields : List (Field ν m LogicLayer) :=
  [.plain "preconditions" (Reading.list Medium.text) fun r v => { r with preconditions := v },
   .plain "parameters" (Reading.list Parameter.read) fun r v => { r with parameters := v },
   .plain "postconditions" (Reading.list Medium.text) fun r v => { r with postconditions := v },
   .plain "sideEffects" (Reading.list Medium.text) fun r v => { r with sideEffects := v }]

/-- Read a logic layer. -/
def read : ν → m LogicLayer :=
  Record.read "LogicLayer" fields {}

end LogicLayer

namespace ToolSpec

/-- The fields of an authored tool. -/
def fields : List (Field ν m ToolSpec) :=
  [.plain "name" Medium.text fun r v => { r with name := v },
   .plain "description" Medium.text fun r v => { r with description := v },
   .plain "parameters" (Reading.optional Medium.free) fun r v => { r with parameters := v }]

/-- Read an authored tool. -/
def read : ν → m ToolSpec :=
  Record.read "AgentToolSpec" fields {}

end ToolSpec

namespace ImplementationLayer

/-- The fields of an implementation layer. -/
def fields : List (Field ν m ImplementationLayer) :=
  [.plain "apiEndpoint" (Reading.optional Medium.text) fun r v => { r with endpoint := v },
   .plain "apiMethod" (Reading.optional Medium.text) fun r v => { r with method := v },
   .plain "requestPayload" (Reading.optional Medium.free) fun r v => { r with payload := v },
   .plain "agentToolSpec" (Reading.optional ToolSpec.read) fun r v => { r with tool := v }]

/-- Read an implementation layer. -/
def read : ν → m ImplementationLayer :=
  Record.read "ImplementationLayer" fields {}

end ImplementationLayer

namespace Governance

/-- The fields of a governance record. -/
def fields : List (Field ν m Governance) :=
  [.plain "permissionTier" Medium.byte fun r v => { r with tier := v },
   .plain "requiresHumanApproval" Medium.flag fun r v => { r with needsApproval := v },
   .plain "auditLog" Medium.flag fun r v => { r with auditLog := v },
   .plain "riskLevel" RiskLevel.read fun r v => { r with risk := v }]

/-- Read a governance record. -/
def read : ν → m Governance :=
  Record.read "Governance" fields {}

end Governance

namespace Action

/-- The fields of an action. -/
def fields : List (Field ν m Action) :=
  [.plain "id" (Reading.optional Medium.text) fun r v => { r with id := v },
   .must "name" Medium.text fun r v => { r with name := v },
   (Field.plain "type" ActionKind.read fun r v => { r with kind := v }).orNamed "kind",
   .plain "description" Medium.text fun r v => { r with description := v },
   .plain "businessLayer" (Reading.optional BusinessLayer.read) fun r v => { r with business := v },
   .plain "logicLayer" (Reading.optional LogicLayer.read) fun r v => { r with logic := v },
   .plain "implementationLayer" (Reading.optional ImplementationLayer.read)
    fun r v => { r with implementation := v },
   .plain "governance" (Reading.optional Governance.read) fun r v => { r with governance := v }]

/-- Read an action. -/
def read : ν → m Action :=
  Record.read "Action" fields {}

end Action

namespace Property

/-- The fields of a property. -/
def fields : List (Field ν m Property) :=
  [.must "name" Medium.text fun r v => { r with name := v },
   .plain "type" Medium.text fun r v => { r with kind := v },
   .plain "description" Medium.text fun r v => { r with description := v },
   .plain "primaryKey" Medium.flag fun r v => { r with primaryKey := v },
   .plain "required" Medium.flag fun r v => { r with required := v }]

/-- Read a property. -/
def read : ν → m Property :=
  Record.read "Property" fields {}

end Property

namespace Entity

/-- The fields of an object. -/
def fields : List (Field ν m Entity) :=
  [.plain "id" Medium.text fun r v => { r with id := v },
   .must "name" Medium.text fun r v => { r with name := v },
   .plain "description" Medium.text fun r v => { r with description := v },
   .plain "properties" (Reading.list Property.read) fun r v => { r with properties := v },
   .plain "actions" (Reading.list Action.read) fun r v => { r with actions := v }]

/-- Read an object. -/
def read : ν → m Entity :=
  Record.read "OntologyObject" fields {}

end Entity

namespace Ontology

/-- The fields of an ontology. -/
def fields : List (Field ν m Ontology) :=
  [.plain "name" (Reading.optional Medium.text) fun r v => { r with name := v },
   .plain "version" (Reading.optional Medium.text) fun r v => { r with version := v },
   .plain "objects" (Reading.list Entity.read) fun r v => { r with objects := v }]

/-- Read an ontology. -/
def read : ν → m Ontology :=
  Record.read "Ontology" fields {}

end Ontology
end OntologyCompiler
