import OntologyCompiler.Json.Printer
import OntologyCompiler.Ontology.Basic

/-!
# Ontologies as JSON

Each type as a JSON object under the names by which it is read. Parts that are absent are left out;
everything else is written, also where it is empty or has its usual value.
-/

namespace OntologyCompiler

open Json (always whenSome)

/-- A number of one byte as a value. -/
def Json.ofByte (n : UInt8) : Json :=
  .ofNat n.toNat

/-- A kind of action as a value. -/
def ActionKind.toJson (k : ActionKind) : Json :=
  .str k.name

/-- A kind of parameter as a value. -/
def ParameterKind.toJson (k : ParameterKind) : Json :=
  .str k.name

/-- A level of risk as a value. -/
def RiskLevel.toJson (r : RiskLevel) : Json :=
  .str r.text

/-- A method as a value. -/
def Verb.toJson (v : Verb) : Json :=
  .str v.name

/-- A parameter as an object. -/
def Parameter.toJson (p : Parameter) : Json :=
  .record [always "name" (.str p.name), always "type" p.kind.toJson,
    always "required" (.bool p.required), always "description" (.str p.description)]

/-- A business layer as an object. -/
def BusinessLayer.toJson (b : BusinessLayer) : Json :=
  .record [always "description" (.str b.description), always "targetObject" (.str b.targetObject),
    always "executorRole" (.str b.executorRole),
    always "triggerCondition" (.str b.triggerCondition)]

/-- A logic layer as an object. -/
def LogicLayer.toJson (l : LogicLayer) : Json :=
  .record [always "preconditions" (.ofStrings l.preconditions),
    always "parameters" (.arr (l.parameters.map Parameter.toJson)),
    always "postconditions" (.ofStrings l.postconditions),
    always "sideEffects" (.ofStrings l.sideEffects)]

/-- An authored tool as an object. -/
def ToolSpec.toJson (t : ToolSpec) : Json :=
  .record [always "name" (.str t.name), always "description" (.str t.description),
    whenSome "parameters" t.parameters id]

/-- An implementation layer as an object. -/
def ImplementationLayer.toJson (i : ImplementationLayer) : Json :=
  .record [whenSome "apiEndpoint" i.endpoint .str, whenSome "apiMethod" i.method .str,
    whenSome "requestPayload" i.payload id, whenSome "agentToolSpec" i.tool ToolSpec.toJson]

/-- A governance record as an object. -/
def Governance.toJson (g : Governance) : Json :=
  .record [always "permissionTier" (.ofByte g.tier),
    always "requiresHumanApproval" (.bool g.needsApproval), always "auditLog" (.bool g.auditLog),
    always "riskLevel" g.risk.toJson]

/-- An action as an object. -/
def Action.toJson (a : Action) : Json :=
  .record [whenSome "id" a.id .str, always "name" (.str a.name), always "type" a.kind.toJson,
    always "description" (.str a.description),
    whenSome "businessLayer" a.business BusinessLayer.toJson,
    whenSome "logicLayer" a.logic LogicLayer.toJson,
    whenSome "implementationLayer" a.implementation ImplementationLayer.toJson,
    whenSome "governance" a.governance Governance.toJson]

/-- A property as an object. -/
def Property.toJson (p : Property) : Json :=
  .record [always "name" (.str p.name), always "type" (.str p.kind),
    always "description" (.str p.description), always "primaryKey" (.bool p.primaryKey),
    always "required" (.bool p.required)]

/-- An object of an ontology as a JSON object. -/
def Entity.toJson (o : Entity) : Json :=
  .record [always "id" (.str o.id), always "name" (.str o.name),
    always "description" (.str o.description),
    always "properties" (.arr (o.properties.map Property.toJson)),
    always "actions" (.arr (o.actions.map Action.toJson))]

/-- An ontology as an object. -/
def Ontology.toJson (o : Ontology) : Json :=
  .record [whenSome "name" o.name .str, whenSome "version" o.version .str,
    always "objects" (.arr (o.objects.map Entity.toJson))]

end OntologyCompiler
