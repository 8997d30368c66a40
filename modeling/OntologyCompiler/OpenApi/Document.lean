import OntologyCompiler.OpenApi.Operation

/-!
# Assembling a document

Planned actions are folded into a document one after the other. An operation at a path and method
that is taken replaces the one that stands there, or ends the assembly, as the policy says; a schema
of a name that is taken replaces the earlier one without a word.

* `assemble`: the document of a scope.
* `DocumentState.add_free`: adding at a free path and method finds nothing.
-/

namespace OntologyCompiler

/-- A document in the making. -/
structure DocumentState where
  paths : Ordered String PathItem := []
  schemas : Ordered String Schema := []
  /-- The label of the action that stands at a path and method. -/
  owners : Ordered (String × String) String := []
  secured : Bool := false
  findings : List Finding := []

namespace DocumentState

/-- The action at the path and method of a plan. -/
def owner? (d : DocumentState) (p : ActionPlan) : Option String :=
  Ordered.get? d.owners (p.path, p.verb.key)

/-- Put the operation and the schemas of a plan into the document. -/
def write (d : DocumentState) (p : ActionPlan) : DocumentState :=
  { d with
    paths := Ordered.change d.paths p.path [] fun item => Ordered.put item p.verb.key p.operation
    schemas := Ordered.putAll d.schemas p.schemas
    owners := Ordered.put d.owners (p.path, p.verb.key) p.label
    secured := d.secured || !p.operation.security.isEmpty }

/-- Add a planned action. -/
def add (d : DocumentState) (p : ActionPlan) (policy : CollisionPolicy) :
    Except Failure DocumentState :=
  match d.owner? p with
  | none => .ok (d.write p)
  | some first =>
    match policy with
    | .reject => .error (.operationCollision p.verb p.path first p.label)
    | _ =>
      .ok { d.write p with
        findings := d.findings ++ [.operationReplaced p.label first p.verb p.path] }

/-- Add planned actions one after the other. -/
def addAll (d : DocumentState) (ps : List ActionPlan) (policy : CollisionPolicy) :
    Except Failure DocumentState :=
  ps.foldlM (fun d p => d.add p policy) d

theorem add_free {d : DocumentState} {p : ActionPlan} (h : d.owner? p = none)
    (policy : CollisionPolicy) : d.add p policy = .ok (d.write p) := by
  simp [add, h]

/-- The scheme by which callers are authenticated. -/
def bearerScheme : SecurityScheme :=
  { type := "http", scheme := "bearer", bearerFormat := some "JWT" }

/-- The finished document. -/
def document (d : DocumentState) (info : Info) (servers : List Server) : OpenApi :=
  { openapi := "3.0.3"
    info := info
    servers := servers
    paths := d.paths
    components :=
      { schemas := d.schemas
        securitySchemes := if d.secured then [(OpenApi.schemeName, bearerScheme)] else [] } }

end DocumentState

namespace Config

/-- What a document says about itself. -/
def infoFor (c : Config) (ontology : Option Ontology) : Info :=
  { title := c.titleFor ontology, version := c.versionFor ontology, description := c.description }

/-- The configured servers. -/
def serverList (c : Config) : List Server :=
  c.servers.map fun url => { url := url }

end Config

/-- The document of a scope. -/
def assemble (config : Config) (scope : Scope) : Except Failure (Compiled OpenApi) := do
  let (plans, planner) ← (Planner.new config).planAll scope.actions
  let state ← ({} : DocumentState).addAll plans config.collisions
  return ⟨state.document (config.infoFor scope.ontology?) config.serverList,
    planner.findings ++ state.findings⟩

end OntologyCompiler
