import OntologyCompiler.Proofs.Pipelines
import OntologyCompiler.Proofs.Python.Module
import OntologyCompiler.Proofs.RequestSchema
import OntologyCompiler.Proofs.TypeScript.Statements
import OntologyCompiler.Proofs.Vocabularies
import OntologyCompiler.Tool.Rendering

/-!
# Required arguments stay required

Whether an argument is required is settled by the declared parameters alone, and everything that is
made of the action says so: the envelope of its tool in every dialect, the field of its model, the
member of its interface, and the request schema of its operation. The outputs are read as they
stand, and generated code line by line; a reader of interfaces is told the comments between them.

* `at?_envelope`: what a dialect shows as required.
* `filter_lines`: of lines that are about different things, one is about each.
* `PythonModule.exists_fieldLine`, `TypeScriptModule.exists_memberLine`: the line of a property in
  generated code.
* `ToolRun.arguments`: tools have the arguments of their actions.
* `required_survives`: all outputs agree with the parameters.
-/

namespace OntologyCompiler

/-! ## Dialects -/

/-- The value at the end of a path of members. -/
def Json.at? (v : Json) (path : List String) : Option Json :=
  path.foldlM Json.member? v

/-- Where a dialect shows the arguments of a tool. -/
def Dialect.envelope : Dialect → List String
  | openAi => ["function", "parameters"]
  | langChain => ["args_schema"]
  | claude => ["input_schema"]
  | mcp => ["inputSchema"]
  | universal => ["parameters"]

/-- **Every dialect shows the required arguments** of the tool. -/
theorem at?_envelope (t : Tool) (d : Dialect) :
    (t.render d).toJson.at? (d.envelope ++ ["required"]) =
      some (.ofStrings t.parameters.required) := by
  cases d <;> simp [Json.at?, Dialect.envelope, Tool.render, RenderedTool.toJson, Json.member?,
    Json.record, Json.always, Ordered.get?, ParameterSchema.toJson]

/-! ## Tools -/

/-- **The tools of a run** have the arguments of the actions, one by one. -/
theorem Planner.ToolRun.arguments {p q : Planner} {as : List (String × Action)}
    {log : List (ActionPlan × Claim String)} (h : Planner.ToolRun p as log q) :
    (log.map Planner.describe).map Tool.parameters = as.map fun e => e.2.arguments := by
  have hactions := congrArg (List.map Action.arguments) (Planner.planAll_actions h.planAll)
  rw [List.map_map, List.map_map, List.map_map] at hactions
  rw [List.map_map]
  exact hactions

theorem exists_tool {config : Config} {scope : Scope} {c : Compiled (List Tool)}
    (hc : descriptors config scope = .ok c) {i : Nat} {object : String} {a : Action}
    (ha : scope.actions[i]? = some (object, a)) :
    ∃ t, c.output[i]? = some t ∧ t.parameters = a.arguments := by
  unfold descriptors at hc
  simp only [bind_eq_ok_iff, Prod.exists] at hc
  obtain ⟨tools, planner, hrun, hc⟩ := hc
  obtain rfl := Except.ok.inj hc
  obtain ⟨log, hlog, rfl⟩ := Planner.planTools_eq_ok_iff.mp hrun
  have hi := congrArg (fun l : List ParameterSchema => l[i]?) hlog.arguments
  simp only [List.getElem?_map, ha, Option.map_some] at hi
  simpa using hi

theorem exists_code {config : Config} {scope : Scope} {c : Compiled (List Tool)}
    (hc : descriptors config scope = .ok c) (target : CodeTarget) :
    ∃ code, generate config scope target = .ok code ∧
      code.output = (target.render c.output).output := by
  have hcode : generate config scope target = .ok ⟨(target.render c.output).output,
      c.findings ++ (target.render c.output).findings⟩ := by
    rw [generate, hc]
    rfl
  exact ⟨_, hcode, rfl⟩

/-! ## Lines of generated code -/

/-- Of lines that are about different things, one is about each. -/
theorem filter_lines {α : Type} (key : α → String) {line : α → List Char}
    {shown : List Char → Option String} {x : α} : ∀ {xs : List α},
    (∀ y ∈ xs, shown (line y) = some (key y)) → (xs.map key).Nodup → x ∈ xs →
    (xs.map line).filter (shown · = some (key x)) = [line x]
  | [], _, _, hx => absurd hx List.not_mem_nil
  | y :: ys, hshown, hnodup, hx => by
    obtain ⟨hy, hys⟩ := List.forall_mem_cons.mp hshown
    obtain ⟨hnew, hnodup⟩ := List.nodup_cons.mp hnodup
    rcases List.mem_cons.mp hx with rfl | hx
    · have hnone : (ys.map line).filter (shown · = some (key x)) = [] := by
        refine List.filter_eq_nil_iff.mpr (List.forall_mem_map.mpr fun z hz heq => hnew ?_)
        rw [decide_eq_true_iff, hys z hz] at heq
        exact Option.some.inj heq ▸ List.mem_map_of_mem hz
      rw [List.map_cons, List.filter_cons_of_pos (by simpa using hy), hnone]
    · have hne : ¬ shown (line y) = some (key x) := by
        rw [hy]
        exact fun heq => hnew (Option.some.inj heq ▸ List.mem_map_of_mem hx)
      rw [List.map_cons, List.filter_cons_of_neg (by simpa using hne)]
      exact filter_lines key hys hnodup hx

/-- **The line of a property in a model**: there is one, and it says whether the property is
required. -/
theorem PythonModule.exists_fieldLine {tools : List Tool} {i : Nat} {t : Tool}
    (ht : tools[i]? = some t) (hnodup : (Ordered.keys t.parameters.properties).Nodup)
    {name : String} (hname : name ∈ Ordered.keys t.parameters.properties) :
    ∃ model line, (Python.models (CodeTarget.python.render tools).output)[i]? = some model ∧
      model.fields.filter (PythonField.wireName? · = some name) = [line] ∧
      (PythonField.MustBeGiven line ↔ t.parameters.isRequired name = true) ∧
      (PythonField.MayBeLeftOut line ↔ t.parameters.isRequired name = false) := by
  have hsettled : ∀ t ∈ (ofTools tools).output.tools, t.Settled := settled_bindTools _ tools
  have hmodels : Python.models (CodeTarget.python.render tools).output = _ := models_text hsettled
  have htools : (ofTools tools).output.tools.map PythonTool.tool = tools := bindTools_tools _ tools
  rw [← htools, List.getElem?_map, Option.map_eq_some_iff] at ht
  obtain ⟨pt, hpt, rfl⟩ := ht
  have hpt' : pt.Settled := hsettled pt (List.mem_of_getElem? hpt)
  have hkeys : pt.fields.map PythonField.key = Ordered.keys pt.tool.parameters.properties := by
    rw [← hpt'.properties, Ordered.keys, List.map_map]
    rfl
  rw [← hkeys] at hnodup hname
  obtain ⟨f, hf, rfl⟩ := List.mem_map.mp hname
  have hword := (hpt'.isField hf).isLegal.word
  refine ⟨pt.shownModel, pt.fieldLine f, ?_, ?_, PythonField.mustBeGiven_line hword _,
    PythonField.mayBeLeftOut_line hword _⟩
  · rw [hmodels, List.getElem?_map, hpt, Option.map_some]
  · exact filter_lines PythonField.key
      (fun g hg => PythonField.wireName?_line (hpt'.isField hg).isLegal.word _) hnodup hf

/-- **The line of a property in an interface**: there is one, and it has a question mark unless the
property is required. -/
theorem TypeScriptModule.exists_memberLine {tools : List Tool} {i : Nat} {t : Tool}
    (ht : tools[i]? = some t) (hnodup : (Ordered.keys t.parameters.properties).Nodup)
    {name : String} (hname : name ∈ Ordered.keys t.parameters.properties) :
    ∃ members line, (TypeScript.interfaces (tools.flatMap Tool.interfaceComments)
        (CodeTarget.typescript.render tools).output)[i]? = some members ∧
      members.filter (memberKey? · = some name) = [line] ∧
      marksOptional line = !t.parameters.isRequired name := by
  have hread : TypeScript.interfaces (ofTools tools).output.comments
      (CodeTarget.typescript.render tools).output = _ := interfaces_text (isWord_typeName _ tools)
  rw [comments_ofTools] at hread
  have htools : (ofTools tools).output.tools.map TypeScriptTool.tool = tools :=
    bindTools_tools _ tools
  rw [← htools, List.getElem?_map, Option.map_eq_some_iff] at ht
  obtain ⟨tt, htt, rfl⟩ := ht
  obtain ⟨p, hp, rfl⟩ := List.mem_map.mp hname
  refine ⟨tt.memberLines, tt.memberLine p.1 p.2, ?_, ?_, tt.marksOptional_line p.1 p.2⟩
  · rw [hread, List.getElem?_map, htt, Option.map_some]
  · exact filter_lines Prod.fst (fun q _ => tt.memberKey?_line q.1 q.2) hnodup hp

/-! ## All outputs -/

/-- Everything that is made of an action of a scope, the `i`-th of them, says of a property that it
is required just if some parameter demands it. The tools are those of the scope. -/
structure Agreed (config : Config) (scope : Scope) (tools : List Tool) (i : Nat) (a : Action)
    (name : String) : Prop where
  /-- The envelope of the tool in every dialect. -/
  envelopes : ∀ d : Dialect, ∃ c r names, emit config scope d = .ok c ∧ c.output[i]? = some r ∧
    r.toJson.at? (d.envelope ++ ["required"]) = some (.ofStrings names) ∧
    (name ∈ names ↔ a.Demands name)
  /-- The line of the one field that stands for the property, in the model of the action. -/
  field : ∃ code model line, generate config scope .python = .ok code ∧
    (Python.models code.output)[i]? = some model ∧
    model.fields.filter (PythonField.wireName? · = some name) = [line] ∧
    (PythonField.MustBeGiven line ↔ a.Demands name) ∧
    (PythonField.MayBeLeftOut line ↔ ¬ a.Demands name)
  /-- The line of the one member that stands for it, in the interface of the action. -/
  member : ∃ code members line, generate config scope .typescript = .ok code ∧
    (TypeScript.interfaces (tools.flatMap Tool.interfaceComments) code.output)[i]? = some members ∧
    members.filter (memberKey? · = some name) = [line] ∧
    (marksOptional line = false ↔ a.Demands name)
  /-- The request schema of the operation, where the method has a body. -/
  operation : ∀ plan : ActionPlan, plan.action = a → plan.verb.isRead = false →
    ∃ r, plan.bodySchema = some r ∧ (plan.identity.requestSchema, r) ∈ plan.schemas ∧
      (name ∈ r.required ↔ a.Demands name)

/-- **Required arguments stay required**, and no other argument becomes so. -/
theorem required_survives {config : Config} {scope : Scope} {c : Compiled (List Tool)}
    (hc : descriptors config scope = .ok c) {i : Nat} {object : String} {a : Action}
    (ha : scope.actions[i]? = some (object, a)) {s : Schema}
    (hs : a.requestSchema .jsonSchema = some s) {name : String}
    (hname : name ∈ Ordered.keys s.properties) (hne : name ≠ "") :
    Agreed config scope c.output i a name := by
  obtain ⟨t, ht, hargs⟩ := exists_tool hc ha
  obtain ⟨-, rfl⟩ := Action.requestSchema_eq_some_iff.mp hs
  have hparameters : t.parameters = .ofSchema (a.requestShape .jsonSchema) :=
    hargs.trans (Action.arguments_of_schema hs)
  have hproperties : t.parameters.properties = (a.requestShape .jsonSchema).properties := by
    rw [hparameters]
    rfl
  have hnodup : (Ordered.keys t.parameters.properties).Nodup := by
    rw [hproperties]
    exact a.nodup_keys_requestShape _
  have hrequired : name ∈ t.parameters.required ↔ a.Demands name := by
    rw [hparameters]
    exact Action.mem_required_requestShape hne
  have hflag : t.parameters.isRequired name = true ↔ a.Demands name := by
    rw [← hrequired, ParameterSchema.isRequired, List.contains_iff_mem]
  rw [← hproperties] at hname
  refine ⟨fun d => ?_, ?_, ?_, fun plan hplan hverb => ?_⟩
  · refine ⟨_, t.render d, t.parameters.required, by rw [emit, hc]; rfl, ?_, at?_envelope t d,
      hrequired⟩
    show (c.output.map (·.render d))[i]? = _
    rw [List.getElem?_map, ht]
    rfl
  · obtain ⟨model, line, hmodel, hline, hgiven, hleft⟩ :=
      PythonModule.exists_fieldLine ht hnodup hname
    obtain ⟨code, hcode, houtput⟩ := exists_code hc .python
    refine ⟨code, model, line, hcode, houtput ▸ hmodel, hline, hgiven.trans hflag, ?_⟩
    rw [hleft, ← hflag, Bool.not_eq_true]
  · obtain ⟨members, line, hmembers, hline, hmark⟩ :=
      TypeScriptModule.exists_memberLine ht hnodup hname
    obtain ⟨code, hcode, houtput⟩ := exists_code hc .typescript
    refine ⟨code, members, line, hcode, houtput ▸ hmembers, hline, ?_⟩
    rw [hmark, ← hflag, Bool.not_eq_false']
  · subst hplan
    have hbody := ActionPlan.bodySchema_eq hverb hs
    refine ⟨_, hbody, ?_, Action.mem_required_requestShape hne⟩
    rw [ActionPlan.schemas, hbody]
    exact List.mem_cons_self

/-- An action that declares a parameter twice, required with blanks around its name and optional
without, and shows in its example what it does not declare. -/
def Action.approval : Action :=
  { name := "Approve"
    logic := some
      { parameters := [{ name := " orderId ", required := true }, { name := "orderId" }] }
    implementation := some
      { payload := some (.obj [("orderId", .str "o-1"), ("reason", .str "late")]) } }

/-- The parameter is required, under a field of another name, and the other property is not. -/
theorem required_survives_twice : ∃ c, descriptors {} (.ofAction .approval) = .ok c ∧
    (Agreed {} (.ofAction .approval) c.output 0 .approval "orderId" ∧
      Action.approval.Demands "orderId") ∧
    Agreed {} (.ofAction .approval) c.output 0 .approval "reason" ∧
      ¬ Action.approval.Demands "reason" := by
  have hc : ∃ c, descriptors {} (.ofAction .approval) = .ok c := ⟨_, rfl⟩
  obtain ⟨c, hc⟩ := hc
  have hkeys : Ordered.keys (Action.approval.requestShape .jsonSchema).properties =
      ["orderId", "reason"] := by
    rw [Action.keys_requestShape]
    decide +kernel
  have hs : Action.approval.requestSchema .jsonSchema =
      some (Action.approval.requestShape .jsonSchema) := by
    refine Action.requestSchema_eq_some_iff.mpr ⟨fun hnil => ?_, rfl⟩
    rw [hnil] at hkeys
    exact absurd hkeys (by decide)
  have ha : (Scope.ofAction .approval).actions[0]? = some (Scope.defaultObject, .approval) := rfl
  refine ⟨c, hc, ⟨required_survives hc ha hs (by simp [hkeys]) (by decide), ?_⟩,
    required_survives hc ha hs (by simp [hkeys]) (by decide), ?_⟩
  · unfold Action.Demands
    decide +kernel
  · unfold Action.Demands
    decide +kernel

end OntologyCompiler
