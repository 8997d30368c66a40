import OntologyCompiler.Proofs.Json.ReadBack
import OntologyCompiler.Proofs.TypeScript.Interface
import OntologyCompiler.Rendering

/-!
# The array of a module is the JSON text of its tools

The items of the array are made one by one: each tool is written on its own and its lines are moved
to the right. Together they are the list of all tools as it is written in one piece, but for the
comma behind the last item. So an array literal, which may have such a comma, is read as the same
tools as the list.

* `indented_pretty`: moving the lines of a value writes it one level deeper.
* `arrayText_eq`: the array in one piece.
* `literalItems_prettyItems`: an array literal with a comma behind its last item is read.
* `array_is_json`: text and meaning of the array of a module.
-/

namespace OntologyCompiler

open Json (deeper prettyChars prettyItems joined lineStart)

/-! ## Lines moved to the right -/

namespace Text

theorem lines_ne_nil {cs : List Char} (h : cs ≠ []) : lines cs ≠ [] := by
  unfold lines
  split
  · exact absurd rfl h
  · exact List.cons_ne_nil _ _
  · exact List.cons_ne_nil _ _
  · split <;> exact List.cons_ne_nil _ _

/-- **Moving every line to the right** puts two blanks in front and behind every line end, where no
line ends with a carriage return and the text does not end with a line end. -/
theorem joined_lines {c : Char} (hline : c ≠ '\n') (hreturn : c ≠ '\r') : ∀ {cs : List Char},
    '\r' ∉ cs → joined ['\n'] ((lines (cs ++ [c])).map fun l => ' ' :: ' ' :: l) =
      ' ' :: ' ' :: deeper (cs ++ [c])
  | [], _ => by
    rw [List.nil_append, lines_cons hline hreturn, deeper, List.flatMap_singleton, if_neg hline]
    rfl
  | d :: cs, h => by
    have ih := joined_lines hline hreturn fun hmem => h (List.mem_cons_of_mem _ hmem)
    have hne : cs ++ [c] ≠ [] := by simp
    obtain ⟨l, more, hlines⟩ := List.exists_cons_of_ne_nil (lines_ne_nil hne)
    rw [hlines] at ih
    by_cases hd : d = '\n'
    · rw [hd, List.cons_append, lines, hlines, List.map_cons, Json.joined_cons (by simp), ih]
      rfl
    · have hd' : d ≠ '\r' := fun heq => h (heq ▸ List.mem_cons_self)
      -- the character goes between the blanks and the line behind it
      have hbehind := Json.joined_append ['\n'] [' ', ' '] l (more.map fun l => ' ' :: ' ' :: l)
      have hcut : joined ['\n'] (l :: more.map fun l => ' ' :: ' ' :: l) = deeper (cs ++ [c]) :=
        List.append_cancel_left (hbehind.symm.trans ih)
      rw [List.cons_append, lines_cons hd hd', hlines, List.headD_cons, List.tail_cons,
        List.map_cons, show ' ' :: ' ' :: d :: l = [' ', ' ', d] ++ l from rfl, Json.joined_append,
        hcut, deeper, deeper, List.flatMap_cons, if_neg hd]
      rfl

end Text

/-- **Moving the lines of a value** writes it one level deeper. -/
theorem indented_pretty (v : Json) :
    indented v.pretty = String.ofList (' ' :: ' ' :: prettyChars 1 v) := by
  obtain ⟨front, c, hfront, hc⟩ := Json.prettyChars_last 0 v
  have hreturn := (Json.lined_prettyChars 0 v).return_not_mem
  have hdeeper := Json.deeper_prettyChars 0 v
  rw [hfront] at hreturn hdeeper
  rw [indented, Json.pretty, String.toList_ofList, hfront, Text.joined_lines hc
    (fun heq => hreturn (by simp [heq])) (fun hmem => hreturn (List.mem_append_left _ hmem)),
    hdeeper]

/-! ## The array -/

/-- The items, each behind two blanks and in front of a comma and a line end, are the list of them
with a comma behind the last. -/
theorem flatMap_prettyChars : ∀ {vs : List Json}, vs ≠ [] →
    '\n' :: (vs.flatMap fun v => ' ' :: ' ' :: prettyChars 1 v ++ [',', '\n']) =
      joined [','] (prettyItems 1 vs) ++ [',', '\n']
  | [], h => absurd rfl h
  | [v], _ => by
    rw [prettyItems, prettyItems, joined]
    simp [lineStart]
  | v :: w :: rest, _ => by
    have ih := flatMap_prettyChars (List.cons_ne_nil w rest)
    rw [prettyItems, Json.joined_cons (by simp [prettyItems]), List.append_assoc, ← ih]
    simp [lineStart]

namespace TypeScriptModule

/-- The values of the items of the array. -/
def items (m : TypeScriptModule) : List Json :=
  m.tools.map fun t => (t.tool.render .openAi).toJson

theorem items_ofTools (tools : List Tool) :
    (ofTools tools).output.items = tools.map fun t => (t.render .openAi).toJson := by
  have htools := bindTools_tools ⟨.typescript, []⟩ tools
  conv_rhs => rw [← htools, List.map_map]
  rfl

/-- **The array in one piece**: the list of its items with a comma behind the last. -/
theorem arrayText_eq {m : TypeScriptModule} (h : m.items ≠ []) :
    m.arrayText = String.ofList ('[' :: joined [','] (prettyItems 1 m.items)) ++ ",\n]" := by
  have htools : m.tools.isEmpty = false := by
    cases ht : m.tools with
    | nil => exact absurd (by rw [items, ht, List.map_nil]) h
    | cons t rest => rfl
  have hjoin : (String.join (m.tools.map fun t => t.itemText ++ ",\n")).toList =
      m.items.flatMap fun v => ' ' :: ' ' :: prettyChars 1 v ++ [',', '\n'] := by
    rw [String.toList_join, items, List.flatMap_map, List.flatMap_map]
    refine List.flatMap_congr fun t _ => ?_
    rw [String.toList_append, TypeScriptTool.itemText, indented_pretty, String.toList_ofList]
    rfl
  apply String.toList_injective
  unfold arrayText
  rw [htools, if_neg (by decide)]
  simp only [String.toList_append, hjoin, String.toList_ofList]
  have hitems := congrArg (fun cs => '[' :: (cs ++ [']'])) (flatMap_prettyChars h)
  simpa [List.append_assoc] using hitems

end TypeScriptModule

/-! ## Array literals -/

namespace Json.Raw

/-- The items of an array literal up to its closing bracket; a comma may stand behind the last. -/
def literalItems : Nat → List Char → List Raw × Option (List Char)
  | 0, _ => ([], none)
  | fuel + 1, cs =>
    match emptyRest? ']' cs with
    | some rest => ([], some rest)
    | none =>
      match value fuel cs with
      | (v, none) => ([v], none)
      | (v, some rest) =>
        match skipGap rest with
        | ']' :: rest => ([v], some rest)
        | ',' :: rest =>
          let (more, rest) := literalItems fuel rest
          (v :: more, rest)
        | _ => ([v], none)

/-- The items of an array literal; none if there is something wrong with it. -/
def arrayLiteral? (cs : List Char) : Option (List Raw) :=
  match skipGap cs with
  | '[' :: rest =>
    match literalItems (rest.length + 1) rest with
    | (items, some rest) => if skipGap rest = [] then some items else none
    | (_, none) => none
  | _ => none

theorem literalItems_comma {fuel : Nat} {cs rest after : List Char} {v : Raw}
    (hempty : emptyRest? ']' cs = none) (hv : value fuel cs = (v, some rest))
    (h : skipGap rest = ',' :: after) : literalItems (fuel + 1) cs =
      (v :: (literalItems fuel after).1, (literalItems fuel after).2) := by
  rw [literalItems, hempty]
  simp only [hv, h]

/-- **An array literal is read** with a comma behind its last item. -/
theorem literalItems_prettyItems : ∀ {vs : List Json} {fuel : Nat}, vs ≠ [] →
    (joined [','] (prettyItems 1 vs)).length + 1 < fuel →
    literalItems fuel (joined [','] (prettyItems 1 vs) ++ [',', '\n', ']']) = (ofItems vs, some [])
  | [], _, h, _ => absurd rfl h
  | _, 0, _, h => absurd h (Nat.not_lt_zero _)
  | [v], fuel + 1, _, h => by
    simp only [prettyItems, joined, lineStart, List.length_append, List.length_cons] at h
    have hlength : (prettyChars 1 v).length < fuel := by omega
    have hv := value_prettyChars 1 v hlength (endsNumber_comma ['\n', ']'])
    rw [← value_lineStart fuel 1, ← List.append_assoc] at hv
    have hstep := literalItems_comma (emptyRest?_prettyItems 1 v [] [',', '\n', ']']) hv
      (skipGap_of_mark (by decide) _)
    obtain ⟨fuel, rfl⟩ : ∃ n, fuel = n + 1 := ⟨fuel - 1, by omega⟩
    exact hstep
  | v :: w :: more, fuel + 1, _, h => by
    have hempty := emptyRest?_prettyItems 1 v (w :: more) [',', '\n', ']']
    rw [prettyItems, joined_cons (by simp [prettyItems])] at h hempty ⊢
    simp only [List.length_append, List.length_cons, lineStart] at h
    have hlength : (prettyChars 1 v).length < fuel := by omega
    have hmore : (joined [','] (prettyItems 1 (w :: more))).length + 1 < fuel := by omega
    have hv := value_prettyChars 1 v hlength (endsNumber_comma
      (joined [','] (prettyItems 1 (w :: more)) ++ [',', '\n', ']']))
    rw [← value_lineStart fuel 1] at hv
    simp only [List.append_assoc, List.cons_append, List.nil_append] at hempty hv ⊢
    rw [literalItems_comma hempty hv (skipGap_of_mark (by decide) _),
      literalItems_prettyItems (List.cons_ne_nil w more) hmore]
    rfl

theorem arrayLiteral?_prettyItems {vs : List Json} (h : vs ≠ []) :
    arrayLiteral? ('[' :: joined [','] (prettyItems 1 vs) ++ [',', '\n', ']']) =
      some (ofItems vs) := by
  have hfuel : (joined [','] (prettyItems 1 vs)).length + 1 <
      (joined [','] (prettyItems 1 vs) ++ [',', '\n', ']']).length + 1 := by simp
  have hread := literalItems_prettyItems h hfuel
  rw [List.cons_append, arrayLiteral?, skipGap_of_mark (by decide)]
  simp only [hread]
  rfl

end Json.Raw

/-! ## Modules -/

/-- **The array of a module is the JSON text of its tools.** Where there are tools, the module has
behind its interfaces the text of the list of all tools, as it is rendered on its own, but for a
comma in front of the last line end. Read as JSON, the list has the trees of the tools, their texts
as they are; and an array literal that is read with that comma has the same. -/
theorem array_is_json {tools : List Tool} (h : tools ≠ []) : ∃ body : String,
    Format.json.render (.arr (tools.map fun t => (t.render .openAi).toJson)) =
      body ++ "\n]" ++ "\n" ∧
    (TypeScriptModule.ofTools tools).output.text = TypeScriptModule.header ++
      String.join ((TypeScriptModule.ofTools tools).output.tools.map TypeScriptTool.text) ++
      "\nexport const tools: ChatCompletionTool[] = " ++ (body ++ ",\n]") ++ ";\n" ++
      "\nexport type ToolName = " ++ (TypeScriptModule.ofTools tools).output.namesText ++ ";\n" ∧
    Json.Raw.parse (body ++ "\n]").toList =
      (.arr (tools.map fun t => .ofJson (t.render .openAi).toJson) true, true) ∧
    Json.Raw.arrayLiteral? (body ++ ",\n]").toList =
      some (tools.map fun t => .ofJson (t.render .openAi).toJson) := by
  have htrees : (tools.map fun t => Json.Raw.ofJson (t.render .openAi).toJson) =
      Json.Raw.ofItems (tools.map fun t => (t.render .openAi).toJson) := by
    rw [Json.Raw.ofItems_eq_map, List.map_map]
    rfl
  rw [htrees]
  have hitems := TypeScriptModule.items_ofTools tools
  have hvalues : (tools.map fun t => (t.render .openAi).toJson) ≠ [] := by simpa using h
  generalize (tools.map fun t => (t.render .openAi).toJson) = values at *
  have hpretty := Json.pretty_arr hvalues
  refine ⟨String.ofList ('[' :: joined [','] (prettyItems 1 values)), ?_, ?_, ?_, ?_⟩
  · rw [← hpretty]
    rfl
  · have harray := TypeScriptModule.arrayText_eq (hitems ▸ hvalues)
    rw [hitems] at harray
    rw [TypeScriptModule.text, harray]
  · rw [← hpretty, Json.Raw.parse_pretty, Json.Raw.ofJson]
  · rw [← Json.Raw.arrayLiteral?_prettyItems hvalues, String.toList_append, String.toList_ofList]
    rfl

/-- A tool whose description has quotes and a line end of two characters. -/
def Tool.spoken : Tool :=
  { name := "say"
    description := "say \"hi\"\r\nthen wait"
    parameters := {}
    returns := {}
    object := "Talk"
    kind := .traditional
    http := ⟨.post, "/say"⟩
    governance := none }

/-- The description is read from the array as it is. -/
theorem array_is_json_spoken : [Tool.spoken] ≠ [] ∧ ∃ body : String,
    Format.json.render (.arr [(Tool.spoken.render .openAi).toJson]) = body ++ "\n]" ++ "\n" ∧
    Json.Raw.arrayLiteral? (body ++ ",\n]").toList = some [.obj [(some "type", .str "function"),
      (some "function", .obj [(some "name", .str "say"),
        (some "description", .str "say \"hi\"\r\nthen wait"),
        (some "parameters", .obj [(some "type", .str "object"), (some "properties", .obj [] true),
          (some "required", .arr [] true)] true)] true)] true] := by
  obtain ⟨body, hjson, -, -, harray⟩ := array_is_json (List.cons_ne_nil Tool.spoken [])
  exact ⟨List.cons_ne_nil _ _, body, hjson, harray⟩

end OntologyCompiler
