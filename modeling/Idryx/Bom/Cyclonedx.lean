import Idryx.Bom.Build
import Idryx.Go.Calendar
import Idryx.Go.Json.Members
import Idryx.Go.Trim

/-!
# The Agent-BOM as a document

`internal/bom/cyclonedx.go`: one component an agent, with its tools nested in it, and a dependency on each principal it
acts for.

* `toComponent`, `toDependency`, `document`, `json`: what is written;
* `readTool`, `readAgent`, `readBOM`: what a document says, read by the names of its members;
* `reread`: an agent with the invalid bytes of its texts replaced; **`mapStr_document`**;
* **`bom_read_back`**: the document of a graph says of each agent what its BOM does.
-/

namespace Idryx

namespace Utf8

theorem replaceInvalid_join (xs : List GoString) :
    replaceInvalid (Strings.join xs [0x2C]) = Strings.join (xs.map replaceInvalid) [0x2C] := by
  induction xs with
  | nil => rfl
  | cons x xs ih =>
    cases xs with
    | nil => simp [Strings.join]
    | cons y ys =>
      have hjoin : ∀ (a b : GoString) (l : List GoString),
          Strings.join (a :: b :: l) [0x2C] = a ++ ([0x2C] ++ Strings.join (b :: l) [0x2C]) := by
        intro a b l
        simp [Strings.join, List.intercalate]
      have hcomma : replaceInvalid ([0x2C] ++ Strings.join (y :: ys) [0x2C]) =
          [0x2C] ++ replaceInvalid (Strings.join (y :: ys) [0x2C]) :=
        replaceInvalid_encodes (Encodes.one (by decide)) _
      rw [hjoin, replaceInvalid_append (by simp [isCont]), hcomma, ih]
      exact (hjoin _ _ _).symm

end Utf8

namespace Bom

open Json (member asText elems textOf mapM_map_some)

/-! ## The document -/

/-- `strconv.FormatBool`. -/
def boolString (b : Bool) : GoString := if b then "true" else "false"

/-- No attestation is spelled out. -/
def attestationOr (a : GoString) : GoString := if a = "" then "none" else a

/-- The principals of a chain that starts with the agent itself. -/
def onBehalfOf (chain : List GoString) : List GoString := if chain.length < 2 then [] else chain.drop 1

/-- A `cyclonedxProperty`. -/
def property (p : GoString × GoString) : Json := .obj [("name", .str p.1), ("value", .str p.2)]

/-- A member that is omitted where its value is empty. -/
def omitEmpty (k : GoString) (empty : Bool) (j : Json) : List (GoString × Json) := if empty then [] else [(k, j)]

/-- A `cyclonedxComponent`. -/
def component (type bomRef name : GoString) (properties : List (GoString × GoString)) (components : List Json) : Json :=
  .obj (List.flatten [[("type", .str type)], omitEmpty "bom-ref" bomRef.isEmpty (.str bomRef), [("name", .str name)],
    omitEmpty "properties" properties.isEmpty (.arr (properties.map property)),
    omitEmpty "components" components.isEmpty (.arr components)])

/-- A tool, nested under the agent that is granted it. -/
def toolComponent (agent : GoString) (tool : ToolRef) : Json :=
  component "library" (agent ++ "#tool:" ++ tool.name) tool.name
    [("idryx:admin", boolString tool.admin), ("idryx:used", boolString tool.used)] []

/-- One less than the length of a chain, also of an empty one. -/
def delegationDepth (chain : List GoString) : GoString :=
  if chain.length = 0 then "-1" else Strconv.itoa (chain.length - 1)

/-- The properties of an agent. -/
def agentProperties (a : AgentBOM) : List (GoString × GoString) :=
  [("idryx:owner", a.owner), ("idryx:runtime", a.runtime), ("idryx:parent", a.parent),
    ("idryx:attestation", attestationOr a.attestation), ("idryx:privileged", boolString a.privileged),
    ("idryx:delegationDepth", delegationDepth a.delegationChain),
    ("idryx:onBehalfOf", Strings.join (onBehalfOf a.delegationChain) ","),
    ("idryx:blastRadiusCount", Strconv.itoa a.blastRadius.length),
    ("idryx:blastRadius", Strings.join a.blastRadius ",")]

/-- An agent as a component. -/
def toComponent (a : AgentBOM) : Json :=
  component "application" a.id a.id (agentProperties a) (a.tools.map (toolComponent a.id))

/-- The delegation parents of an agent; an autonomous one has no entry. -/
def toDependency (a : AgentBOM) : Option Json :=
  if a.delegationChain.length < 2 then none
  else some (.obj [("ref", .str a.id), ("dependsOn", .arr ((onBehalfOf a.delegationChain).map .str))])

/-- The document of a BOM. -/
def document (b : BOM) (version : GoString) : Json :=
  let dependencies := b.agents.filterMap toDependency
  .obj (List.flatten [[("bomFormat", .str "CycloneDX"), ("specVersion", .str "1.6"), ("version", .num "1"),
    ("metadata", .obj [("timestamp", .str b.generatedAt.formatSeconds),
      ("tools", .arr [.obj [("vendor", .str "idryx"), ("name", .str "idryx"), ("version", .str version)]])]),
    ("components", .arr (b.agents.map toComponent))],
    omitEmpty "dependencies" dependencies.isEmpty (.arr dependencies)])

/-- `JSON`. -/
def json (b : BOM) (version : GoString) : GoString := Json.encode (document b version)

/-! ## Reading a document -/

/-- The value of a property. -/
def propertyOf (name : GoString) (j : Json) : Option GoString :=
  ((elems (member "properties" j)).find? fun p => textOf "name" p == some name).bind (textOf "value")

/-- A tool and an agent as they are read back from their components. -/
def readTool (j : Json) : Option ToolRef := do
  let name ← textOf "name" j
  let admin ← propertyOf "idryx:admin" j
  let used ← propertyOf "idryx:used" j
  return ⟨name, admin == "true", used == "true"⟩

/-- The chain of an agent, by the dependency that names it. -/
def readChain (dependencies : List Json) (id : GoString) : List GoString :=
  match dependencies.find? fun d => textOf "ref" d == some id with
  | none => [id]
  | some d => id :: (elems (member "dependsOn" d)).filterMap asText

@[inherit_doc readTool]
def readAgent (dependencies : List Json) (j : Json) : Option AgentBOM := do
  let id ← textOf "name" j
  let owner ← propertyOf "idryx:owner" j
  let runtime ← propertyOf "idryx:runtime" j
  let parent ← propertyOf "idryx:parent" j
  let attestation ← propertyOf "idryx:attestation" j
  let privileged ← propertyOf "idryx:privileged" j
  let count ← propertyOf "idryx:blastRadiusCount" j
  let names ← propertyOf "idryx:blastRadius" j
  let tools ← (elems (member "components" j)).mapM readTool
  return ⟨id, owner, runtime, parent, attestation, privileged == "true", tools, readChain dependencies id,
    if count = "0" then [] else Strings.split names 0x2C⟩

/-- The agents of a document. -/
def readBOM (data : GoString) : Option (List AgentBOM) := do
  let j ← Json.parse data
  (elems (member "components" j)).mapM (readAgent (elems (member "dependencies" j)))

/-! ### The members of a component -/

section Component

variable (type bomRef name : GoString) (properties : List (GoString × GoString)) (components : List Json)

theorem textOf_name : textOf "name" (component type bomRef name properties components) = some name := by
  cases bomRef <;> rfl

theorem elems_properties :
    elems (member "properties" (component type bomRef name properties components)) = properties.map property := by
  cases bomRef <;> cases properties <;> cases components <;> rfl

theorem elems_components :
    elems (member "components" (component type bomRef name properties components)) = components := by
  cases bomRef <;> cases properties <;> cases components <;> rfl

/-- **A property is read by its name.** -/
theorem propertyOf_component (k : GoString) : propertyOf k (component type bomRef name properties components) =
    (properties.find? fun p => p.1 == k).map Prod.snd := by
  have hname : ∀ p, (textOf "name" (property p) == some k) = (p.1 == k) := fun p => rfl
  have hvalue : ∀ p, textOf "value" (property p) = some p.2 := fun p => rfl
  unfold propertyOf
  rw [elems_properties, List.find?_map, Option.bind_map]
  simp only [Function.comp_def, hname, hvalue]
  cases properties.find? fun p => p.1 == k <;> rfl

end Component

theorem readTool_toolComponent (agent : GoString) (tool : ToolRef) :
    readTool (toolComponent agent tool) = some tool := by
  have hbool : ∀ b, (boolString b == "true") = b := by decide
  have hadmin : propertyOf "idryx:admin" (toolComponent agent tool) = some (boolString tool.admin) := by
    rw [toolComponent, propertyOf_component]
    rfl
  have hused : propertyOf "idryx:used" (toolComponent agent tool) = some (boolString tool.used) := by
    rw [toolComponent, propertyOf_component]
    rfl
  unfold readTool
  rw [hadmin, hused, toolComponent, textOf_name]
  simp only [Option.pure_def, Option.bind_eq_bind, Option.bind_some, hbool]

/-- What stands for no attestation is spelled out. -/
def AgentBOM.spelled (a : AgentBOM) : AgentBOM := { a with attestation := attestationOr a.attestation }

theorem property_agent (a : AgentBOM) :
    let c := toComponent a
    propertyOf "idryx:owner" c = some a.owner ∧ propertyOf "idryx:runtime" c = some a.runtime ∧
    propertyOf "idryx:parent" c = some a.parent ∧
    propertyOf "idryx:attestation" c = some (attestationOr a.attestation) ∧
    propertyOf "idryx:privileged" c = some (boolString a.privileged) ∧
    propertyOf "idryx:blastRadiusCount" c = some (Strconv.itoa a.blastRadius.length) ∧
    propertyOf "idryx:blastRadius" c = some (Strings.join a.blastRadius ",") := by
  intro c
  simp only [c, toComponent, propertyOf_component]
  exact ⟨rfl, rfl, rfl, rfl, rfl, rfl, rfl⟩

/-! ### The agents of a document -/

theorem ref_toDependency {a : AgentBOM} {d : Json} (h : toDependency a = some d) : textOf "ref" d = some a.id := by
  unfold toDependency at h
  split_ifs at h
  exact Option.some.inj h ▸ rfl

/-- **The dependency that names an agent** is its own, if it has one. -/
theorem find_dependency {agents : List AgentBOM} (hids : (agents.map AgentBOM.id).Nodup) {a : AgentBOM}
    (ha : a ∈ agents) :
    ((agents.filterMap toDependency).find? fun d => textOf "ref" d == some a.id) = toDependency a := by
  induction agents with
  | nil => cases ha
  | cons b agents ih =>
    rw [List.map_cons, List.nodup_cons] at hids
    have hothers : ∀ l : List AgentBOM, a.id ∉ l.map AgentBOM.id →
        ((l.filterMap toDependency).find? fun d => textOf "ref" d == some a.id) = none := by
      intro l hl
      rw [List.find?_eq_none]
      intro d hd href
      obtain ⟨c, hc, hcd⟩ := List.mem_filterMap.mp hd
      rw [ref_toDependency hcd] at href
      exact hl (List.mem_map.mpr ⟨c, hc, Option.some.inj (eq_of_beq href)⟩)
    rw [List.filterMap_cons]
    rcases List.mem_cons.mp ha with rfl | ha
    · cases hd : toDependency a with
      | none => exact hothers agents hids.1
      | some d =>
        dsimp only
        rw [List.find?_cons_of_pos]
        rw [ref_toDependency hd]
        exact beq_self_eq_true _
    · have hne : b.id ≠ a.id := fun h => hids.1 (h ▸ List.mem_map_of_mem ha)
      cases hd : toDependency b with
      | none => exact ih hids.2 ha
      | some d =>
        dsimp only
        rw [List.find?_cons_of_neg, ih hids.2 ha]
        rw [ref_toDependency hd]
        simpa using hne

/-- **The chain of an agent is read** from its dependency, or there is none and it acts for itself. -/
theorem readChain_dependencies {agents : List AgentBOM} (hids : (agents.map AgentBOM.id).Nodup) {a : AgentBOM}
    (ha : a ∈ agents) (hchain : a.delegationChain.head? = some a.id) :
    readChain (agents.filterMap toDependency) a.id = a.delegationChain := by
  unfold readChain
  rw [find_dependency hids ha]
  obtain ⟨rest, hrest⟩ : ∃ rest, a.delegationChain = a.id :: rest := by
    cases h : a.delegationChain with
    | nil =>
      rw [h] at hchain
      cases hchain
    | cons x rest =>
      rw [h] at hchain
      exact ⟨rest, by rw [Option.some.inj hchain]⟩
  cases rest with
  | nil =>
    have hnone : toDependency a = none := by
      rw [toDependency, hrest]
      rfl
    rw [hnone, hrest]
  | cons y ys =>
    have hsome : toDependency a =
        some (.obj [("ref", .str a.id), ("dependsOn", .arr ((y :: ys).map Json.str))]) := by
      rw [toDependency, hrest]
      rfl
    have hdeps : (elems (member "dependsOn"
        (.obj [("ref", .str a.id), ("dependsOn", .arr ((y :: ys).map Json.str))]))).filterMap asText = y :: ys := by
      change ((y :: ys).map Json.str).filterMap asText = y :: ys
      rw [List.filterMap_map]
      exact List.filterMap_some
    rw [hsome, hrest]
    exact congrArg (a.id :: ·) hdeps

theorem split_blastRadius {names : List GoString} (h : ∀ n ∈ names, 0x2C ∉ n) :
    (if Strconv.itoa names.length = "0" then [] else Strings.split (Strings.join names ",") 0x2C) = names := by
  by_cases hnil : names = []
  · subst hnil
    exact if_pos (by decide)
  · have hlen : Strconv.itoa names.length ≠ "0" := by
      intro hzero
      have hdec := congrArg Strconv.decimal hzero
      rw [Strconv.decimal_itoa] at hdec
      exact hnil (List.length_eq_zero_iff.mp hdec)
    rw [if_neg hlen]
    exact Strings.split_join hnil h

/-- **What a document says of an agent.** -/
theorem readAgent_toComponent {agents : List AgentBOM} (hids : (agents.map AgentBOM.id).Nodup) {a : AgentBOM}
    (ha : a ∈ agents) (hchain : a.delegationChain.head? = some a.id) (hcomma : ∀ n ∈ a.blastRadius, 0x2C ∉ n) :
    readAgent (agents.filterMap toDependency) (toComponent a) = some a.spelled := by
  obtain ⟨howner, hruntime, hparent, hattestation, hprivileged, hcount, hnames⟩ := property_agent a
  have hname : textOf "name" (toComponent a) = some a.id := textOf_name _ _ _ _ _
  have hbool : ∀ b, (boolString b == "true") = b := by decide
  have htools : (elems (member "components" (toComponent a))).mapM readTool = some a.tools := by
    rw [toComponent, elems_components, mapM_map_some (h := id) fun t _ => readTool_toolComponent a.id t, List.map_id]
  unfold readAgent
  simp only [Option.pure_def, Option.bind_eq_bind, hname, howner, hruntime, hparent, hattestation, hprivileged, hcount,
    hnames, htools, Option.bind_some, hbool, readChain_dependencies hids ha hchain, split_blastRadius hcomma]
  rfl

theorem read_document {b : BOM} (version : GoString) (hids : (b.agents.map AgentBOM.id).Nodup)
    (hchain : ∀ a ∈ b.agents, a.delegationChain.head? = some a.id)
    (hcomma : ∀ a ∈ b.agents, ∀ n ∈ a.blastRadius, 0x2C ∉ n) :
    (elems (member "components" (document b version))).mapM
      (readAgent (elems (member "dependencies" (document b version)))) = some (b.agents.map AgentBOM.spelled) := by
  have hcomponents : elems (member "components" (document b version)) = b.agents.map toComponent := rfl
  have hdependencies : elems (member "dependencies" (document b version)) = b.agents.filterMap toDependency := by
    unfold document
    cases b.agents.filterMap toDependency <;> rfl
  rw [hcomponents, hdependencies]
  exact mapM_map_some fun a ha => readAgent_toComponent hids ha (hchain a ha) (hcomma a ha)

/-! ## What is written -/

section Written

open Utf8 (replaceInvalid replaceInvalid_ascii)

/-- A tool with its name as it is read back. -/
def ToolRef.reread (t : ToolRef) : ToolRef := { t with name := replaceInvalid t.name }

/-- An agent with its texts as they are read back. -/
def AgentBOM.reread (a : AgentBOM) : AgentBOM where
  id := replaceInvalid a.id
  owner := replaceInvalid a.owner
  runtime := replaceInvalid a.runtime
  parent := replaceInvalid a.parent
  attestation := replaceInvalid a.attestation
  privileged := a.privileged
  tools := a.tools.map ToolRef.reread
  delegationChain := a.delegationChain.map replaceInvalid
  blastRadius := a.blastRadius.map replaceInvalid

theorem map_omitEmpty {k : GoString} (hk : replaceInvalid k = k) (empty : Bool) (j : Json) :
    (omitEmpty k empty j).map (fun m => (replaceInvalid m.1, Json.mapStr replaceInvalid m.2)) =
      omitEmpty k empty (Json.mapStr replaceInvalid j) := by
  cases empty
  · exact congrArg (fun x => [(x, Json.mapStr replaceInvalid j)]) hk
  · rfl

theorem isEmpty_replaceInvalid (s : GoString) : (replaceInvalid s).isEmpty = s.isEmpty := by
  rw [Bool.eq_iff_iff, List.isEmpty_iff, List.isEmpty_iff, Utf8.replaceInvalid_eq_nil]

theorem mapStr_component (type bomRef name : GoString) (properties : List (GoString × GoString))
    (components : List Json) : Json.mapStr replaceInvalid (component type bomRef name properties components) =
      component (replaceInvalid type) (replaceInvalid bomRef) (replaceInvalid name)
        (properties.map fun p => (replaceInvalid p.1, replaceInvalid p.2))
        (components.map (Json.mapStr replaceInvalid)) := by
  have hkeys : replaceInvalid "type" = "type" ∧ replaceInvalid "bom-ref" = "bom-ref" ∧
      replaceInvalid "name" = "name" ∧ replaceInvalid "value" = "value" ∧
      replaceInvalid "properties" = "properties" ∧ replaceInvalid "components" = "components" := by decide
  obtain ⟨htype, href, hname, hvalue, hproperties, hcomponents⟩ := hkeys
  have hproperty : ∀ p,
      Json.mapStr replaceInvalid (property p) = property (replaceInvalid p.1, replaceInvalid p.2) := by
    intro p
    simp only [property, Json.mapStr, Json.mapMembers, hname, hvalue]
  unfold component
  rw [Json.mapStr_obj, List.map_flatten]
  simp only [List.map_cons, List.map_nil, map_omitEmpty href, map_omitEmpty hproperties, map_omitEmpty hcomponents,
    isEmpty_replaceInvalid, List.isEmpty_map, Json.mapStr_arr, List.map_map, Function.comp_def, hproperty, htype, hname,
    Json.mapStr_str]

theorem replaceInvalid_boolString (b : Bool) : replaceInvalid (boolString b) = boolString b := by
  revert b
  decide

theorem mapStr_toolComponent (agent : GoString) (tool : ToolRef) :
    Json.mapStr replaceInvalid (toolComponent agent tool) = toolComponent (replaceInvalid agent) tool.reread := by
  have hconst : replaceInvalid "library" = "library" ∧ replaceInvalid "idryx:admin" = "idryx:admin" ∧
      replaceInvalid "idryx:used" = "idryx:used" := by decide
  have href : replaceInvalid (agent ++ "#tool:" ++ tool.name) =
      replaceInvalid agent ++ "#tool:" ++ replaceInvalid tool.name := by
    have hhead : ∀ b ∈ (("#tool:" : GoString) ++ tool.name).head?, Utf8.isCont b = false := by
      intro b hb
      have hsharp : (("#tool:" : GoString) ++ tool.name).head? = some 0x23 := rfl
      rw [hsharp, Option.mem_some_iff] at hb
      rw [← hb]
      decide
    rw [List.append_assoc, Utf8.replaceInvalid_append hhead,
      Utf8.replaceInvalid_ascii_append (forall_mem_of_all (by decide)), List.append_assoc]
  unfold toolComponent
  rw [mapStr_component, hconst.1, href]
  simp only [List.map_cons, List.map_nil, hconst.2, replaceInvalid_boolString]
  rfl

theorem map_onBehalfOf (chain : List GoString) :
    (onBehalfOf chain).map replaceInvalid = onBehalfOf (chain.map replaceInvalid) := by
  unfold onBehalfOf
  rw [List.length_map]
  split_ifs
  · rfl
  · rw [List.map_drop]

theorem map_agentProperties (a : AgentBOM) :
    (agentProperties a).map (fun p => (replaceInvalid p.1, replaceInvalid p.2)) = agentProperties a.reread := by
  have hnames : ∀ p ∈ agentProperties a, replaceInvalid p.1 = p.1 := by
    simp only [agentProperties, List.forall_mem_cons]
    refine ⟨?_, ?_, ?_, ?_, ?_, ?_, ?_, ?_, ?_, fun p hp => absurd hp List.not_mem_nil⟩ <;> exact by decide
  have hattestation : replaceInvalid (attestationOr a.attestation) = attestationOr (replaceInvalid a.attestation) := by
    have hempty : replaceInvalid a.attestation = "" ↔ a.attestation = "" := Utf8.replaceInvalid_eq_nil
    unfold attestationOr
    rw [if_congr hempty rfl rfl]
    split_ifs
    · decide
    · rfl
  have hdepth : replaceInvalid (delegationDepth a.delegationChain) =
      delegationDepth (a.delegationChain.map replaceInvalid) := by
    unfold delegationDepth
    rw [List.length_map]
    split_ifs
    · decide
    · exact replaceInvalid_ascii (Strconv.ascii_itoa _)
  have hmap : (agentProperties a).map (fun p => (replaceInvalid p.1, replaceInvalid p.2)) =
      (agentProperties a).map fun p => (p.1, replaceInvalid p.2) :=
    List.map_congr_left fun p hp => Prod.ext (hnames p hp) rfl
  rw [hmap]
  simp only [agentProperties, List.map_cons, List.map_nil, AgentBOM.reread, hattestation, hdepth,
    replaceInvalid_boolString, replaceInvalid_ascii (Strconv.ascii_itoa _), List.length_map, ← map_onBehalfOf]
  have hjoin : ∀ xs, replaceInvalid (Strings.join xs ",") = Strings.join (xs.map replaceInvalid) "," :=
    Utf8.replaceInvalid_join
  rw [hjoin, hjoin]

theorem mapStr_toComponent (a : AgentBOM) :
    Json.mapStr replaceInvalid (toComponent a) = toComponent a.reread := by
  have htype : replaceInvalid "application" = "application" := by decide
  have htools : a.reread.tools.map (toolComponent a.reread.id) =
      a.tools.map fun t => toolComponent (replaceInvalid a.id) t.reread := List.map_map
  unfold toComponent
  rw [mapStr_component, htype, map_agentProperties, List.map_map, htools]
  simp only [Function.comp_def, mapStr_toolComponent]
  rfl

theorem mapStr_toDependency (a : AgentBOM) :
    (toDependency a).map (Json.mapStr replaceInvalid) = toDependency a.reread := by
  have hkeys : replaceInvalid "ref" = "ref" ∧ replaceInvalid "dependsOn" = "dependsOn" := by decide
  have hlen : a.reread.delegationChain.length = a.delegationChain.length := List.length_map _
  unfold toDependency
  rw [hlen]
  split_ifs
  · rfl
  · simp only [Option.map_some, Json.mapStr, Json.mapMembers, Json.mapElems_eq, List.map_map, hkeys, Function.comp_def]
    exact congrArg (fun xs => some (Json.obj [("ref", .str (replaceInvalid a.id)), ("dependsOn", .arr xs)]))
      ((List.map_map).symm.trans (congrArg (List.map Json.str) (map_onBehalfOf a.delegationChain)))

theorem mapStr_document (b : BOM) (version : GoString) :
    Json.mapStr replaceInvalid (document b version) =
      document ⟨b.generatedAt, b.agents.map AgentBOM.reread⟩ (replaceInvalid version) := by
  have hkeys : ∀ k ∈ (["bomFormat", "CycloneDX", "specVersion", "1.6", "version", "metadata", "timestamp", "tools",
      "vendor", "idryx", "name", "components", "dependencies"] : List GoString), replaceInvalid k = k := by decide
  simp only [List.forall_mem_cons] at hkeys
  obtain ⟨h₁, h₂, h₃, h₄, h₅, h₆, h₇, h₈, h₉, h₁₀, h₁₁, h₁₂, h₁₃, -⟩ := hkeys
  have htime : replaceInvalid b.generatedAt.formatSeconds = b.generatedAt.formatSeconds :=
    replaceInvalid_ascii (Time.ascii_formatSeconds b.generatedAt)
  have hdependencies : (b.agents.filterMap toDependency).map (Json.mapStr replaceInvalid) =
      (b.agents.map AgentBOM.reread).filterMap toDependency := by
    rw [List.map_filterMap, List.filterMap_map]
    exact List.filterMap_congr fun a _ => mapStr_toDependency a
  have hempty : ((b.agents.map AgentBOM.reread).filterMap toDependency).isEmpty =
      (b.agents.filterMap toDependency).isEmpty := by
    rw [← hdependencies, List.isEmpty_map]
  have hcomponents : (b.agents.map toComponent).map (Json.mapStr replaceInvalid) =
      (b.agents.map AgentBOM.reread).map toComponent := by
    rw [List.map_map, List.map_map]
    exact List.map_congr_left fun a _ => mapStr_toComponent a
  unfold document
  dsimp only
  rw [Json.mapStr_obj, List.map_flatten]
  simp only [List.map_cons, List.map_nil, map_omitEmpty h₁₃, Json.mapStr_arr, Json.mapStr_obj, Json.mapStr_str,
    Json.mapStr_num, hcomponents, hdependencies, hempty,
    htime, h₁, h₂, h₃, h₄, h₅, h₆, h₇, h₈, h₉, h₁₀, h₁₁, h₁₂]

theorem within_omitEmpty {n : ℕ} {k : GoString} {empty : Bool} {j : Json} (h : Json.Within Json.Numeral n j) :
    ∀ m ∈ omitEmpty k empty j, Json.Within Json.Numeral n m.2 := by
  cases empty
  · exact List.forall_mem_singleton.mpr h
  · exact fun m hm => absurd hm List.not_mem_nil

theorem within_component {n : ℕ} {type bomRef name : GoString} {properties : List (GoString × GoString)}
    {components : List Json} (h : ∀ c ∈ components, Json.Within Json.Numeral (n + 1) c) :
    Json.Within Json.Numeral (n + 3) (component type bomRef name properties components) := by
  have hproperty : ∀ p ∈ properties.map property, Json.Within Json.Numeral (n + 1) p := by
    rw [List.forall_mem_map]
    intro p _
    refine .obj ?_
    simp only [List.forall_mem_cons]
    exact ⟨.str _, .str _, fun m hm => absurd hm List.not_mem_nil⟩
  refine .obj (List.forall_mem_flatten.mpr ?_)
  have hnil : ∀ m ∈ ([] : List (GoString × Json)), Json.Within Json.Numeral (n + 2) m.2 := fun m hm => absurd hm List.not_mem_nil
  simp only [List.forall_mem_cons]
  exact ⟨⟨.str type, hnil⟩, within_omitEmpty (.str bomRef), ⟨.str name, hnil⟩, within_omitEmpty (.arr hproperty),
    within_omitEmpty (.arr h), fun ms hms => absurd hms List.not_mem_nil⟩

theorem within_toComponent (a : AgentBOM) : Json.Within Json.Numeral 6 (toComponent a) := by
  refine within_component ?_
  rw [List.forall_mem_map]
  exact fun t _ => within_component fun c hc => absurd hc List.not_mem_nil

theorem within_toDependency {a : AgentBOM} {d : Json} (h : toDependency a = some d) : Json.Within Json.Numeral 6 d := by
  unfold toDependency at h
  split_ifs at h
  obtain rfl := Option.some.inj h
  refine .obj ?_
  rw [List.forall_mem_cons, List.forall_mem_singleton]
  refine ⟨.str _, .arr (k := 4) ?_⟩
  rw [List.forall_mem_map]
  exact fun s _ => .str s

theorem within_document (b : BOM) (version : GoString) : Json.Within Json.Numeral Json.maxNestingDepth (document b version) := by
  have hagents : ∀ c ∈ b.agents.map toComponent, Json.Within Json.Numeral 6 c := by
    rw [List.forall_mem_map]
    exact fun a _ => within_toComponent a
  have hdependencies : ∀ d ∈ b.agents.filterMap toDependency, Json.Within Json.Numeral 6 d := by
    intro d hd
    obtain ⟨a, -, had⟩ := List.mem_filterMap.mp hd
    exact within_toDependency had
  have htool : Json.Within Json.Numeral 1 (.obj [("vendor", .str "idryx"), ("name", .str "idryx"), ("version", .str version)]) := by
    refine .obj ?_
    rw [List.forall_mem_cons, List.forall_mem_cons, List.forall_mem_singleton]
    exact ⟨.str _, .str _, .str _⟩
  have hmetadata : Json.Within Json.Numeral 3 (.obj [("timestamp", .str b.generatedAt.formatSeconds),
      ("tools", .arr [.obj [("vendor", .str "idryx"), ("name", .str "idryx"), ("version", .str version)]])]) := by
    refine .obj ?_
    rw [List.forall_mem_cons, List.forall_mem_singleton]
    exact ⟨.str _, .arr (List.forall_mem_singleton.mpr htool)⟩
  refine Json.Within.mono (k := 8) (.obj (List.forall_mem_flatten.mpr ?_)) (by decide)
  simp only [List.forall_mem_cons]
  refine ⟨⟨.str _, .str _, .numeral (Json.numeral_digit (Or.inr rfl)), hmetadata.mono (by decide), .arr hagents,
    fun m hm => absurd hm List.not_mem_nil⟩, within_omitEmpty (.arr hdependencies),
    fun ms hms => absurd hms List.not_mem_nil⟩

/-- **The agents of a document that was written.** -/
theorem readBOM_json {b : BOM} (version : GoString) (hids : (b.agents.map fun a => replaceInvalid a.id).Nodup)
    (hchain : ∀ a ∈ b.agents, a.delegationChain.head? = some a.id)
    (hcomma : ∀ a ∈ b.agents, ∀ n ∈ a.blastRadius, 0x2C ∉ n) :
    readBOM (json b version) = some (b.agents.map fun a => a.reread.spelled) := by
  have hparse : Json.parse (json b version) = some (document ⟨b.generatedAt, b.agents.map AgentBOM.reread⟩
      (replaceInvalid version)) := by
    rw [json, (within_document b version).parse_encode, mapStr_document]
  unfold readBOM
  rw [hparse, Option.bind_eq_bind, Option.bind_some, read_document, List.map_map]
  · rfl
  · rw [List.map_map]
    exact hids
  · intro a ha
    obtain ⟨c, hc, rfl⟩ := List.mem_map.mp ha
    have hhead := hchain c hc
    rw [AgentBOM.reread, List.head?_map, hhead]
    rfl
  · intro a ha n hn
    obtain ⟨c, hc, rfl⟩ := List.mem_map.mp ha
    obtain ⟨m, hm, rfl⟩ := List.mem_map.mp hn
    exact Utf8.not_mem_replaceInvalid (by decide) (hcomma c hc m hm)

/-- **The document of a graph says of each agent what its BOM does**, in the order of the BOM: its texts with the
invalid bytes replaced, its tools, the chain it acts along and its blast radius; only an attestation that is missing
cannot be told from one that is "none". -/
theorem bom_read_back (now : Time) (version : GoString) (s : Store)
    (hid : ∀ i ∈ s.identities, i.isAgent = true → Utf8.valid i.id = true)
    (hcomma : ∀ i ∈ s.identities, ∀ p ∈ i.permissions, 0x2C ∉ p.name) :
    readBOM (json (build now s.identities) version) =
      some ((build now s.identities).agents.map fun a => a.reread.spelled) := by
  have hids : ((build now s.identities).agents.map AgentBOM.id).Nodup := by
    have hperm := (List.perm_insertionSort (fun a b : AgentBOM => a.id ≤ b.id)
      ((s.identities.filter Identity.isAgent).map (buildAgent (Index.ofIdentities s.identities)))).map AgentBOM.id
    rw [List.map_map] at hperm
    have hsub : (s.identities.filter Identity.isAgent).Sublist s.identities := List.filter_sublist
    exact hperm.nodup_iff.mpr ((hsub.map Identity.id).nodup s.nodup_identities)
  refine readBOM_json version ?_ (fun a ha => ?_) fun a ha n hn => ?_
  · have hvalid : ∀ a ∈ (build now s.identities).agents, replaceInvalid a.id = a.id := by
      intro a ha
      obtain ⟨i, hi, hagent, rfl⟩ := mem_agents.mp ha
      exact Utf8.replaceInvalid_eq_self (hid i hi hagent)
    rwa [List.map_congr_left hvalid]
  · obtain ⟨i, -, -, rfl⟩ := mem_agents.mp ha
    obtain ⟨rest, hrest⟩ := (traced_walkDelegationChain (Index.ofIdentities s.identities) i.id).head
    rw [buildAgent, hrest]
    rfl
  · obtain ⟨i, -, -, rfl⟩ := mem_agents.mp ha
    -- a name of the blast radius is that of a grant of the graph
    have hmem := (List.perm_insertionSort _ _).mem_iff.mp hn
    obtain ⟨link, -, node, hnode, hname⟩ := (mem_blastRadius _ _ _).mp hmem
    obtain ⟨q, hq, rfl⟩ := List.mem_map.mp hname
    exact hcomma node (List.mem_reverse.mp (Keyed.mem_of_lookup hnode)) q hq

theorem bom_read_back_described :
    readBOM (json (build .zero ((Store.new fun _ => false).run described).identities) "dev") =
      some ((build .zero ((Store.new fun _ => false).run described).identities).agents.map fun a => a.reread.spelled) :=
  bom_read_back .zero "dev" _ (by decide) (by decide)

end Written

end Bom

end Idryx
