import Idryx.Lib.LastWrite
import Idryx.Lib.Loop
import Idryx.Lib.Totals
import Idryx.Model

/-!
# Unsanctioned MCP servers and the agents wired to them

`internal/detect/detectors/shadow_mcp.go` and `agent_shadow_tool.go`.

* `shadowMCP`; `shadowTools`, `wiredStep`, `toolAlert`, `agentShadowTool`;
* `Exposes`: an unsanctioned server of the graph exposes a tool; `exposed_iff`, `risky_iff`: what the map of
  tools says;
* **`agentShadowTool_exact`**: which agents are alerted on, how severely, and that every tool named in an alert
  leads to a server that `shadowMCP` alerts on, as severely if the tool is a high-risk one there.
-/

namespace Idryx

open LastWrite

/-! ## The detectors -/

/-- An MCP server in use that nobody sanctioned. -/
def Identity.isShadowServer (i : Identity) : Bool := i.type == identityMCPServer && i.shadow

/-- The alert on a server. -/
def shadowReport (now : Time) (id : Identity) : Alert where
  detector := "shadow_mcp"
  identityID := id.id
  severity := if id.hasAdmin then .critical else .high
  time := now
  summary :=
    if id.hasAdmin then "unsanctioned MCP server exposes high-risk tools (shadow MCP + tool poisoning)"
    else "unsanctioned MCP server in use (shadow MCP)"

/-- `ShadowMCP.Detect`, over the identities the graph returns. -/
def shadowMCP (ids : List Identity) (now : Time) : List Alert :=
  ids.filterMap fun id => if !id.isShadowServer then none else some (shadowReport now id)

/-- One turn of the loop over the permissions of a server: `shadowTools[p.Name] || p.Admin`. -/
def toolStep (tools : List (GoString × Bool)) (p : Permission) : List (GoString × Bool) :=
  Totals.put or tools p.name p.admin

/-- One turn of the loop over the identities. -/
def serverStep (tools : List (GoString × Bool)) (id : Identity) : List (GoString × Bool) :=
  if !id.isShadowServer then tools else id.permissions.foldl toolStep tools

/-- `shadowTools`: the tools of the unsanctioned servers, each with whether it is high-risk. -/
def shadowTools (ids : List Identity) : List (GoString × Bool) := ids.foldl serverStep []

/-- One turn of the loop over the permissions of an agent: the tools matched, and whether one is high-risk. -/
def wiredStep (tools : List (GoString × Bool)) (st : List GoString × Bool) (p : Permission) : List GoString × Bool :=
  match stored tools p.name with
  | none => st
  | some hr => (st.1 ++ [p.name], if hr || p.admin then true else st.2)

/-- What `agent_shadow_tool` makes of one identity. -/
def toolAlert (now : Time) (tools : List (GoString × Bool)) (id : Identity) : Option Alert :=
  if !id.isAgent then none
  else
    let (matched, risky) := id.permissions.foldl (wiredStep tools) ([], false)
    if matched.isEmpty then none
    else some
      { detector := "agent_shadow_tool"
        identityID := id.id
        severity := if risky then .critical else .high
        time := now
        summary := ("agent uses tool(s) from an unsanctioned MCP server: " : GoString) ++
          Strings.join (Strings.sort matched) ", " }

/-- `AgentShadowTool.Detect`. -/
def agentShadowTool (ids : List Identity) (now : Time) : List Alert :=
  let tools := shadowTools ids
  if tools.isEmpty then [] else ids.filterMap (toolAlert now tools)

/-! ## The map of tools -/

/-- The server exposes the tool, as `q` says. -/
def Exposes (ids : List Identity) (server : Identity) (q : Permission) : Prop :=
  server ∈ ids ∧ server.isShadowServer = true ∧ q ∈ server.permissions

section Tools

variable {ids : List Identity} {name : GoString}

theorem mem_keys_serverStep (tools : List (GoString × Bool)) (id : Identity) :
    name ∈ (serverStep tools id).map Prod.fst ↔
      name ∈ tools.map Prod.fst ∨ id.isShadowServer = true ∧ ∃ q ∈ id.permissions, q.name = name := by
  unfold serverStep
  cases hserver : id.isShadowServer with
  | false => simp
  | true =>
    have hstep : ∀ (tools : List (GoString × Bool)) (p : Permission),
        name ∈ (toolStep tools p).map Prod.fst ↔ name ∈ tools.map Prod.fst ∨ p.name = name := by
      intro tools p
      rw [toolStep, Totals.mem_keys_put, eq_comm]
    rw [Bool.not_true, if_neg Bool.false_ne_true,
      Loop.foldl_iff (P := fun tools : List (GoString × Bool) => name ∈ tools.map Prod.fst) hstep]
    simp

/-- **The tools of the map** are those that an unsanctioned server exposes. -/
theorem exposed_iff : (stored (shadowTools ids) name).isSome = true ↔ ∃ s q, Exposes ids s q ∧ q.name = name := by
  have hkeys : (stored (shadowTools ids) name).isSome = true ↔ name ∈ (shadowTools ids).map Prod.fst := by
    rw [stored, Option.isSome_map, Option.isSome_iff_ne_none, ne_eq, Keyed.lookup_eq_none, not_not]
  rw [hkeys, shadowTools,
    Loop.foldl_iff (P := fun tools : List (GoString × Bool) => name ∈ tools.map Prod.fst) mem_keys_serverStep]
  simp only [List.map_nil, List.not_mem_nil, false_or]
  constructor
  · rintro ⟨s, hs, hserver, q, hq, hname⟩
    exact ⟨s, q, ⟨hs, hserver, hq⟩, hname⟩
  · rintro ⟨s, q, ⟨hs, hserver, hq⟩, hname⟩
    exact ⟨s, hs, hserver, q, hq, hname⟩

theorem stored_toolStep (tools : List (GoString × Bool)) (p : Permission) :
    stored (toolStep tools p) name = some true ↔
      stored tools name = some true ∨ p.name = name ∧ p.admin = true := by
  unfold toolStep Totals.put stored
  by_cases hname : p.name = name
  · rw [hname, Keyed.lookup_upsert_self (by rfl) (by exact fun row hrow => hrow)]
    cases Keyed.lookup Prod.fst name tools with
    | none => simp
    | some row => cases hrow : row.2 <;> simp [hrow]
  · rw [Keyed.lookup_upsert_ne (by rfl) (by exact fun row hrow => hrow) (Ne.symm hname)]
    simp [hname]

/-- **The high-risk tools of the map** are those that are so at some unsanctioned server. -/
theorem risky_iff : stored (shadowTools ids) name = some true ↔
    ∃ s q, Exposes ids s q ∧ q.name = name ∧ q.admin = true := by
  have hstep : ∀ (tools : List (GoString × Bool)) (id : Identity), stored (serverStep tools id) name = some true ↔
      stored tools name = some true ∨
        id.isShadowServer = true ∧ ∃ q ∈ id.permissions, q.name = name ∧ q.admin = true := by
    intro tools id
    unfold serverStep
    cases hserver : id.isShadowServer with
    | false => simp
    | true =>
      rw [Bool.not_true, if_neg Bool.false_ne_true,
        Loop.foldl_iff (P := fun tools : List (GoString × Bool) => stored tools name = some true) stored_toolStep]
      simp
  rw [shadowTools,
    Loop.foldl_iff (P := fun tools : List (GoString × Bool) => stored tools name = some true) hstep]
  constructor
  · rintro (h | ⟨s, hs, hserver, q, hq, hname⟩)
    · cases h
    · exact ⟨s, q, ⟨hs, hserver, hq⟩, hname⟩
  · rintro ⟨s, q, ⟨hs, hserver, hq⟩, hname⟩
    exact Or.inr ⟨s, hs, hserver, q, hq, hname⟩

end Tools

/-! ## Who is alerted on -/

/-- The tools of an agent that an unsanctioned server of the graph exposes. -/
def wired (ids : List Identity) (i : Identity) : List Permission :=
  i.permissions.filter fun p => (stored (shadowTools ids) p.name).isSome

theorem foldl_wiredStep (ids : List Identity) (ps : List Permission) (st : List GoString × Bool) :
    ps.foldl (wiredStep (shadowTools ids)) st =
      (st.1 ++ (ps.filter fun p => (stored (shadowTools ids) p.name).isSome).map Permission.name,
        st.2 || (ps.filter fun p => (stored (shadowTools ids) p.name).isSome).any fun p =>
          stored (shadowTools ids) p.name == some true || p.admin) := by
  induction ps generalizing st with
  | nil => simp
  | cons p ps ih =>
    rw [List.foldl_cons, ih, wiredStep]
    cases htool : stored (shadowTools ids) p.name with
    | none => rw [List.filter_cons_of_neg (by simp [htool])]
    | some hr =>
      rw [List.filter_cons_of_pos (by simp [htool]), List.map_cons, List.any_cons, htool, ← Bool.or_assoc,
        List.append_assoc]
      cases hr <;> cases p.admin <;> simp

/-- The alert on an agent with wired tools. -/
structure ToolFinding (ids : List Identity) (now : Time) (i : Identity) (a : Alert) : Prop where
  detector : a.detector = "agent_shadow_tool"
  identityID : a.identityID = i.id
  time : a.time = now
  severity : a.severity = .critical ∨ a.severity = .high
  critical : a.severity = .critical ↔
    ∃ p ∈ i.permissions, ∃ s q, Exposes ids s q ∧ q.name = p.name ∧ (q.admin = true ∨ p.admin = true)
  summary : a.summary = ("agent uses tool(s) from an unsanctioned MCP server: " : GoString) ++
    Strings.join (Strings.sort ((wired ids i).map Permission.name)) ", "

theorem mem_wired {ids : List Identity} {i : Identity} {p : Permission} :
    p ∈ wired ids i ↔ p ∈ i.permissions ∧ ∃ s q, Exposes ids s q ∧ q.name = p.name := by
  rw [wired, List.mem_filter, exposed_iff]

theorem toolAlert_spec (ids : List Identity) (now : Time) (i : Identity) :
    (∃ a, toolAlert now (shadowTools ids) i = some a) ↔ i.isAgent = true ∧ wired ids i ≠ [] := by
  unfold toolAlert
  rw [foldl_wiredStep]
  cases i.isAgent with
  | false => simp
  | true => simp [wired]

theorem toolAlert_finding {ids : List Identity} {now : Time} {i : Identity} {a : Alert}
    (ha : toolAlert now (shadowTools ids) i = some a) : ToolFinding ids now i a := by
  have hrisky : ((wired ids i).any fun p => stored (shadowTools ids) p.name == some true || p.admin) = true ↔
      ∃ p ∈ i.permissions, ∃ s q, Exposes ids s q ∧ q.name = p.name ∧ (q.admin = true ∨ p.admin = true) := by
    rw [List.any_eq_true]
    constructor
    · rintro ⟨p, hp, hrisk⟩
      obtain ⟨hmem, s, q, hexposes, hname⟩ := mem_wired.mp hp
      rw [Bool.or_eq_true, beq_iff_eq, risky_iff] at hrisk
      rcases hrisk with ⟨s', q', hexposes', hname', hadmin⟩ | hadmin
      · exact ⟨p, hmem, s', q', hexposes', hname', Or.inl hadmin⟩
      · exact ⟨p, hmem, s, q, hexposes, hname, Or.inr hadmin⟩
    · rintro ⟨p, hmem, s, q, hexposes, hname, hadmin⟩
      refine ⟨p, mem_wired.mpr ⟨hmem, s, q, hexposes, hname⟩, ?_⟩
      rw [Bool.or_eq_true, beq_iff_eq, risky_iff]
      exact hadmin.imp (fun h => ⟨s, q, hexposes, hname, h⟩) id
  unfold toolAlert at ha
  rw [foldl_wiredStep] at ha
  dsimp only at ha
  split_ifs at ha with hagent hnone hrisk
  · rw [Bool.false_or] at hrisk
    rw [← Option.some.inj ha]
    exact ⟨rfl, rfl, rfl, Or.inl rfl, iff_of_true rfl (hrisky.mp hrisk), rfl⟩
  · rw [Bool.false_or] at hrisk
    rw [← Option.some.inj ha]
    exact ⟨rfl, rfl, rfl, Or.inr rfl, iff_of_false Severity.noConfusion fun h => hrisk (hrisky.mpr h), rfl⟩

theorem mem_agentShadowTool {ids : List Identity} {now : Time} {a : Alert} :
    a ∈ agentShadowTool ids now ↔ ∃ i ∈ ids, toolAlert now (shadowTools ids) i = some a := by
  unfold agentShadowTool
  dsimp only
  split_ifs with hempty
  · refine iff_of_false List.not_mem_nil ?_
    rintro ⟨i, -, ha⟩
    have hwired := ((toolAlert_spec ids now i).mp ⟨a, ha⟩).2
    rw [wired, List.isEmpty_iff.mp hempty] at hwired
    exact hwired (List.filter_eq_nil_iff.mpr fun p _ => by simp [stored, Keyed.lookup])
  · exact List.mem_filterMap

/-- **The path of a poisoned tool**: an agent is alerted on exactly if it has a tool that an unsanctioned server
of the graph exposes, as critical exactly if such a tool is high-risk on either side; the alert names these tools
and no other, and each is one of a server that is alerted on itself, as critical if the tool is high-risk there. -/
theorem agentShadowTool_exact (ids : List Identity) (now : Time) :
    (∀ i ∈ ids, (i.isAgent = true ∧ ∃ p ∈ i.permissions, ∃ s q, Exposes ids s q ∧ q.name = p.name) →
      ∃ a ∈ agentShadowTool ids now, a.identityID = i.id ∧ ToolFinding ids now i a) ∧
    (∀ a ∈ agentShadowTool ids now, ∃ i ∈ ids, i.isAgent = true ∧ ToolFinding ids now i a ∧ wired ids i ≠ []) ∧
    (∀ i p, p ∈ wired ids i ↔ p ∈ i.permissions ∧ ∃ server q, Exposes ids server q ∧ q.name = p.name) ∧
    (∀ i, ∀ p ∈ wired ids i, ∃ server q, Exposes ids server q ∧ q.name = p.name ∧
      shadowReport now server ∈ shadowMCP ids now) ∧
    ∀ server q, Exposes ids server q → shadowReport now server ∈ shadowMCP ids now ∧
      (q.admin = true → (shadowReport now server).severity = .critical) := by
  have hshadow : ∀ server q, Exposes ids server q → shadowReport now server ∈ shadowMCP ids now := by
    rintro server q ⟨hmem, hserver, -⟩
    refine List.mem_filterMap.mpr ⟨server, hmem, ?_⟩
    rw [hserver]
    rfl
  refine ⟨?_, ?_, fun _ _ => mem_wired, ?_, ?_⟩
  · rintro i hi ⟨hagent, p, hp, hexposed⟩
    obtain ⟨a, ha⟩ := (toolAlert_spec ids now i).mpr ⟨hagent, List.ne_nil_of_mem (mem_wired.mpr ⟨hp, hexposed⟩)⟩
    exact ⟨a, mem_agentShadowTool.mpr ⟨i, hi, ha⟩, (toolAlert_finding ha).identityID, toolAlert_finding ha⟩
  · intro a ha
    obtain ⟨i, hi, hai⟩ := mem_agentShadowTool.mp ha
    obtain ⟨hagent, hwired⟩ := (toolAlert_spec ids now i).mp ⟨a, hai⟩
    exact ⟨i, hi, hagent, toolAlert_finding hai, hwired⟩
  · intro i p hp
    obtain ⟨-, s, q, hexposes, hname⟩ := mem_wired.mp hp
    exact ⟨s, q, hexposes, hname, hshadow s q hexposes⟩
  · intro server q hexposes
    refine ⟨hshadow server q hexposes, fun hadmin => ?_⟩
    have hhas : server.hasAdmin = true := List.any_eq_true.mpr ⟨q, hexposes.2.2, hadmin⟩
    rw [shadowReport, if_pos hhas]

end Idryx
