import Idryx.Detect.Claimed
import Idryx.Detect.Destination
import Idryx.Detect.UndeclaredLLM

/-!
# The unrouted-egress detector

`internal/detect/detectors/unrouted_egress.go`: agents that an enforcement point governs, and what the
sensor saw of a process that claims to be one of them.

* `governedIn`, `splitEgress`, `agentAlert`, `unroutedEgress`;
* `Governs`, `Refuses`, `ReachesPublic`: what a graph says of an agent;
  **`mem_governedIn`**, **`refused_pos_iff`**, **`mem_publicHosts`**: where the detector finds it;
* **`splitEgress_partition`**: each egress event is counted once;
* **`unroutedEgress_answers`**: one alert for each governed agent, and more evidence never lowers it.
-/

namespace Idryx

open LastWrite

/-! ## The detector -/

/-- The source of the journal of the web-egress plane. -/
def enforcementSource : GoString := "scopyx"

/-- What the enforcement point's journal says about one agent. -/
structure Governance where
  events : ℕ
  refused : ℕ

/-- One more event of the journal. -/
def Governance.add (gv : Governance) (e : Event) : Governance where
  events := gv.events + 1
  refused := if e.type = eventWebBlocked then gv.refused + 1 else gv.refused

/-- One turn of the loop over the events of an identity. -/
def governanceStep (id : GoString) (governed : List (GoString × Governance)) (e : Event) :
    List (GoString × Governance) :=
  if e.source ≠ enforcementSource then governed
  else
    Keyed.upsert Prod.fst id (id, Governance.add ⟨0, 0⟩ e) (fun row => (row.1, row.2.add e)) governed

/-- One turn of the loop over the identities. -/
def governIdentity (governed : List (GoString × Governance)) (id : Identity) :
    List (GoString × Governance) :=
  if isClaimed id.id then governed else id.events.foldl (governanceStep id.id) governed

/-- `governed`: what the enforcement point said, per agent it spoke about. -/
def governedIn (identities : List Identity) : List (GoString × Governance) :=
  identities.foldl governIdentity []

/-- `carriesSensorEvidence`. -/
def carriesSensorEvidence (identities : List Identity) : Bool :=
  identities.any fun id => isClaimed id.id || Strings.hasPrefix id.id AiUsage.identityPrefix

/-- `split`: the observed egress of one governed agent; the hosts judged, and how many connections are
not. -/
structure Split where
  publicHosts : List GoString
  privateCount : ℕ
  llm : ℕ

/-- One turn of the loop over the events. -/
def splitStep (U : Unicode) (sp : Split) (e : Event) : Split :=
  if e.type ≠ eventEgress then sp
  else if (matchLLM U e.resource).isSome then { sp with llm := sp.llm + 1 }
  else
    let host := destinationHost U e.resource
    if !isPublicDestination host then { sp with privateCount := sp.privateCount + 1 }
    else { sp with publicHosts := Groups.insertMember sp.publicHosts host }

/-- The loop over the events of a process, its hosts sorted. -/
def splitEgress (U : Unicode) (id : Identity) : Split :=
  let sp := id.events.foldl (splitStep U) ⟨[], 0, 0⟩
  { sp with publicHosts := Strings.sort sp.publicHosts }

/-- `notJudged`. -/
def notJudged (sp : Split) : GoString :=
  let private_ : List GoString :=
    if 0 < sp.privateCount then
      [Strconv.itoa sp.privateCount ++ (" connection(s) to private, loopback or carrier-NAT ranges not judged (the plane's own address rules refuse those ranges, so they were never its to decide)" : GoString)]
    else []
  let llm : List GoString :=
    if 0 < sp.llm then
      [Strconv.itoa sp.llm ++ (" connection(s) to model APIs left to the shadow-AI detectors, which own that traffic" : GoString)]
    else []
  if private_ ++ llm = [] then [] else ("; " : GoString) ++ Strings.join (private_ ++ llm) ("; " : GoString)

/-- The summary for an agent whose claim carries no connection. -/
def unseenSummary (agent : GoString) (gv : Governance) : GoString :=
  agent ++ (" is governed by the web-egress plane (" : GoString) ++ Strconv.itoa gv.events ++
    (" journal event(s)) and was not judged: no connection the sensor observed carries its claim, so either nothing runs the sensor where it runs, or its process does not declare AGENT_PASSPORT_ID" : GoString)

/-- The texts of the alerts: nothing went around the plane, something did, and something did that it had refused. -/
def routedSummary (agent : GoString) (gv : Governance) (sp : Split) : GoString :=
  ("a process claiming to be " : GoString) ++ agent ++ (" is governed by the web-egress plane (" : GoString) ++
    Strconv.itoa gv.events ++ (" journal event(s)) and no unrouted public egress was found" : GoString) ++ notJudged sp

@[inherit_doc routedSummary]
def unroutedSummary (agent : GoString) (gv : Governance) (sp : Split) (host : GoString) : GoString :=
  ("a process claiming to be " : GoString) ++ agent ++ (" reached " : GoString) ++
    Strconv.itoa sp.publicHosts.length ++ (" public destination(s) directly (e.g. " : GoString) ++ host ++
    (") while that agent's web egress is governed by the plane (" : GoString) ++ Strconv.itoa gv.events ++
    (" journal event(s)): a governed fetch is performed by the enforcement point's own process, so these connections never passed it. Either the agent fetches outside its plane, or something else is using its name" : GoString) ++
    notJudged sp

@[inherit_doc routedSummary]
def refusedSummary (agent : GoString) (gv : Governance) (sp : Split) (host : GoString) : GoString :=
  ("a process claiming to be " : GoString) ++ agent ++ (" was refused by the web-egress plane (" : GoString) ++
    Strconv.itoa gv.refused ++ (" refusal(s) of " : GoString) ++ Strconv.itoa gv.events ++
    (" journal event(s)) and reached " : GoString) ++ Strconv.itoa sp.publicHosts.length ++
    (" public destination(s) directly (e.g. " : GoString) ++ host ++
    ("): connections that never passed the enforcement point that had already said no to this agent" : GoString) ++
    notJudged sp

/-- One turn of the loop over the governed agents. -/
def agentAlert (U : Unicode) (now : Time) (claimed : List (GoString × Identity)) (agent : GoString)
    (gv : Governance) : Alert :=
  match stored claimed agent with
  | none => ⟨"unrouted_egress", agent, .info, now, unseenSummary agent gv⟩
  | some node =>
    let sp := splitEgress U node
    match sp.publicHosts with
    | [] => ⟨"unrouted_egress", node.id, .info, now, routedSummary agent gv sp⟩
    | host :: _ =>
      if 0 < gv.refused then ⟨"unrouted_egress", node.id, .high, now, refusedSummary agent gv sp host⟩
      else ⟨"unrouted_egress", node.id, .medium, now, unroutedSummary agent gv sp host⟩

/-- `UnroutedEgress.Detect`, over the identities the graph returns. -/
def unroutedEgress (U : Unicode) (identities : List Identity) (now : Time) : List Alert :=
  let governed := governedIn identities
  if governed.isEmpty then []
  else if !carriesSensorEvidence identities then []
  else
    let claimed := index claims identities
    let alerts := (Strings.sort (governed.map Prod.fst)).map fun agent =>
      agentAlert U now claimed agent ((stored governed agent).getD ⟨0, 0⟩)
    alerts.insertionSort fun a b => a.identityID ≤ b.identityID

/-! ## What a graph says of an agent -/

/-- The enforcement point spoke about the agent. -/
def Governs (ids : List Identity) (agent : GoString) : Prop :=
  ∃ i ∈ ids, isClaimed i.id = false ∧ i.id = agent ∧ ∃ e ∈ i.events, e.source = enforcementSource

/-- It refused the agent something. -/
def Refuses (ids : List Identity) (agent : GoString) : Prop :=
  ∃ i ∈ ids, isClaimed i.id = false ∧ i.id = agent ∧
    ∃ e ∈ i.events, e.source = enforcementSource ∧ e.type = eventWebBlocked

/-- Model traffic. -/
def ToModel (U : Unicode) (e : Event) : Bool := e.type = eventEgress && (matchLLM U e.resource).isSome

/-- Other egress to a public host. -/
def ToPublic (U : Unicode) (e : Event) : Bool :=
  e.type = eventEgress && !(matchLLM U e.resource).isSome && isPublicDestination (destinationHost U e.resource)

/-- Other egress, to a host that is not public. -/
def ToPrivate (U : Unicode) (e : Event) : Bool :=
  e.type = eventEgress && !(matchLLM U e.resource).isSome && !isPublicDestination (destinationHost U e.resource)

/-- A process that claims to be the agent reached a public host. -/
def ReachesPublic (U : Unicode) (ids : List Identity) (agent : GoString) : Prop :=
  ∃ node ∈ ids, node.id = claimOf agent ∧ ∃ e ∈ node.events, ToPublic U e = true

section Governed

variable {ids : List Identity}

theorem mem_keys_governanceStep {id agent : GoString} (g : List (GoString × Governance)) (e : Event) :
    agent ∈ (governanceStep id g e).map Prod.fst ↔
      agent ∈ g.map Prod.fst ∨ e.source = enforcementSource ∧ id = agent := by
  unfold governanceStep
  split_ifs with h
  · simp [h]
  · rw [Keyed.mem_keys_upsert (by rfl) (by exact fun row hrow => hrow)]
    simp [not_not.mp h, eq_comm]

theorem mem_keys_governIdentity {agent : GoString} (g : List (GoString × Governance)) (id : Identity) :
    agent ∈ (governIdentity g id).map Prod.fst ↔ agent ∈ g.map Prod.fst ∨
      isClaimed id.id = false ∧ id.id = agent ∧ ∃ e ∈ id.events, e.source = enforcementSource := by
  unfold governIdentity
  split_ifs with h
  · simp [h]
  · rw [Loop.foldl_iff (P := fun g : List (GoString × Governance) => agent ∈ g.map Prod.fst)
      mem_keys_governanceStep]
    simp only [Bool.not_eq_true] at h
    simp only [h, true_and]
    grind

/-- **The governed agents** are those the journal names. -/
theorem mem_governedIn {agent : GoString} : agent ∈ (governedIn ids).map Prod.fst ↔ Governs ids agent := by
  rw [governedIn, Loop.foldl_iff (P := fun g : List (GoString × Governance) => agent ∈ g.map Prod.fst)
    mem_keys_governIdentity]
  simp [Governs]

theorem stored_governanceStep {id agent : GoString} (g : List (GoString × Governance)) (e : Event) :
    stored (governanceStep id g e) agent =
      if e.source = enforcementSource ∧ id = agent then some (((stored g agent).getD ⟨0, 0⟩).add e)
      else stored g agent := by
  unfold governanceStep stored
  by_cases hs : e.source = enforcementSource
  · by_cases hid : agent = id
    · subst hid
      rw [if_neg (not_not.mpr hs), if_pos ⟨hs, rfl⟩,
        Keyed.lookup_upsert_self (by rfl) (by exact fun row hrow => hrow)]
      cases Keyed.lookup Prod.fst agent g with
      | none => rfl
      | some row => rfl
    · rw [if_neg (not_not.mpr hs), if_neg fun h => hid h.2.symm,
        Keyed.lookup_upsert_ne (by rfl) (by exact fun row hrow => hrow) hid]
  · rw [if_pos hs, if_neg fun h => hs h.1]

/-- The journal counts a refusal of the agent. -/
def CountsRefusal (agent : GoString) (g : List (GoString × Governance)) : Prop :=
  0 < ((stored g agent).getD ⟨0, 0⟩).refused

theorem countsRefusal_governanceStep {id agent : GoString} (g : List (GoString × Governance)) (e : Event) :
    CountsRefusal agent (governanceStep id g e) ↔ CountsRefusal agent g ∨
      id = agent ∧ e.source = enforcementSource ∧ e.type = eventWebBlocked := by
  unfold CountsRefusal
  rw [stored_governanceStep]
  split_ifs with h
  · rw [Option.getD_some, Governance.add]
    split_ifs with htype
    · simp [h, htype]
    · simp [htype]
  · constructor
    · exact Or.inl
    · rintro (hpos | ⟨hid, hs, -⟩)
      · exact hpos
      · exact absurd ⟨hs, hid⟩ h

theorem countsRefusal_governIdentity {agent : GoString} (g : List (GoString × Governance)) (id : Identity) :
    CountsRefusal agent (governIdentity g id) ↔ CountsRefusal agent g ∨
      isClaimed id.id = false ∧ id.id = agent ∧
        ∃ e ∈ id.events, e.source = enforcementSource ∧ e.type = eventWebBlocked := by
  unfold governIdentity
  split_ifs with h
  · simp [h]
  · rw [Loop.foldl_iff countsRefusal_governanceStep]
    simp only [Bool.not_eq_true] at h
    simp only [h, true_and]
    grind

/-- **The refusals counted** are those of the journal. -/
theorem refused_pos_iff {agent : GoString} : CountsRefusal agent (governedIn ids) ↔ Refuses ids agent := by
  rw [governedIn, Loop.foldl_iff countsRefusal_governIdentity]
  simp [Refuses, CountsRefusal, stored, Keyed.lookup]

theorem nodup_governedIn : ((governedIn ids).map Prod.fst).Nodup := by
  refine List.foldlRecOn (motive := fun g : List (GoString × Governance) => (g.map Prod.fst).Nodup) ids
    governIdentity List.nodup_nil fun g hg id _ => ?_
  unfold governIdentity
  split_ifs
  · exact hg
  · refine List.foldlRecOn (motive := fun g : List (GoString × Governance) => (g.map Prod.fst).Nodup)
      id.events (governanceStep id.id) hg fun g hg e _ => ?_
    unfold governanceStep
    split_ifs
    · exact hg
    · exact Keyed.nodup_upsert (by rfl) (by exact fun row hrow => hrow) hg

end Governed

/-! ## The three kinds of egress -/

section Split

variable {U : Unicode}

theorem splitStep_llm (sp : Split) (e : Event) :
    (splitStep U sp e).llm = sp.llm + if ToModel U e then 1 else 0 := by
  unfold splitStep ToModel
  by_cases ht : e.type = eventEgress <;> by_cases hm : (matchLLM U e.resource).isSome = true
  · simp [ht, hm]
  · simp only [ht, ne_eq, not_true_eq_false, if_false, if_neg hm]
    split_ifs <;> simp_all
  · simp [ht]
  · simp [ht]

theorem splitStep_privateCount (sp : Split) (e : Event) :
    (splitStep U sp e).privateCount = sp.privateCount + if ToPrivate U e then 1 else 0 := by
  unfold splitStep ToPrivate
  by_cases ht : e.type = eventEgress <;> by_cases hm : (matchLLM U e.resource).isSome = true
  · simp [ht, hm]
  · by_cases hp : isPublicDestination (destinationHost U e.resource) = true
    · simp [ht, hm, hp]
    · simp [ht, hm, hp]
  · simp [ht]
  · simp [ht]

theorem mem_splitStep {host : GoString} (sp : Split) (e : Event) :
    host ∈ (splitStep U sp e).publicHosts ↔
      host ∈ sp.publicHosts ∨ ToPublic U e = true ∧ destinationHost U e.resource = host := by
  unfold splitStep ToPublic
  by_cases ht : e.type = eventEgress <;> by_cases hm : (matchLLM U e.resource).isSome = true
  · simp [ht, hm]
  · by_cases hp : isPublicDestination (destinationHost U e.resource) = true
    · simp [ht, hm, hp, Groups.mem_insertMember, eq_comm]
    · simp [ht, hm, hp]
  · simp [ht]
  · simp [ht]

theorem nodup_splitStep {sp : Split} (h : sp.publicHosts.Nodup) (e : Event) :
    (splitStep U sp e).publicHosts.Nodup := by
  unfold splitStep
  dsimp only
  split_ifs
  · exact h
  · exact h
  · exact h
  · exact Groups.nodup_insertMember h _

/-- **The public hosts** are those of the egress that is neither model traffic nor private. -/
theorem mem_publicHosts {id : Identity} {host : GoString} : host ∈ (splitEgress U id).publicHosts ↔
    ∃ e ∈ id.events, ToPublic U e = true ∧ destinationHost U e.resource = host := by
  unfold splitEgress
  dsimp only
  rw [Strings.sort, List.mem_insertionSort,
    Loop.foldl_iff (P := fun sp : Split => host ∈ sp.publicHosts) mem_splitStep]
  simp

/-- How a split counts the egress events of an identity. -/
structure Split.Counts (U : Unicode) (sp : Split) (events : List Event) : Prop where
  /-- Each egress event is of one kind. -/
  one : ∀ e ∈ events, e.type = eventEgress →
    [ToModel U e, ToPrivate U e, ToPublic U e].count true = 1
  llm_eq : sp.llm = events.countP (ToModel U)
  private_eq : sp.privateCount = events.countP (ToPrivate U)
  nodup : sp.publicHosts.Nodup
  mem_iff : ∀ host, host ∈ sp.publicHosts ↔
    ∃ e ∈ events, ToPublic U e = true ∧ destinationHost U e.resource = host
  /-- With the events to one of the hosts, model traffic aside, they are all the egress. -/
  total : sp.llm + sp.privateCount + events.countP (fun e => e.type = eventEgress &&
    !(matchLLM U e.resource).isSome && sp.publicHosts.contains (destinationHost U e.resource)) =
      events.countP fun e => e.type = eventEgress

/-- **The egress of an identity is split without loss or overlap.** -/
theorem splitEgress_partition (U : Unicode) (id : Identity) : (splitEgress U id).Counts U id.events := by
  have hllm : (splitEgress U id).llm = id.events.countP (ToModel U) := by
    change (id.events.foldl (splitStep U) ⟨[], 0, 0⟩).llm = _
    rw [Loop.foldl_countP splitStep_llm, Nat.zero_add]
  have hprivate : (splitEgress U id).privateCount = id.events.countP (ToPrivate U) := by
    change (id.events.foldl (splitStep U) ⟨[], 0, 0⟩).privateCount = _
    rw [Loop.foldl_countP splitStep_privateCount, Nat.zero_add]
  have hpublic : id.events.countP (fun e => e.type = eventEgress && !(matchLLM U e.resource).isSome &&
      (splitEgress U id).publicHosts.contains (destinationHost U e.resource)) =
        id.events.countP (ToPublic U) := by
    refine List.countP_congr fun e he => ?_
    simp only [Bool.and_eq_true, List.contains_iff_mem, mem_publicHosts, ToPublic]
    constructor
    · rintro ⟨h, e', -, h', hhost⟩
      exact ⟨h, hhost ▸ h'.2⟩
    · rintro ⟨h, hpub⟩
      exact ⟨h, e, he, ⟨h, hpub⟩, rfl⟩
  have hkinds (es : List Event) : es.countP (ToModel U) + es.countP (ToPrivate U) + es.countP (ToPublic U) =
      es.countP fun e => e.type = eventEgress := by
    induction es with
    | nil => rfl
    | cons e es ih =>
      have hone : (if ToModel U e = true then 1 else 0) + (if ToPrivate U e = true then 1 else 0) +
          (if ToPublic U e = true then 1 else 0) = if e.type = eventEgress then 1 else 0 := by
        unfold ToModel ToPrivate ToPublic
        by_cases ht : e.type = eventEgress <;> cases (matchLLM U e.resource).isSome <;>
          cases isPublicDestination (destinationHost U e.resource) <;> simp [ht]
      simp only [List.countP_cons, decide_eq_true_eq]
      omega
  refine ⟨fun e _ ht => ?_, hllm, hprivate, ?_, fun host => mem_publicHosts, ?_⟩
  · unfold ToModel ToPrivate ToPublic
    cases (matchLLM U e.resource).isSome <;>
      cases isPublicDestination (destinationHost U e.resource) <;> simp [ht]
  · refine (List.perm_insertionSort _ _).nodup_iff.mpr ?_
    exact List.foldlRecOn (motive := fun sp : Split => sp.publicHosts.Nodup) id.events (splitStep U)
      List.nodup_nil fun sp hsp e _ => nodup_splitStep hsp e
  · rw [hllm, hprivate, hpublic, hkinds]

end Split

/-! ## One answer for each governed agent -/

section Answers

variable {U : Unicode} {now : Time} {ids : List Identity} {agent : GoString} {gv : Governance}

theorem identityID_agentAlert (hn : (ids.map Identity.id).Nodup) :
    (∀ node ∈ ids, node.id = claimOf agent →
      (agentAlert U now (index claims ids) agent gv).identityID = claimOf agent) ∧
    ((∀ node ∈ ids, node.id ≠ claimOf agent) →
      (agentAlert U now (index claims ids) agent gv).identityID = agent) := by
  unfold agentAlert
  constructor
  · intro node hnode hid
    rw [(stored_claims_iff hn).mpr ⟨hnode, hid⟩]
    dsimp only
    cases (splitEgress U node).publicHosts with
    | nil => exact hid
    | cons host hosts =>
      dsimp only
      split_ifs
      · exact hid
      · exact hid
  · intro hno
    have hnone : stored (index claims ids) agent = none := by
      rw [Option.eq_none_iff_forall_ne_some]
      intro node hnode
      obtain ⟨hmem, hid⟩ := (stored_claims_iff hn).mp hnode
      exact hno node hmem hid
    rw [hnone]

theorem claimedName_agentAlert (hn : (ids.map Identity.id).Nodup) (ha : isClaimed agent = false) :
    claimedName (agentAlert U now (index claims ids) agent gv).identityID = agent := by
  by_cases hnode : ∃ node ∈ ids, node.id = claimOf agent
  · obtain ⟨node, hnode, hid⟩ := hnode
    rw [(identityID_agentAlert hn).1 node hnode hid, claimedName_claimOf]
  · rw [(identityID_agentAlert hn).2 fun node hmem hid => hnode ⟨node, hmem, hid⟩, claimedName_of_not ha]

open Classical in
theorem severity_agentAlert (hn : (ids.map Identity.id).Nodup) (hgv : 0 < gv.refused ↔ Refuses ids agent) :
    (agentAlert U now (index claims ids) agent gv).severity =
      if ReachesPublic U ids agent then if Refuses ids agent then .high else .medium else .info := by
  have hreach {node : Identity} (hnode : node ∈ ids) (hid : node.id = claimOf agent) :
      ReachesPublic U ids agent ↔ (splitEgress U node).publicHosts ≠ [] := by
    constructor
    · rintro ⟨node', hnode', hid', e, he, hpub⟩
      obtain rfl := eq_of_id_eq hn hnode' hnode (hid'.trans hid.symm)
      exact List.ne_nil_of_mem (mem_publicHosts.mpr ⟨e, he, hpub, rfl⟩)
    · intro hne
      obtain ⟨host, hhost⟩ := List.exists_mem_of_ne_nil _ hne
      obtain ⟨e, he, hpub, -⟩ := mem_publicHosts.mp hhost
      exact ⟨node, hnode, hid, e, he, hpub⟩
  unfold agentAlert
  cases hnode : stored (index claims ids) agent with
  | none =>
    have hno : ¬ ReachesPublic U ids agent := by
      rintro ⟨node, hmem, hid, -⟩
      rw [(stored_claims_iff hn).mpr ⟨hmem, hid⟩] at hnode
      exact nomatch hnode
    rw [if_neg hno]
  | some node =>
    obtain ⟨hmem, hid⟩ := (stored_claims_iff hn).mp hnode
    dsimp only
    cases hhosts : (splitEgress U node).publicHosts with
    | nil => rw [if_neg fun h => (hreach hmem hid).mp h hhosts]
    | cons host hosts =>
      rw [if_pos ((hreach hmem hid).mpr (by simp [hhosts]))]
      dsimp only
      by_cases hr : 0 < gv.refused
      · rw [if_pos hr, if_pos (hgv.mp hr)]
      · rw [if_neg hr, if_neg fun h => hr (hgv.mpr h)]

theorem Governs.not_claimed (h : Governs ids agent) : isClaimed agent = false := by
  obtain ⟨i, -, hi, rfl, -⟩ := h
  exact hi

/-- What the detector makes of an agent. -/
def answer (U : Unicode) (ids : List Identity) (now : Time) (agent : GoString) : Alert :=
  agentAlert U now (index claims ids) agent ((stored (governedIn ids) agent).getD ⟨0, 0⟩)

theorem unroutedEgress_perm (hs : carriesSensorEvidence ids = true) :
    (unroutedEgress U ids now).Perm (((governedIn ids).map Prod.fst).map (answer U ids now)) := by
  unfold unroutedEgress
  dsimp only
  split_ifs with hempty hno
  · rw [List.isEmpty_iff.mp hempty]
    exact List.Perm.refl _
  · simp [hs] at hno
  · exact (List.perm_insertionSort _ _).trans ((List.perm_insertionSort _ _).map _)

theorem filter_unroutedEgress (U : Unicode) (now : Time) (hn : (ids.map Identity.id).Nodup)
    (hs : carriesSensorEvidence ids = true) (agent : GoString) :
    ((unroutedEgress U ids now).filter fun al => claimedName al.identityID = agent).Perm
      ((((governedIn ids).map Prod.fst).filter fun k => k = agent).map (answer U ids now)) := by
  refine ((unroutedEgress_perm hs).filter _).trans ?_
  rw [List.filter_map]
  refine List.Perm.of_eq (congrArg _ (List.filter_congr fun k hk => ?_))
  have hclaimed := (mem_governedIn.mp hk).not_claimed
  simp only [Function.comp_apply, answer, claimedName_agentAlert hn hclaimed]

/-- A graph with all the events of another, and perhaps more. -/
def Grows (ids ids' : List Identity) : Prop :=
  ∀ i ∈ ids, ∃ i' ∈ ids', i'.id = i.id ∧ i.events ⊆ i'.events

theorem Grows.governs {ids' : List Identity} (h : Grows ids ids') (hg : Governs ids agent) :
    Governs ids' agent := by
  obtain ⟨i, hi, hclaimed, rfl, e, he, hsource⟩ := hg
  obtain ⟨i', hi', hid, hsub⟩ := h i hi
  exact ⟨i', hi', hid ▸ hclaimed, hid, e, hsub he, hsource⟩

theorem Grows.refuses {ids' : List Identity} (h : Grows ids ids') (hr : Refuses ids agent) :
    Refuses ids' agent := by
  obtain ⟨i, hi, hclaimed, rfl, e, he, hblocked⟩ := hr
  obtain ⟨i', hi', hid, hsub⟩ := h i hi
  exact ⟨i', hi', hid ▸ hclaimed, hid, e, hsub he, hblocked⟩

theorem Grows.reachesPublic {ids' : List Identity} (h : Grows ids ids') (hr : ReachesPublic U ids agent) :
    ReachesPublic U ids' agent := by
  obtain ⟨node, hnode, hid, e, he, hpub⟩ := hr
  obtain ⟨node', hnode', hid', hsub⟩ := h node hnode
  exact ⟨node', hnode', hid'.trans hid, e, hsub he, hpub⟩

theorem Grows.carriesSensorEvidence {ids' : List Identity} (h : Grows ids ids')
    (hs : carriesSensorEvidence ids = true) : carriesSensorEvidence ids' = true := by
  obtain ⟨i, hi, hshape⟩ := List.any_eq_true.mp hs
  obtain ⟨i', hi', hid, -⟩ := h i hi
  exact List.any_eq_true.mpr ⟨i', hi', hid ▸ hshape⟩

theorem severity_answer (hn : (ids.map Identity.id).Nodup) : open Classical in
    (answer U ids now agent).severity =
      if ReachesPublic U ids agent then if Refuses ids agent then .high else .medium else .info :=
  severity_agentAlert hn refused_pos_iff

/-- **Every governed agent is answered for exactly once.** In a graph with sensor evidence there is one
alert for each agent the enforcement point spoke about, on the claim to be it if there is one, and none
for anybody else; the egress of a claim is split without loss or overlap; and in a graph with more events
the agent's alert is there with no lower severity. -/
theorem unroutedEgress_answers (U : Unicode) (now : Time) {ids : List Identity}
    (hn : (ids.map Identity.id).Nodup) (hs : carriesSensorEvidence ids = true) :
    (∀ agent, Governs ids agent → ∃ al,
      (unroutedEgress U ids now).filter (fun al => claimedName al.identityID = agent) = [al] ∧
      (∀ node ∈ ids, node.id = claimOf agent → al.identityID = node.id) ∧
      ((∀ node ∈ ids, node.id ≠ claimOf agent) → al.identityID = agent)) ∧
    (∀ agent, ¬ Governs ids agent →
      (unroutedEgress U ids now).filter (fun al => claimedName al.identityID = agent) = []) ∧
    (∀ agent, ∀ node ∈ ids, node.id = claimOf agent → (splitEgress U node).Counts U node.events) ∧
    ∀ ids' now', (ids'.map Identity.id).Nodup → Grows ids ids' → ∀ al ∈ unroutedEgress U ids now,
      ∃ al' ∈ unroutedEgress U ids' now', claimedName al'.identityID = claimedName al.identityID ∧
        al.severity.rank ≤ al'.severity.rank := by
  refine ⟨fun agent hg => ?_, fun agent hg => ?_, fun _ node _ _ => splitEgress_partition U node, ?_⟩
  · have hperm := filter_unroutedEgress U now hn hs agent
    have hnodup : (((governedIn ids).map Prod.fst).map fun k => k).Nodup := by
      rw [List.map_id']
      exact nodup_governedIn
    have hkeys : ((governedIn ids).map Prod.fst).filter (fun k => k = agent) = [agent] :=
      Keyed.filter_key_eq_singleton hnodup (Keyed.lookup_of_mem hnodup (mem_governedIn.mpr hg))
    rw [hkeys, List.map_singleton] at hperm
    refine ⟨answer U ids now agent, List.perm_singleton.mp hperm, ?_, (identityID_agentAlert hn).2⟩
    intro node hnode hid
    exact ((identityID_agentAlert hn).1 node hnode hid).trans hid.symm
  · have hperm := filter_unroutedEgress U now hn hs agent
    have hkeys : ((governedIn ids).map Prod.fst).filter (fun k => k = agent) = [] := by
      rw [List.filter_eq_nil_iff]
      intro k hk hka
      exact hg (mem_governedIn.mp (of_decide_eq_true hka ▸ hk))
    rw [hkeys, List.map_nil] at hperm
    exact hperm.eq_nil
  · intro ids' now' hn' hgrows al hal
    obtain ⟨agent, hagent, rfl⟩ := List.mem_map.mp ((unroutedEgress_perm hs).mem_iff.mp hal)
    have hg := mem_governedIn.mp hagent
    have hg' := hgrows.governs hg
    refine ⟨answer U ids' now' agent, ?_, ?_, ?_⟩
    · rw [(unroutedEgress_perm (hgrows.carriesSensorEvidence hs)).mem_iff]
      exact List.mem_map_of_mem (mem_governedIn.mpr hg')
    · rw [answer, answer, claimedName_agentAlert hn' hg'.not_claimed, claimedName_agentAlert hn hg.not_claimed]
    · rw [severity_answer hn, severity_answer hn']
      by_cases hr : ReachesPublic U ids agent
      · rw [if_pos hr, if_pos (hgrows.reachesPublic hr)]
        by_cases hb : Refuses ids agent
        · rw [if_pos hb, if_pos (hgrows.refuses hb)]
        · rw [if_neg hb]
          split_ifs <;> decide
      · rw [if_neg hr]
        split_ifs <;> decide

end Answers

/-! ## A host written in two ways -/

/-- A connection to a destination. -/
def egressTo (resource : GoString) : Event :=
  ⟨Time.zero, [], eventEgress, [], [], [], [], ⟨0⟩, ⟨0⟩, [], resource, [], []⟩

/-- What the enforcement point writes when it refuses. -/
def refusal : Event := { egressTo [] with type := eventWebBlocked, source := enforcementSource }

/-- A process that claims to be a bot and asked for a model API twice, once with brackets around the name:
the matcher does not see through them. -/
def claimedBot : Identity :=
  { Identity.zero "claimed:bot" with events := [egressTo "api.openai.com:443", egressTo "[api.openai.com]:443"] }

/-- The two kinds are counted once each, but both events have a host that is listed as public. -/
theorem public_host_of_model_traffic :
    (splitEgress Unicode.basic claimedBot).llm + (splitEgress Unicode.basic claimedBot).privateCount +
      claimedBot.events.countP (fun e => e.type = eventEgress &&
        (splitEgress Unicode.basic claimedBot).publicHosts.contains
          (destinationHost Unicode.basic e.resource)) ≠
    claimedBot.events.countP fun e => e.type = eventEgress := by
  decide +kernel

theorem unroutedEgress_answers_claimedBot : ∃ al,
    (unroutedEgress Unicode.basic [{ Identity.zero "bot" with events := [refusal] }, claimedBot]
      Time.zero).filter (fun al => claimedName al.identityID = "bot") = [al] :=
  ((unroutedEgress_answers Unicode.basic Time.zero (by decide) (by decide)).1 "bot"
    ⟨_, List.mem_cons_self, by decide, rfl, refusal, List.mem_cons_self, rfl⟩).imp fun _ h => h.1

end Idryx
