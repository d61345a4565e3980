import Idryx.Detect.Beaconing
import Idryx.Detect.BehaviorAnomaly
import Idryx.Detect.Blocked
import Idryx.Detect.ExcessiveAgency
import Idryx.Detect.ImpossibleTravel
import Idryx.Detect.LeastPrivilege
import Idryx.Detect.MFAFatigue
import Idryx.Detect.PrivilegeEscalation
import Idryx.Detect.ShadowAI
import Idryx.Detect.ShadowMCP
import Idryx.Detect.Standing
import Idryx.Detect.UnroutedEgress

/-!
# All detectors

`runDetectors`, `cmd/idryx/main.go`: the detectors in order, each over the same graph, and their alerts one after
another.

* `World`: what they read besides the graph; `detectors`, `runDetectors`;
* `Detector.Honest`: a detector returns, signs its alerts and raises them on identities of the graph;
  `honest_detectors`;
* **`runDetectors_exact`**: no alert is lost, added, doubled or ascribed to another detector.
-/

namespace Idryx

/-! ## The run -/

/-- What the detectors read besides the graph; each has its own reading of the clock. -/
structure World where
  unicode : Unicode
  geo : Geo
  durations : Durations
  days : Remediation.Ages
  clock : GoString → Time

/-- One in which nothing is far and no time passes. -/
def World.still : World := ⟨Unicode.basic, ⟨fun _ _ _ _ => 0, fun _ _ => ""⟩, .exact, fun _ => 0, fun _ => .seconds 7⟩

/-- A detector, by the name it signs with; `none` where it does not return. -/
structure Detector where
  name : GoString
  detect : List Identity → Option (List Alert)

/-- The detectors in the order they run in. -/
def detectors (W : World) : List Detector :=
  let U := W.unicode
  let total (name : GoString) (detect : List Identity → Time → List Alert) : Detector :=
    ⟨name, fun ids => some (detect ids (W.clock name))⟩
  [total "impossible_travel" fun ids _ => impossibleTravel W.geo ids,
    ⟨"mfa_fatigue", mfaFatigue⟩,
    total "new_device" fun ids _ => newDevice U ids,
    total "behavior_anomaly" fun ids _ => behaviorAnomaly ids,
    total "stale_nhi" (staleNHI W.days),
    total "over_privileged_nhi" overPrivilegedNHI,
    total "orphaned_nhi" orphanedNHI,
    total "excessive_agency" excessiveAgency,
    total "shadow_ai" (shadowAI U),
    total "least_privilege" leastPrivilege,
    total "privilege_escalation" (privilegeEscalation U),
    total "shared_credential" sharedCredential,
    total "shadow_mcp" shadowMCP,
    total "agent_shadow_tool" agentShadowTool,
    total "runaway_agent" runawayAgent,
    total "attestation_missing" attestationMissing,
    total "bom_incomplete" bomIncomplete,
    total "data_exfiltration" dataExfiltration,
    total "tainted_agent" taintedAgent,
    total "mcp_drift" mcpDrift,
    total "unmanaged_egress" (unmanagedEgress U),
    total "beaconing" fun ids now => beaconing W.durations U now ids,
    total "claimed_agent_unknown" (claimedAgentUnknown U),
    total "claimed_agent_drift" (claimedAgentDrift U),
    total "undeclared_llm" (undeclaredLLM U),
    total "unrouted_egress" (unroutedEgress U),
    total "claimed_agent_unattested" claimedAgentUnattested]

/-- One turn of the loop over the detectors. -/
def detectStep (ids : List Identity) (alerts : Option (List Alert)) (d : Detector) : Option (List Alert) :=
  alerts.bind fun alerts => (d.detect ids).map (alerts ++ ·)

/-- `runDetectors`, over the identities the graph returns. -/
def runDetectors (W : World) (ids : List Identity) : Option (List Alert) :=
  (detectors W).foldl (detectStep ids) (some [])

/-! ## What a detector signs -/

/-- The alert is signed so, and raised on the identity. -/
def Alert.On (a : Alert) (name : GoString) (i : Identity) : Prop := a.detector = name ∧ a.identityID = i.id

/-- The detector returns, and every alert of it is signed by it and raised on an identity of the graph. -/
def Detector.Honest (d : Detector) : Prop :=
  ∀ ids, ∃ alerts, d.detect ids = some alerts ∧ ∀ a ∈ alerts, ∃ i ∈ ids, a.On d.name i

section Honest

variable {name : GoString} {ids : List Identity} {U : Unicode} {now : Time} {i : Identity} {a : Alert}

theorem on_of_filterMap {f : Identity → Option Alert} (h : ∀ i a, f i = some a → a.On name i) :
    ∀ a ∈ ids.filterMap f, ∃ i ∈ ids, a.On name i := by
  intro a ha
  obtain ⟨i, hi, hfi⟩ := List.mem_filterMap.mp ha
  exact ⟨i, hi, h i a hfi⟩

theorem on_of_flatMap {f : Identity → List Alert} (h : ∀ i, ∀ a ∈ f i, a.On name i) :
    ∀ a ∈ ids.flatMap f, ∃ i ∈ ids, a.On name i := by
  intro a ha
  obtain ⟨i, hi, hfi⟩ := List.mem_flatMap.mp ha
  exact ⟨i, hi, h i a hfi⟩

theorem on_of_sorted {r : Alert → Alert → Prop} [DecidableRel r] {alerts : List Alert}
    (h : ∀ a ∈ alerts, ∃ i ∈ ids, a.On name i) : ∀ a ∈ alerts.insertionSort r, ∃ i ∈ ids, a.On name i :=
  fun a ha => h a ((List.mem_insertionSort r).mp ha)

theorem on_of_foldl {σ : Type} {f : σ → Event → σ} (alerts : σ → List Alert)
    (hstep : ∀ s e, (∀ a ∈ alerts s, a.On name i) → ∀ a ∈ alerts (f s e), a.On name i) {s : σ}
    (hs : ∀ a ∈ alerts s, a.On name i) : ∀ a ∈ alerts (i.events.foldl f s), a.On name i :=
  List.foldlRecOn (motive := fun s => ∀ a ∈ alerts s, a.On name i) i.events f hs fun s hs e _ => hstep s e hs

theorem on_travelAlerts (G : Geo) (i : Identity) : ∀ a ∈ travelAlerts G i, a.On "impossible_travel" i := by
  refine on_of_foldl Prod.snd (fun st e hst => ?_) (List.forall_mem_nil _)
  unfold travelStep
  split_ifs
  · exact hst
  · exact hst
  · cases st.1 with
    | none => exact hst
    | some prev =>
      refine List.forall_mem_append.mpr ⟨hst, ?_⟩
      rw [travelAlert_eq]
      split_ifs
      · exact List.forall_mem_singleton.mpr ⟨rfl, rfl⟩
      · exact List.forall_mem_nil _

theorem on_anomalyRun (i : Identity) : ∀ a ∈ (anomalyRun i).2, a.On "behavior_anomaly" i := by
  refine on_of_foldl Prod.snd (fun st e hst => ?_) (List.forall_mem_nil _)
  unfold anomalyStep
  split_ifs
  · exact hst
  · dsimp only
    split_ifs
    · exact hst
    · exact List.forall_mem_append.mpr ⟨hst, List.forall_mem_singleton.mpr ⟨rfl, rfl⟩⟩

theorem on_deviceAlerts (i : Identity) : ∀ a ∈ deviceAlerts U i, a.On "new_device" i := by
  unfold deviceAlerts
  split_ifs
  · exact List.forall_mem_nil _
  · refine on_of_foldl Prod.snd (fun st e hst => ?_) (List.forall_mem_nil _)
    unfold deviceStep
    split_ifs
    · exact hst
    · exact List.forall_mem_append.mpr ⟨hst, List.forall_mem_singleton.mpr ⟨rfl, rfl⟩⟩
    · exact hst

theorem mfaFatigue_eq_some (ids : List Identity) : ∃ f : Identity → Option Alert,
    mfaFatigue ids = some (ids.filterMap f) ∧ (∀ i, mfaAlert i = some (f i)) ∧
      ∀ i a, f i = some a → a.On "mfa_fatigue" i := by
  choose hit halert _ using exists_mfaAlert
  refine ⟨fun i => (hit i).map (mfaReport i), ?_, halert, ?_⟩
  · have hpure : mfaAlert = fun i => pure ((hit i).map (mfaReport i)) := funext halert
    rw [mfaFatigue, hpure, List.mapM_pure]
    exact congrArg some (List.filterMap_map (g := id))
  · intro i a ha
    obtain ⟨last, -, rfl⟩ := Option.map_eq_some_iff.mp ha
    exact ⟨rfl, rfl⟩

/-- What a detector makes of one identity, if anything, is signed so and raised on it. -/
def Signs (name : GoString) (f : Identity → Option Alert) : Prop := ∀ i a, f i = some a → a.On name i

theorem signs_staleAlert (days : Remediation.Ages) : Signs "stale_nhi" (staleAlert days now) := by
  intro i
  unfold staleAlert
  split_ifs <;> simp [Alert.On, staleReport]

theorem signs_sharedAlert : Signs "shared_credential" (sharedAlert now) := by
  intro i
  unfold sharedAlert
  dsimp only
  split_ifs <;> simp [Alert.On]

theorem signs_attestationAlert : Signs "attestation_missing" (attestationAlert now) := by
  intro i
  unfold attestationAlert
  split_ifs <;> simp [Alert.On]

theorem signs_bomAlert : Signs "bom_incomplete" (bomAlert now) := by
  intro i
  unfold bomAlert
  split_ifs <;> simp [Alert.On]

theorem signs_blockAlert (R : BlockRule) : Signs R.detector (blockAlert R now) := by
  intro i
  unfold blockAlert
  split_ifs <;> simp [Alert.On, blockReport]

theorem signs_shadowAIAlert : Signs "shadow_ai" (shadowAIAlert U now) := by
  intro i
  unfold shadowAIAlert
  dsimp only
  split_ifs <;> simp [Alert.On]

theorem signs_leastPrivilegeAlert : Signs "least_privilege" (leastPrivilegeAlert now) := by
  intro i
  unfold leastPrivilegeAlert
  dsimp only
  split_ifs <;> simp [Alert.On]

theorem signs_undeclaredAlert : Signs "undeclared_llm" (undeclaredAlert U now) := by
  intro i
  unfold undeclaredAlert
  dsimp only
  split_ifs <;> simp [Alert.On]

theorem signs_unmanagedAlert : Signs "unmanaged_egress" (unmanagedAlert U now) := by
  intro i
  unfold unmanagedAlert
  split_ifs <;> simp [Alert.On, unmanagedReport]

theorem signs_toolAlert (tools : List (GoString × Bool)) : Signs "agent_shadow_tool" (toolAlert now tools) := by
  intro i
  unfold toolAlert
  split_ifs <;> simp [Alert.On]

theorem signs_runawayAlert (index : Index) : Signs "runaway_agent" (runawayAlert index now) := by
  intro i a ha
  obtain ⟨-, -, rfl⟩ := runawayAlert_eq_some_iff.mp ha
  exact ⟨rfl, rfl⟩

theorem signs_agencyAlert (index : Index) : Signs "excessive_agency" (agencyAlert index now) := by
  intro i
  unfold agencyAlert
  split_ifs
  · simp
  · dsimp only
    cases adminInChain index (walkDelegationChain index i.id) with
    | none => simp
    | some via => split_ifs <;> simp [Alert.On]

theorem signs_driftAlert (declared : List (GoString × List DeclaredModel)) :
    Signs "claimed_agent_drift" (driftAlert U now declared) := by
  intro i
  unfold driftAlert
  split_ifs
  · simp
  · dsimp only
    cases LastWrite.stored declared (claimedName i.id) with
    | none => simp
    | some models =>
      dsimp only
      split_ifs <;> simp [Alert.On]

theorem signs_unknownAlert (known : List (GoString × Unit)) :
    Signs "claimed_agent_unknown" (unknownAlert U now known) := by
  intro i
  unfold unknownAlert
  dsimp only
  split_ifs <;> simp [Alert.On]

theorem signs_unattestedAlert (declared : List (GoString × Identity)) :
    Signs "claimed_agent_unattested" (unattestedAlert now declared) := by
  intro i
  unfold unattestedAlert
  split_ifs
  · simp
  · dsimp only
    cases LastWrite.stored declared (claimedName i.id) with
    | none => simp
    | some node =>
      dsimp only
      split_ifs <;> simp [Alert.On]

theorem on_grantAlert {p : Permission} (h : grantAlert U now i p = some a) : a.On "privilege_escalation" i := by
  unfold grantAlert at h
  split at h
  · obtain rfl := Option.some.inj h
    exact ⟨rfl, rfl⟩
  · obtain ⟨_, -, hact⟩ := List.exists_of_findSome?_eq_some h
    obtain ⟨_, -, rfl⟩ := Option.map_eq_some_iff.mp hact
    exact ⟨rfl, rfl⟩

theorem on_beacon {D : Durations} {dest : GoString} (h : beacon D U now i dest = some a) : a.On "beaconing" i := by
  unfold beacon beaconAlert beaconReport at h
  dsimp only at h
  split_ifs at h
  cases hp : matchLLM U dest <;> rw [hp] at h <;> obtain rfl := Option.some.inj h <;> exact ⟨rfl, rfl⟩

theorem on_unroutedEgress : ∀ a ∈ unroutedEgress U ids now, ∃ i ∈ ids, a.On "unrouted_egress" i := by
  unfold unroutedEgress
  dsimp only
  split_ifs
  · exact List.forall_mem_nil _
  · exact List.forall_mem_nil _
  · refine on_of_sorted (List.forall_mem_map.mpr fun agent hagent => ?_)
    obtain ⟨i, hi, -, rfl, -⟩ := mem_governedIn.mp ((List.mem_insertionSort _).mp hagent)
    unfold agentAlert
    cases hnode : LastWrite.stored (LastWrite.index claims ids) i.id with
    | none => exact ⟨i, hi, rfl, rfl⟩
    | some node =>
      obtain ⟨j, hj, hclaim⟩ := LastWrite.exists_gives_of_stored hnode
      obtain ⟨rfl, -⟩ := claims_eq_some_iff.mp hclaim
      refine ⟨j, hj, ?_⟩
      dsimp only
      cases (splitEgress U j).publicHosts with
      | nil => exact ⟨rfl, rfl⟩
      | cons host hosts => split_ifs <;> exact ⟨rfl, rfl⟩

end Honest

theorem Signs.on_of_guarded {name : GoString} {f : Identity → Option Alert} (h : Signs name f)
    {ids : List Identity} {p : Prop} [Decidable p] {r : Alert → Alert → Prop} [DecidableRel r] :
    ∀ a ∈ if p then [] else (ids.filterMap f).insertionSort r, ∃ i ∈ ids, a.On name i := by
  split_ifs
  · exact List.forall_mem_nil _
  · exact on_of_sorted (on_of_filterMap h)

section Each

variable (W : World) (ids : List Identity) (now : Time)

theorem on_overPrivilegedNHI : ∀ a ∈ overPrivilegedNHI ids now, ∃ i ∈ ids, a.On "over_privileged_nhi" i := by
  refine on_of_filterMap fun i => ?_
  split_ifs <;> simp [Alert.On]

theorem on_orphanedNHI : ∀ a ∈ orphanedNHI ids now, ∃ i ∈ ids, a.On "orphaned_nhi" i := by
  refine on_of_filterMap fun i => ?_
  split_ifs <;> simp [Alert.On]

theorem on_shadowMCP : ∀ a ∈ shadowMCP ids now, ∃ i ∈ ids, a.On "shadow_mcp" i := by
  refine on_of_filterMap fun i => ?_
  split_ifs <;> simp [Alert.On, shadowReport]

theorem on_agentShadowTool : ∀ a ∈ agentShadowTool ids now, ∃ i ∈ ids, a.On "agent_shadow_tool" i := by
  unfold agentShadowTool
  dsimp only
  split_ifs
  · exact List.forall_mem_nil _
  · exact on_of_filterMap (signs_toolAlert _)

theorem on_privilegeEscalation (U : Unicode) :
    ∀ a ∈ privilegeEscalation U ids now, ∃ i ∈ ids, a.On "privilege_escalation" i := by
  refine on_of_flatMap fun i a ha => ?_
  split_ifs at ha
  · cases ha
  · obtain ⟨p, -, hp⟩ := List.mem_filterMap.mp ha
    exact on_grantAlert hp

theorem on_beaconing (D : Durations) (U : Unicode) :
    ∀ a ∈ beaconing D U now ids, ∃ i ∈ ids, a.On "beaconing" i := by
  intro a ha
  obtain ⟨i, hi, dest, hbeacon⟩ := mem_beaconing.mp ha
  exact ⟨i, hi, on_beacon hbeacon⟩

theorem on_claimedAgentUnattested :
    ∀ a ∈ claimedAgentUnattested ids now, ∃ i ∈ ids, a.On "claimed_agent_unattested" i := by
  unfold claimedAgentUnattested
  split_ifs
  · exact List.forall_mem_nil _
  · exact (signs_unattestedAlert _).on_of_guarded

end Each

theorem honest_detectors (W : World) : ∀ d ∈ detectors W, d.Honest := by
  have htotal : ∀ {name : GoString} {detect : List Identity → List Alert},
      (∀ ids, ∀ a ∈ detect ids, ∃ i ∈ ids, a.On name i) → Detector.Honest ⟨name, fun ids => some (detect ids)⟩ :=
    fun h ids => ⟨_, rfl, h ids⟩
  have hmfa : Detector.Honest ⟨"mfa_fatigue", mfaFatigue⟩ := by
    intro ids
    obtain ⟨f, hrun, -, hf⟩ := mfaFatigue_eq_some ids
    exact ⟨_, hrun, on_of_filterMap hf⟩
  unfold detectors
  simp only [List.forall_mem_cons]
  exact ⟨htotal fun _ => on_of_flatMap (on_travelAlerts W.geo), hmfa, htotal fun _ => on_of_flatMap on_deviceAlerts,
    htotal fun _ => on_of_flatMap on_anomalyRun, htotal fun _ => on_of_filterMap (signs_staleAlert W.days),
    htotal fun ids => on_overPrivilegedNHI ids _, htotal fun ids => on_orphanedNHI ids _,
    htotal fun _ => on_of_filterMap (signs_agencyAlert _), htotal fun _ => on_of_filterMap signs_shadowAIAlert,
    htotal fun _ => on_of_filterMap signs_leastPrivilegeAlert, htotal fun ids => on_privilegeEscalation ids _ W.unicode,
    htotal fun _ => on_of_filterMap signs_sharedAlert, htotal fun ids => on_shadowMCP ids _,
    htotal fun ids => on_agentShadowTool ids _, htotal fun _ => on_of_sorted (on_of_filterMap (signs_runawayAlert _)),
    htotal fun _ => on_of_filterMap signs_attestationAlert, htotal fun _ => on_of_filterMap signs_bomAlert,
    htotal fun _ => on_of_filterMap (signs_blockAlert dataExfiltrationRule),
    htotal fun _ => on_of_filterMap (signs_blockAlert taintedAgentRule),
    htotal fun _ => on_of_filterMap (signs_blockAlert mcpDriftRule),
    htotal fun _ => on_of_sorted (on_of_filterMap signs_unmanagedAlert),
    htotal fun ids => on_beaconing ids _ W.durations W.unicode,
    htotal fun _ => on_of_sorted (on_of_filterMap (signs_unknownAlert _)),
    htotal fun _ => (signs_driftAlert _).on_of_guarded, htotal fun _ => on_of_filterMap signs_undeclaredAlert,
    htotal fun _ => on_unroutedEgress, htotal fun ids => on_claimedAgentUnattested ids _, List.forall_mem_nil _⟩

/-- The names, none of them twice. -/
def detectorNames : List GoString :=
  ["impossible_travel", "mfa_fatigue", "new_device", "behavior_anomaly", "stale_nhi", "over_privileged_nhi",
    "orphaned_nhi", "excessive_agency", "shadow_ai", "least_privilege", "privilege_escalation", "shared_credential",
    "shadow_mcp", "agent_shadow_tool", "runaway_agent", "attestation_missing", "bom_incomplete", "data_exfiltration",
    "tainted_agent", "mcp_drift", "unmanaged_egress", "beaconing", "claimed_agent_unknown", "claimed_agent_drift",
    "undeclared_llm", "unrouted_egress", "claimed_agent_unattested"]

theorem names_detectors (W : World) : (detectors W).map Detector.name = detectorNames := rfl

theorem nodup_detectorNames : detectorNames.Nodup := by decide +kernel

/-! ## The whole run -/

/-- The alerts of a detector. -/
def Detector.alerts (d : Detector) (ids : List Identity) : List Alert := (d.detect ids).getD []

theorem foldl_detectStep {ids : List Identity} (ds : List Detector) (h : ∀ d ∈ ds, d.Honest) (out : List Alert) :
    ds.foldl (detectStep ids) (some out) = some (out ++ ds.flatMap fun d => d.alerts ids) := by
  induction ds generalizing out with
  | nil => exact congrArg some (List.append_nil out).symm
  | cons d ds ih =>
    obtain ⟨alerts, hd, -⟩ := h d List.mem_cons_self ids
    have hstep : detectStep ids (some out) d = some (out ++ d.alerts ids) := by
      rw [detectStep, Detector.alerts, hd]
      rfl
    rw [List.foldl_cons, hstep, ih fun d' hd' => h d' (List.mem_cons_of_mem d hd'), List.flatMap_cons,
      List.append_assoc]

theorem runDetectors_eq (W : World) (ids : List Identity) :
    runDetectors W ids = some ((detectors W).flatMap fun d => d.alerts ids) := by
  rw [runDetectors, foldl_detectStep (detectors W) (honest_detectors W), List.nil_append]

theorem exists_runDetectors (W : World) (ids : List Identity) : ∃ alerts, runDetectors W ids = some alerts :=
  ⟨_, runDetectors_eq W ids⟩

theorem detect_eq_alerts {W : World} {d : Detector} (hd : d ∈ detectors W) (ids : List Identity) :
    d.detect ids = some (d.alerts ids) := by
  obtain ⟨alerts, hrun, -⟩ := honest_detectors W d hd ids
  rw [Detector.alerts, hrun, Option.getD_some]

theorem on_alerts {W : World} {d : Detector} (hd : d ∈ detectors W) {ids : List Identity} :
    ∀ a ∈ d.alerts ids, ∃ i ∈ ids, a.On d.name i := by
  obtain ⟨alerts, hrun, hon⟩ := honest_detectors W d hd ids
  rw [Detector.alerts, hrun]
  exact hon

theorem on_of_runDetectors {W : World} {ids : List Identity} {alerts : List Alert}
    (hrun : runDetectors W ids = some alerts) {a : Alert} (ha : a ∈ alerts) :
    ∃ d ∈ detectors W, ∃ i ∈ ids, a.On d.name i := by
  rw [runDetectors_eq, Option.some.injEq] at hrun
  obtain ⟨d, hd, had⟩ := List.mem_flatMap.mp (hrun ▸ ha)
  exact ⟨d, hd, on_alerts hd a had⟩

theorem mem_of_detect {W : World} {ids : List Identity} {alerts : List Alert} (hrun : runDetectors W ids = some alerts)
    {d : Detector} (hd : d ∈ detectors W) {found : List Alert} (hfound : d.detect ids = some found) {a : Alert}
    (ha : a ∈ found) : a ∈ alerts ∧ a.detector = d.name := by
  obtain rfl := Option.some.inj (hfound.symm.trans (detect_eq_alerts hd ids))
  obtain rfl := Option.some.inj (hrun.symm.trans (runDetectors_eq W ids))
  obtain ⟨i, -, hname, -⟩ := on_alerts hd a ha
  exact ⟨List.mem_flatMap.mpr ⟨d, hd, ha⟩, hname⟩

theorem filter_flatMap_of_tagged {α β κ : Type} [DecidableEq κ] {tag : β → κ} {key : α → κ} {f : α → List β} :
    ∀ {xs : List α}, (xs.map key).Nodup → (∀ x ∈ xs, ∀ b ∈ f x, tag b = key x) → ∀ x ∈ xs,
      (xs.flatMap f).filter (fun b => tag b = key x) = f x
  | [], _, _, x, hx => absurd hx List.not_mem_nil
  | y :: ys, hn, htag, x, hx => by
    obtain ⟨hfresh, hn⟩ := List.nodup_cons.mp hn
    have hhead := htag y List.mem_cons_self
    have htail : ∀ z ∈ ys, ∀ b ∈ f z, tag b = key z := fun z hz => htag z (List.mem_cons_of_mem y hz)
    rw [List.flatMap_cons, List.filter_append]
    rcases List.mem_cons.mp hx with rfl | hx
    · have hown : (f x).filter (fun b => tag b = key x) = f x :=
        List.filter_eq_self.mpr fun b hb => decide_eq_true (hhead b hb)
      have hothers : (ys.flatMap f).filter (fun b => tag b = key x) = [] := by
        refine List.filter_eq_nil_iff.mpr fun b hb hx => hfresh ?_
        obtain ⟨z, hz, hbz⟩ := List.mem_flatMap.mp hb
        rw [← of_decide_eq_true hx, htail z hz b hbz]
        exact List.mem_map_of_mem hz
      rw [hown, hothers, List.append_nil]
    · have hother : (f y).filter (fun b => tag b = key x) = [] := by
        refine List.filter_eq_nil_iff.mpr fun b hb hxy => hfresh ?_
        rw [← hhead b hb, of_decide_eq_true hxy]
        exact List.mem_map_of_mem hx
      rw [hother, List.nil_append]
      exact filter_flatMap_of_tagged hn htail x hx

/-- **No alert is lost, added, doubled or ascribed to another detector**: every run returns, what is signed by a
detector is what it returned, in its order, and every alert is signed by one of them and raised on an identity of
the graph. -/
theorem runDetectors_exact (W : World) (ids : List Identity) :
    ∃ out, runDetectors W ids = some out ∧
      (∀ d ∈ detectors W, d.detect ids = some (out.filter fun a => a.detector = d.name)) ∧
      (∀ a ∈ out, ∃ d ∈ detectors W, a.detector = d.name ∧ ∃ i ∈ ids, a.identityID = i.id) ∧
      out.length = ((detectors W).map fun d => (d.alerts ids).length).sum := by
  refine ⟨_, runDetectors_eq W ids, fun d hd => ?_, fun a ha => ?_, List.length_flatMap⟩
  · have htag : ∀ d ∈ detectors W, ∀ a ∈ d.alerts ids, a.detector = d.name := by
      intro d hd a ha
      obtain ⟨i, -, hname, -⟩ := on_alerts hd a ha
      exact hname
    have hnodup : ((detectors W).map Detector.name).Nodup := names_detectors W ▸ nodup_detectorNames
    rw [filter_flatMap_of_tagged hnodup htag d hd, detect_eq_alerts hd]
  · obtain ⟨d, hd, i, hi, hname, hid⟩ := on_of_runDetectors (runDetectors_eq W ids) ha
    exact ⟨d, hd, hname, i, hi, hid⟩

end Idryx
