import Idryx.Detect.All
import Idryx.Ebpf.Identity
import Idryx.Ebpf.Sensor
import Idryx.Graph.Reorder

/-!
# What comes of a capture

From the calls the program in the kernel sees, through the log `ToEgressLog` writes and `ingest.Egress` reads, to the
alerts over a graph that was loaded from any sources besides.

* `mem_identities_of_run`: an event that was loaded is on its identity, or one equal to it is;
* `Surfaced`: what a graph and its alerts say of a flow; `surfaced_of_event`;
* **`capture_surfaces`**: no flow of a capture stays silent, and while nothing was lost no call does.
-/

namespace Idryx

/-! ## A graph from several sources -/

theorem mem_identities_of_run (privileged : GoString → Bool) {zs : List Op}
    (hzs : ∀ i ∈ Op.identities zs, i.events = []) {e : Event} (he : e ∈ Op.events zs) (hnan : e.noNaN = true) :
    ∃ i ∈ ((Store.new privileged).run zs).identities, i.id = e.identityID ∧ ∃ k ∈ i.events, k.goEq e = true := by
  have hcoherent := Store.coherent_new privileged
  have hsome : (((Store.new privileged).run zs).find e.identityID).isSome = true :=
    (Store.isSome_find_run_iff hcoherent.rooted zs _).mpr (Or.inr (Or.inl ⟨e, he, rfl⟩))
  obtain ⟨node, hnode⟩ := Option.isSome_iff_exists.mp hsome
  have hlookup := Store.lookup_identities ((Store.new privileged).run zs) e.identityID
  rw [hnode, Option.map_some] at hlookup
  refine ⟨_, Keyed.mem_of_lookup hlookup, Keyed.lookup_key hlookup, ?_⟩
  obtain ⟨k, hk, hke⟩ := KeepFirst.exists_keepFirst (r := Event.goEq) [] he
  have hgoEq : k.goEq e = true := hke.elim (fun h => h.symm ▸ Event.goEq_self hnan) fun h => h
  have hevents := Store.eventsAt_run hcoherent hzs e.identityID
  rw [Store.eventsAt, hnode, Option.map_some, Option.getD_some] at hevents
  refine ⟨k, ?_, hgoEq⟩
  rw [Identity.chronological, List.mem_insertionSort, hevents, List.mem_filter]
  exact ⟨hk, decide_eq_true ((Event.goEq_iff k e).mp hgoEq).2.1⟩

end Idryx

namespace Idryx.Ebpf

/-! ## Flows -/

theorem flow_identity (V : Events.Passport) (llmIPs : HostTable) (c : Capture) :
    let f := c.flow V llmIPs
    (f.identity = f.observed ∧ ∃ x, f.identity = AiUsage.identityPrefix ++ x) ∨
      (f.identity ≠ f.observed ∧ ∃ x, f.identity = AiUsage.claimedPrefix ++ x) := by
  have hobserved : identity (trimComm c.event.comm) c.event.cgroupID = c.process.observed := rfl
  dsimp only [Capture.flow]
  by_cases hclaimed : claimedIdentity V c.agentURI ≠ ""
  · rw [if_pos hclaimed, hobserved]
    refine Or.inr ⟨fun h => observed_ne_claimed V c.process c.agentURI h.symm, ?_⟩
    unfold claimedIdentity at hclaimed ⊢
    split_ifs at hclaimed ⊢
    · exact absurd rfl hclaimed
    · exact absurd rfl hclaimed
    · exact ⟨_, rfl⟩
  · rw [if_neg hclaimed]
    refine Or.inl ⟨rfl, ?_⟩
    unfold identity
    split_ifs
    · exact ⟨_, rfl⟩
    · exact ⟨_, by rw [List.append_assoc, List.append_assoc]⟩

/-! ## What is said of a flow -/

/-- A flow is found under its identity. A process that says nothing of itself is alerted on, as high where it reached
a model API; one that says it is an agent is alerted on unless that agent is known; and whoever reached a model API is
alerted on for that. -/
structure Surfaced (W : World) (ids : List Identity) (alerts : List Alert) (f : Flow) (i : Identity) : Prop where
  mem : i ∈ ids
  id : i.id = Utf8.replaceInvalid f.identity
  process : f.identity = f.observed → ∃ a ∈ alerts, a.On "unmanaged_egress" i ∧
    ((matchLLM W.unicode f.destination).isSome = true → a.severity = .high)
  claim : f.identity ≠ f.observed → (∃ a ∈ alerts, a.On "claimed_agent_unknown" i) ∨
    ∃ j ∈ ids, isClaimed j.id = false ∧ i.id = claimOf j.id
  model : (matchLLM W.unicode f.destination).isSome = true → ∃ a ∈ alerts, a.On "shadow_ai" i

section Surfaced

variable {W : World} {ids : List Identity} {alerts : List Alert}

/-- **An event at the destination of a flow** is all it takes. -/
theorem surfaced_of_event (hrun : runDetectors W ids = some alerts) (hn : (ids.map Identity.id).Nodup)
    (V : Events.Passport) (llmIPs : HostTable) (c : Capture) {i : Identity} (hi : i ∈ ids)
    (hid : i.id = Utf8.replaceInvalid (c.flow V llmIPs).identity) {k : Event} (hk : k ∈ i.events)
    (htype : k.type = eventEgress) (hresource : k.resource = (c.flow V llmIPs).destination) :
    Surfaced W ids alerts (c.flow V llmIPs) i := by
  have hproviders : (matchLLM W.unicode (c.flow V llmIPs).destination).isSome = true →
      providersOf W.unicode i ≠ [] := fun hllm => providersOf_ne_nil_iff.mpr ⟨k, hk, htype, hresource ▸ hllm⟩
  have hflow := flow_identity V llmIPs c
  refine { mem := hi, id := hid, process := fun hsame => ?_, claim := fun hother => ?_, model := fun hllm => ?_ }
  · obtain ⟨-, x, hx⟩ := hflow.resolve_right fun h => h.1 hsame
    have hproc : Strings.hasPrefix i.id AiUsage.identityPrefix = true := by
      rw [hid, hx, Utf8.replaceInvalid_ascii_append (forall_mem_of_all (by decide))]
      exact List.isPrefixOf_iff_prefix.mpr (List.prefix_append _ _)
    have halert : unmanagedAlert W.unicode (W.clock "unmanaged_egress") i = some _ :=
      unmanagedAlert_eq_some_iff.mpr ⟨hproc, destinationsOf_ne_nil_iff.mpr ⟨k, hk, htype⟩, rfl⟩
    have hd : (⟨"unmanaged_egress", fun ids => some (unmanagedEgress W.unicode ids (W.clock "unmanaged_egress"))⟩ :
        Detector) ∈ detectors W := by simp [detectors]
    obtain ⟨hmem, hsigned⟩ :=
      mem_of_detect hrun hd rfl (mem_unmanagedEgress.mpr ⟨i, hi, halert⟩)
    exact ⟨_, hmem, ⟨hsigned, rfl⟩, fun hllm => if_pos (List.length_pos_iff.mpr (hproviders hllm))⟩
  · obtain ⟨-, x, hx⟩ := hflow.resolve_left fun h => hother h.1
    have hclaim : i.id = claimOf (Utf8.replaceInvalid x) := by
      rw [hid, hx, Utf8.replaceInvalid_ascii_append (forall_mem_of_all (by decide))]
      rfl
    by_cases hknown : ∃ j ∈ ids, isClaimed j.id = false ∧ j.id = Utf8.replaceInvalid x
    · obtain ⟨j, hj, hjclaimed, hjid⟩ := hknown
      exact Or.inr ⟨j, hj, hjclaimed, hjid.symm ▸ hclaim⟩
    · have halert : AlertsOn (claimedAgentUnknown W.unicode ids (W.clock "claimed_agent_unknown")) i.id :=
        (exists_claimedAgentUnknown hn hi hclaim).mpr hknown
      obtain ⟨a, ha, haid⟩ := halert
      have hd : (⟨"claimed_agent_unknown", fun ids => some (claimedAgentUnknown W.unicode ids
          (W.clock "claimed_agent_unknown"))⟩ : Detector) ∈ detectors W := by simp [detectors]
      obtain ⟨hmem, hsigned⟩ := mem_of_detect hrun hd rfl ha
      exact Or.inl ⟨a, hmem, hsigned, haid⟩
  · have hd : (⟨"shadow_ai", fun ids => some (shadowAI W.unicode ids (W.clock "shadow_ai"))⟩ : Detector) ∈
        detectors W := by simp [detectors]
    obtain ⟨hmem, hsigned⟩ :=
      mem_of_detect hrun hd rfl (mem_shadowAI.mpr ⟨i, hi, hproviders hllm, rfl⟩)
    exact ⟨_, hmem, hsigned, rfl⟩

end Surfaced

/-! ## From the calls to the alerts -/

theorem mem_flows {H : Host} {s : Sensor} (h : Reachable H s) {f : Flow} (hf : f ∈ s.flows) :
    ∃ c : Capture, f = c.flow H.validate H.llmIPs := by
  obtain ⟨readings, -, hflows⟩ := (kept_reachable h).accounted.flows
  rw [hflows] at hf
  obtain ⟨p, -, hp⟩ := List.mem_filterMap.mp hf
  unfold Host.report at hp
  split_ifs at hp
  exact ⟨_, (Option.some.inj hp).symm⟩

theorem reported_of_target {H : Host} {s : Sensor} (h : Reachable H s) (hquiet : s.Quiet)
    (hlost : s.skipped.lost = false) (hlt : s.probes.length < 2 ^ 64) {p : Probe} (hp : p ∈ s.probes)
    {address : Sockaddr} (htarget : p.call.target = some address) (haddress : address.quiet = false)
    (hself : isSelf (onConnect address p.call.task).fields H.selfPID = false) :
    ∃ rd, H.connectionFlow rd (address, p.call.task) ∈ s.flows := by
  have hcomplete := (kept_reachable h).complete hquiet
  obtain ⟨readings, hlen, hflows⟩ := hcomplete.flows
  have hwritten : (address, p.call.task) ∈ s.written := by
    rw [hcomplete.whole hlt hlost]
    exact List.mem_filterMap.mpr ⟨p, hp, by rw [htarget]; rfl⟩
  obtain ⟨n, hn, hget⟩ := List.getElem_of_mem hwritten
  have hread : n < readings.length := hlen ▸ hn
  have hzip : (s.written.zip readings)[n]? = some ((address, p.call.task), readings[n]) := by
    rw [List.getElem?_zip_eq_some]
    exact ⟨hget ▸ List.getElem?_eq_getElem hn, List.getElem?_eq_getElem hread⟩
  refine ⟨readings[n], ?_⟩
  rw [hflows]
  refine List.mem_filterMap.mpr ⟨_, List.mem_of_getElem? hzip, if_neg ?_⟩
  rw [haddress, hself]
  simp

/-- **Nothing that was captured stays silent.** Over any graph the log of a capture is loaded into, among whatever else
was loaded, every flow of the capture surfaces; and once nothing is under way and nothing was lost, so does every call
to an address that is not quiet, unless it is the sensor's own. -/
theorem capture_surfaces (W : World) {P : Time.Parser}
    (hP : ∀ s st, Time.parseRFC3339 s = some st → P.stamp s = some st) {H : Host} {s : Sensor} (h : Reachable H s)
    (hy : ∀ f ∈ s.flows, 0 ≤ f.time.year ∧ f.time.year ≤ 9999) (allocated : ℕ) :
    ∃ events, Ingest.egressText P (egressLogText s.flows) allocated =
        some (events, ⟨s.flows.length, 0⟩, allocated) ∧
      ∀ (privileged : GoString → Bool) (zs : List Op), (∀ i ∈ Op.identities zs, i.events = []) →
        events ⊆ Op.events zs →
        let ids := ((Store.new privileged).run zs).identities
        ∃ alerts, runDetectors W ids = some alerts ∧ (∀ f ∈ s.flows, ∃ i, Surfaced W ids alerts f i) ∧
          (s.Quiet → s.skipped.lost = false → s.probes.length < 2 ^ 64 →
            ∀ p ∈ s.probes, ∀ address, p.call.target = some address → address.quiet = false →
              isSelf (onConnect address p.call.task).fields H.selfPID = false →
              ∃ rd i, Surfaced W ids alerts (H.connectionFlow rd (address, p.call.task)) i) := by
  refine ⟨s.flows.map Flow.event, egressText_log hP hy allocated, fun privileged zs hzs hevents => ?_⟩
  obtain ⟨alerts, hrun⟩ := exists_runDetectors W ((Store.new privileged).run zs).identities
  have hsurfaced : ∀ f ∈ s.flows, ∃ i, Surfaced W ((Store.new privileged).run zs).identities alerts f i := by
    intro f hf
    obtain ⟨c, rfl⟩ := mem_flows h hf
    have hnan : (c.flow H.validate H.llmIPs).event.noNaN = true := by
      change (!(F64.isNaN ⟨0⟩) && !(F64.isNaN ⟨0⟩)) = true
      decide
    have hevent := hevents (List.mem_map_of_mem hf)
    obtain ⟨i, hi, hid, k, hk, hke⟩ := mem_identities_of_run privileged hzs hevent hnan
    obtain ⟨-, -, htype, -, -, -, -, -, -, -, hresource, -⟩ := (Event.goEq_iff _ _).mp hke
    have hvalid := Utf8.replaceInvalid_eq_self (valid_destination H.llmIPs c.ip c.event.dport)
    exact ⟨i, surfaced_of_event hrun (Store.nodup_identities _) H.validate H.llmIPs c hi hid hk htype
      (hresource.trans hvalid)⟩
  refine ⟨alerts, hrun, hsurfaced, fun hquiet hlost hlt p hp address htarget haddress hself => ?_⟩
  obtain ⟨rd, hmem⟩ := reported_of_target h hquiet hlost hlt hp htarget haddress hself
  exact ⟨rd, hsurfaced _ hmem⟩

theorem oneFlow_dated : oneFlow.any (fun s => s.flows.all fun f => decide (0 ≤ f.time.year ∧ f.time.year ≤ 9999)) =
    true := by decide +kernel

theorem capture_surfaces_oneFlow : ∃ s, oneFlow = some s ∧ s.flows ≠ [] ∧
    ∃ events, Ingest.egressText utc (egressLogText s.flows) 0 = some (events, ⟨s.flows.length, 0⟩, 0) ∧
      let ids := ((Store.new fun _ => false).run (events.map .event)).identities
      ∃ alerts, runDetectors .still ids = some alerts ∧ ∀ f ∈ s.flows, ∃ i, Surfaced .still ids alerts f i := by
  obtain ⟨s, hs, hdone⟩ := (Option.any_eq_true _ _).mp oneFlow_done
  obtain ⟨s', hs', hdated⟩ := (Option.any_eq_true _ _).mp oneFlow_dated
  obtain rfl := Option.some.inj (hs.symm.trans hs')
  have hlen : s.flows.length = 1 := by
    simp only [Bool.and_eq_true, beq_iff_eq] at hdone
    exact hdone.1.1
  have hy : ∀ f ∈ s.flows, 0 ≤ f.time.year ∧ f.time.year ≤ 9999 := fun f hf =>
    of_decide_eq_true (List.all_eq_true.mp hdated f hf)
  obtain ⟨events, hread, hsurface⟩ :=
    capture_surfaces .still (P := utc) (fun _ _ hstamp => hstamp) (reachable_foldlM .start hs) hy 0
  have hevents : Op.events (events.map .event) = events ∧ Op.identities (events.map .event) = [] := by
    unfold Op.events Op.identities
    rw [List.filterMap_map, List.filterMap_map]
    exact ⟨List.filterMap_some, List.filterMap_eq_nil_iff.mpr fun _ _ => rfl⟩
  obtain ⟨alerts, hrun, hflows, -⟩ := hsurface (fun _ => false) (events.map .event)
    (hevents.2 ▸ List.forall_mem_nil _) fun e he => hevents.1.symm ▸ he
  exact ⟨s, hs, List.ne_nil_of_length_eq_add_one hlen, events, hread, alerts, hrun, hflows⟩

end Idryx.Ebpf
