import Idryx.Detect.All
import Idryx.Graph.Reorder

/-!
# Findings under more events

What happens to the findings on a graph when more events reach it. Six detectors judge what is irregular or
missing, and an event may explain it; the others only ever find more.

* `Identity.Heard`, `Heard`: the same identities with more events, beside new ones; **`heard_addEvents`**;
* `Detector.Steady`: a detector that keeps its findings; `steady_detectors`;
* **`runDetectors_addEvents`**: no finding of these is lost or lowered, whatever events come in, in any order.
-/

namespace Idryx

/-! ## More events -/

/-- The same identity with more events. -/
def Identity.Heard (i' i : Identity) : Prop := ∃ es, i.events.Sublist es ∧ i' = { i with events := es }

/-- The same identities with more events, all in chronological order; those that are new hold no permission. -/
structure Heard (ids' ids : List Identity) : Prop where
  nodup : (ids.map Identity.id).Nodup
  nodup' : (ids'.map Identity.id).Nodup
  sorted : ∀ i ∈ ids, i.events.Pairwise Event.notAfter
  sorted' : ∀ i' ∈ ids', i'.events.Pairwise Event.notAfter
  known : ∀ i ∈ ids, ∃ i' ∈ ids', i'.Heard i
  fresh : ∀ i' ∈ ids', i'.id ∉ ids.map Identity.id → i'.permissions = []

theorem Identity.Heard.enriches {i' i : Identity} (h : i'.Heard i) : i'.Enriches i := by
  obtain ⟨es, hes, rfl⟩ := h
  exact { id_eq := rfl, type_eq := rfl, attestation_eq := rfl, privileged := fun hi => hi, permissions := fun _ hp => hp
          onBehalfOf := Or.inl rfl, events := hes.subperm }

theorem Heard.enriched {ids' ids : List Identity} (h : Heard ids' ids) : Enriched ids' ids := by
  intro i hi
  obtain ⟨i', hi', hheard⟩ := h.known i hi
  exact ⟨i', hi', hheard.enriches⟩

namespace Store

theorem prefix_eventsAt_addEvents (g : Store) (es : List Event) (id : GoString) :
    g.eventsAt id <+: (es.foldl addEvent g).eventsAt id := by
  refine List.foldlRecOn (motive := fun s : Store => g.eventsAt id <+: s.eventsAt id) es _ (List.prefix_refl _) ?_
  intro s hs e _
  refine hs.trans ?_
  unfold addEvent
  split_ifs
  · exact List.prefix_refl _
  · unfold eventsAt
    rw [find_update]
    split_ifs with hid
    · subst hid
      rw [Option.map_some, Option.getD_some]
      change _ <+: ((s.find e.identityID).getD (s.fresh e.identityID)).events ++ [e]
      cases s.find e.identityID with
      | none => exact List.nil_prefix
      | some i => exact List.prefix_append _ _
    · exact List.prefix_refl _

theorem isSome_find_addEvents_of (g : Store) (es : List Event) {id : GoString} (h : (g.find id).isSome = true) :
    ((es.foldl addEvent g).find id).isSome = true := by
  refine List.foldlRecOn (motive := fun s : Store => (s.find id).isSome = true) es _ h fun s hs e _ => ?_
  unfold addEvent
  split_ifs
  · exact hs
  · rw [find_update]
    split_ifs
    · rfl
    · exact hs

theorem sublist_history_addEvents (g : Store) (es : List Event) (id : GoString) :
    (g.history id).Sublist ((es.foldl addEvent g).history id) := by
  obtain ⟨rest, hrest⟩ := g.prefix_eventsAt_addEvents es id
  rw [history_eq, history_eq, ← hrest]
  exact StableSort.sublist_insertionSort_append Event.notAfter _ rest

theorem mem_identities_iff_find {s : Store} {i : Identity} : i ∈ s.identities ↔
    (s.find i.id).isSome = true ∧ i = { s.bare i.id with events := s.history i.id } := by
  constructor
  · intro hi
    have hlookup := Keyed.lookup_of_mem s.nodup_identities hi
    rw [lookup_identities_eq] at hlookup
    split_ifs at hlookup with hsome
    exact ⟨hsome, (Option.some.inj hlookup).symm⟩
  · rintro ⟨hsome, hi⟩
    have hlookup : Keyed.lookup Identity.id i.id s.identities = some i := by
      rw [lookup_identities_eq, if_pos hsome, ← hi]
    exact Keyed.mem_of_lookup hlookup

theorem bare_of_find_none {s : Store} {id : GoString} (h : s.find id = none) : (s.bare id).permissions = [] := by
  rw [bare, h]
  rfl

theorem pairwise_events_identities {s : Store} {i : Identity} (hi : i ∈ s.identities) :
    i.events.Pairwise Event.notAfter := by
  obtain ⟨n, -, rfl⟩ := mem_identities.mp hi
  exact List.pairwise_insertionSort Event.notAfter n.events

/-- **More events reach the store**: every identity stays what it is, and what it was seen to do. -/
theorem heard_addEvents (g : Store) (es : List Event) : Heard (es.foldl addEvent g).identities g.identities where
  nodup := g.nodup_identities
  nodup' := (es.foldl addEvent g).nodup_identities
  sorted _ hi := pairwise_events_identities hi
  sorted' _ hi := pairwise_events_identities hi
  known i hi := by
    obtain ⟨hsome, hi⟩ := mem_identities_iff_find.mp hi
    have hevents : i.events = g.history i.id := congrArg Identity.events hi
    refine ⟨{ i with events := (es.foldl addEvent g).history i.id }, mem_identities_iff_find.mpr ⟨?_, ?_⟩, _, ?_, rfl⟩
    · exact g.isSome_find_addEvents_of es hsome
    · rw [bare_addEvents]
      exact congrArg (fun j : Identity => { j with events := (es.foldl addEvent g).history i.id }) hi
    · rw [hevents]
      exact g.sublist_history_addEvents es i.id
  fresh i' hi' hnew := by
    obtain ⟨-, hi'⟩ := mem_identities_iff_find.mp hi'
    have hfind : g.find i'.id = none := by
      by_contra hsome
      have hold : Keyed.lookup Identity.id i'.id g.identities =
          some { g.bare i'.id with events := g.history i'.id } := by
        rw [lookup_identities_eq, if_pos (Option.isSome_iff_ne_none.mpr hsome)]
      refine hnew (List.mem_map.mpr ⟨_, Keyed.mem_of_lookup hold, Keyed.lookup_key hold⟩)
    rw [hi', bare_addEvents]
    exact bare_of_find_none hfind

end Store

/-! ## Who keeps findings -/

/-- The alert is on the same identity, and no less severe. -/
def Alert.Covers (a' a : Alert) : Prop := a'.identityID = a.identityID ∧ a.severity.rank ≤ a'.severity.rank

/-- The detector finds again what it found, whatever events come in. -/
def Detector.Steady (d : Detector) : Prop :=
  ∀ ids ids', Heard ids' ids → ∀ a ∈ d.alerts ids, ∃ a' ∈ d.alerts ids', a'.Covers a

section Steady

variable {ids ids' : List Identity} {now : Time} {U : Unicode}

theorem Alert.Covers.refl (a : Alert) : a.Covers a := ⟨rfl, le_refl _⟩

theorem covers_filterMap (h : Heard ids' ids) {f f' : Identity → Option Alert}
    (hf : ∀ i ∈ ids, ∀ i' ∈ ids', i'.Heard i → ∀ a, f i = some a → ∃ a', f' i' = some a' ∧ a'.Covers a) :
    ∀ a ∈ ids.filterMap f, ∃ a' ∈ ids'.filterMap f', a'.Covers a := by
  intro a ha
  obtain ⟨i, hi, hfi⟩ := List.mem_filterMap.mp ha
  obtain ⟨i', hi', hheard⟩ := h.known i hi
  obtain ⟨a', ha', hcovers⟩ := hf i hi i' hi' hheard a hfi
  exact ⟨a', List.mem_filterMap.mpr ⟨i', hi', ha'⟩, hcovers⟩

theorem covers_of_deaf (h : Heard ids' ids) {f : Identity → Option Alert}
    (hf : ∀ (i : Identity) (es : List Event), f { i with events := es } = f i) :
    ∀ a ∈ ids.filterMap f, ∃ a' ∈ ids'.filterMap f, a'.Covers a := by
  refine covers_filterMap h fun i _ i' _ hheard a ha => ?_
  obtain ⟨es, -, rfl⟩ := hheard
  exact ⟨a, (hf i es).trans ha, Alert.Covers.refl a⟩

theorem mfaAlert_burst {i : Identity} (hsort : i.events.Pairwise Event.notAfter) {o : Option Alert}
    (ho : mfaAlert i = some o) : (o.isSome = true ↔ HasBurst i.challenges) ∧
      ∀ a, o = some a → a.identityID = i.id ∧ a.severity = if i.privileged then .critical else .high := by
  obtain ⟨hit, hrun, hcompletes⟩ := exists_mfaAlert i
  obtain rfl : hit.map (mfaReport i) = o := Option.some.inj (hrun.symm.trans ho)
  have hc := hcompletes hsort
  cases hit with
  | none =>
    have hno : ¬ HasBurst i.challenges := hc
    exact ⟨iff_of_false Bool.noConfusion hno, nofun⟩
  | some last =>
    obtain ⟨before, after, hcs, hburst, -⟩ := hc
    refine ⟨iff_of_true rfl ?_, fun a ha => ?_⟩
    · rw [hcs, List.append_cons]
      exact hburst.mono (List.sublist_append_left _ after)
    · rw [← Option.some.inj ha]
      exact ⟨rfl, rfl⟩

theorem covers_mfaFatigue (h : Heard ids' ids) : ∀ a ∈ (mfaFatigue ids).getD [],
    ∃ a' ∈ (mfaFatigue ids').getD [], a'.Covers a := by
  obtain ⟨f, hrun, hf, -⟩ := mfaFatigue_eq_some ids
  obtain ⟨f', hrun', hf', -⟩ := mfaFatigue_eq_some ids'
  rw [hrun, hrun']
  refine covers_filterMap h fun i hi i' hi' hheard a ha => ?_
  obtain ⟨hiff, hreport⟩ := mfaAlert_burst (h.sorted i hi) (hf i)
  obtain ⟨hiff', hreport'⟩ := mfaAlert_burst (h.sorted' i' hi') (hf' i')
  obtain ⟨es, hes, rfl⟩ := hheard
  have hburst := hiff.mp (Option.isSome_iff_exists.mpr ⟨a, ha⟩)
  obtain ⟨a', ha'⟩ := Option.isSome_iff_exists.mp (hiff'.mpr (hburst.mono (hes.filter _)))
  obtain ⟨hid, hsev⟩ := hreport a ha
  obtain ⟨hid', hsev'⟩ := hreport' a' ha'
  exact ⟨a', ha', hid'.trans hid.symm, le_of_eq (by rw [hsev, hsev'])⟩

theorem agencyAlert_eq_some_iff {index : Index} {i : Identity} {a : Alert} :
    agencyAlert index now i = some a ↔ i.isAgent = true ∧ ∃ via,
      adminInChain index (walkDelegationChain index i.id) = some via ∧ via ≠ i.id ∧
      a = ⟨"excessive_agency", i.id, if 2 < (walkDelegationChain index i.id).length then .critical else .high, now,
        "agent reaches admin via " ++ via ++ " (delegation depth " ++
          Strconv.itoa ((walkDelegationChain index i.id).length - 1) ++ ")"⟩ := by
  unfold agencyAlert
  dsimp only
  cases i.isAgent with
  | false => simp
  | true =>
    cases adminInChain index (walkDelegationChain index i.id) with
    | none => simp
    | some via =>
      by_cases hvia : via = i.id
      · simp [hvia]
      · simp [hvia, eq_comm]

/-- The first on a chain with an admin-equivalent permission stays the first: the chain goes on at its end, and
nobody new has a permission. -/
theorem Heard.adminInChain (h : Heard ids' ids) {start via : GoString}
    (hvia : adminInChain (Index.ofIdentities ids) (walkDelegationChain (Index.ofIdentities ids) start) = some via) :
    Idryx.adminInChain (Index.ofIdentities ids') (walkDelegationChain (Index.ofIdentities ids') start) = some via := by
  have hsame : ∀ link, ((Index.ofIdentities ids').get link).any Identity.hasAdmin =
      ((Index.ofIdentities ids).get link).any Identity.hasAdmin := by
    intro link
    cases hnode : (Index.ofIdentities ids).get link with
    | some node =>
      obtain ⟨hmem, rfl⟩ := mem_of_get_ofIdentities hnode
      obtain ⟨node', hmem', es, -, rfl⟩ := h.known node hmem
      have hnode' := Index.get_ofIdentities h.nodup' hmem'
      dsimp only at hnode'
      rw [hnode']
      rfl
    | none =>
      cases hnode' : (Index.ofIdentities ids').get link with
      | none => rfl
      | some node' =>
        obtain ⟨hmem', rfl⟩ := mem_of_get_ofIdentities hnode'
        have hnew : node'.id ∉ ids.map Identity.id := by
          have hkeys := Keyed.lookup_eq_none.mp hnode
          rwa [Index.ofIdentities, List.map_reverse, List.mem_reverse] at hkeys
        rw [Option.any_some, Option.any_none, Identity.hasAdmin, h.fresh node' hmem' hnew]
        rfl
  obtain ⟨rest, hrest⟩ := h.enriched.chain_prefix h.nodup' start
  unfold Idryx.adminInChain at hvia ⊢
  rw [← hrest, List.find?_append, funext hsame, hvia]
  rfl

theorem covers_excessiveAgency (h : Heard ids' ids) :
    ∀ a ∈ excessiveAgency ids now, ∃ a' ∈ excessiveAgency ids' now, a'.Covers a := by
  refine covers_filterMap h fun i hi i' hi' hheard a ha => ?_
  obtain ⟨es, -, rfl⟩ := hheard
  obtain ⟨hagent, via, hvia, hne, rfl⟩ := agencyAlert_eq_some_iff.mp ha
  refine ⟨_, agencyAlert_eq_some_iff.mpr ⟨hagent, via, h.adminInChain hvia, hne, rfl⟩, rfl, ?_⟩
  have hlen := (h.enriched.chain_prefix h.nodup' i.id).length_le
  dsimp only
  split_ifs with hdeep hdeep'
  · exact le_refl _
  · exact absurd (hdeep.trans_le hlen) hdeep'
  · decide
  · exact le_refl _

theorem covers_shadowAI (h : Heard ids' ids) :
    ∀ a ∈ shadowAI U ids now, ∃ a' ∈ shadowAI U ids' now, a'.Covers a := by
  intro a ha
  obtain ⟨i, hi, hne, rfl⟩ := mem_shadowAI.mp ha
  obtain ⟨i', hi', es, hes, rfl⟩ := h.known i hi
  obtain ⟨e, he, hmodel⟩ := providersOf_ne_nil_iff.mp hne
  refine ⟨_, mem_shadowAI.mpr ⟨_, hi', providersOf_ne_nil_iff.mpr ⟨e, hes.subset he, hmodel⟩, rfl⟩, rfl, le_refl _⟩

theorem values_le {es es' : List Event} (h : es.Sublist es') (f : Event → GoString) : values f es ≤ values f es' := by
  have hsub := ((h.filter Event.isUse).map f).filter fun s => s ≠ ("" : GoString)
  refine (List.subperm_of_subset (List.nodup_dedup _) fun s hs => ?_).length_le
  exact List.mem_dedup.mpr (hsub.subset (List.mem_dedup.mp hs))

theorem covers_sharedCredential (h : Heard ids' ids) :
    ∀ a ∈ sharedCredential ids now, ∃ a' ∈ sharedCredential ids' now, a'.Covers a := by
  refine covers_filterMap h fun i _ i' _ hheard a ha => ?_
  obtain ⟨es, hes, rfl⟩ := hheard
  obtain ⟨hips, hcountries, hdevices⟩ := length_origins i
  obtain ⟨hips', hcountries', hdevices'⟩ := length_origins { i with events := es }
  have hi := values_le hes Event.ip
  have hc := values_le hes Event.country
  have hd := values_le hes Event.device
  unfold sharedAlert at ha ⊢
  dsimp only at ha ⊢ hips' hcountries' hdevices'
  split_ifs at ha with hnhi hmany
  obtain rfl := Option.some.inj ha
  have hnhi' : ¬ (!Identity.isNHI { i with events := es }) = true := hnhi
  have hmany' : 2 < (origins { i with events := es }).ips.length ∨
      2 < (origins { i with events := es }).countries.length ∨
      2 < (origins { i with events := es }).devices.length := by omega
  rw [if_neg hnhi', if_pos hmany']
  exact ⟨_, rfl, rfl, le_refl _⟩

theorem Heard.exposes (h : Heard ids' ids) {s : Identity} {q : Permission} (hs : Exposes ids s q) :
    ∃ s', Exposes ids' s' q := by
  obtain ⟨hmem, hserver, hq⟩ := hs
  obtain ⟨s', hmem', es, -, rfl⟩ := h.known s hmem
  exact ⟨_, hmem', hserver, hq⟩

theorem covers_agentShadowTool (h : Heard ids' ids) :
    ∀ a ∈ agentShadowTool ids now, ∃ a' ∈ agentShadowTool ids' now, a'.Covers a := by
  intro a ha
  obtain ⟨i, hi, hia⟩ := mem_agentShadowTool.mp ha
  obtain ⟨hagent, hwired⟩ := (toolAlert_spec ids now i).mp ⟨a, hia⟩
  have hfound := toolAlert_finding hia
  obtain ⟨i', hi', es, -, rfl⟩ := h.known i hi
  have hwired' : wired ids' { i with events := es } ≠ [] := by
    obtain ⟨p, hp⟩ := List.exists_mem_of_ne_nil _ hwired
    obtain ⟨hmem, s, q, hexposes, hname⟩ := mem_wired.mp hp
    obtain ⟨s', hexposes'⟩ := h.exposes hexposes
    exact List.ne_nil_of_mem (mem_wired.mpr ⟨hmem, s', q, hexposes', hname⟩)
  obtain ⟨a', ha'⟩ := (toolAlert_spec ids' now { i with events := es }).mpr ⟨hagent, hwired'⟩
  have hfound' := toolAlert_finding ha'
  refine ⟨a', mem_agentShadowTool.mpr ⟨_, hi', ha'⟩, hfound'.identityID.trans hfound.identityID.symm, ?_⟩
  rcases hfound.severity with hcrit | hhigh
  · obtain ⟨p, hp, s, q, hexposes, hname⟩ := hfound.critical.mp hcrit
    obtain ⟨s', hexposes'⟩ := h.exposes hexposes
    rw [hcrit, hfound'.critical.mpr ⟨p, hp, s', q, hexposes', hname⟩]
  · rw [hhigh]
    rcases hfound'.severity with hcrit | hhigh' <;> simp [*, Severity.rank]

theorem covers_runawayAgent (h : Heard ids' ids) :
    ∀ a ∈ runawayAgent ids now, ∃ a' ∈ runawayAgent ids' now, a'.Covers a := by
  intro a ha
  have hcovers : ∀ a ∈ ids.filterMap (runawayAlert (Index.ofIdentities ids) now),
      ∃ a' ∈ ids'.filterMap (runawayAlert (Index.ofIdentities ids') now), a'.Covers a := by
    refine covers_filterMap h fun i hi i' hi' hheard a ha => ?_
    have henr := hheard.enriches
    obtain ⟨hagent, hcounts, rfl⟩ := runawayAlert_eq_some_iff.mp ha
    obtain ⟨e, he, hspend⟩ := (spendCounts_ne_nil_iff i).mp hcounts
    have hagent' : i'.isAgent = true := by rwa [Identity.isAgent, henr.type_eq]
    have hcounts' := (spendCounts_ne_nil_iff i').mpr ⟨e, henr.events.subset he, hspend⟩
    refine ⟨_, runawayAlert_eq_some_iff.mpr ⟨hagent', hcounts', rfl⟩, henr.id_eq, ?_⟩
    exact runawaySeverity_mono (h.enriched.facts_le h.nodup' henr) (Enriched.total_le henr)
  obtain ⟨a', ha', hcovers⟩ := hcovers a ((List.mem_insertionSort _).mp ha)
  exact ⟨a', (List.mem_insertionSort _).mpr ha', hcovers⟩

theorem mem_newDevice {a : Alert} : a ∈ newDevice U ids ↔
    ∃ i ∈ ids, i.privileged = true ∧ ∃ e ∈ (firstLogins i).tail, newDeviceReport U i.id e = a := by
  unfold newDevice
  rw [List.mem_flatMap]
  refine exists_congr fun i => and_congr_right fun _ => ?_
  rw [deviceAlerts_eq]
  split_ifs with hpriv
  · rw [List.mem_map, and_iff_right hpriv]
  · exact iff_of_false List.not_mem_nil fun h => hpriv h.1

theorem covers_newDevice (h : Heard ids' ids) : ∀ a ∈ newDevice U ids, ∃ a' ∈ newDevice U ids', a'.Covers a := by
  intro a ha
  obtain ⟨i, hi, hpriv, e, he, rfl⟩ := mem_newDevice.mp ha
  obtain ⟨i', hi', es, hes, rfl⟩ := h.known i hi
  obtain ⟨x, hx, y, hy, hne⟩ := firstLogins_tail_ne_nil_iff.mp (List.ne_nil_of_mem he)
  have hlogins : i.events.filter Event.isDeviceLogin ⊆ es.filter Event.isDeviceLogin := (hes.filter _).subset
  have htail : (firstLogins { i with events := es }).tail ≠ [] :=
    firstLogins_tail_ne_nil_iff.mpr ⟨x, hlogins hx, y, hlogins hy, hne⟩
  obtain ⟨e', he'⟩ := List.exists_mem_of_ne_nil _ htail
  exact ⟨_, mem_newDevice.mpr ⟨_, hi', hpriv, e', he', rfl⟩, rfl, le_refl _⟩

theorem covers_blockAlert (h : Heard ids' ids) {R : BlockRule} (hR : R.Proper) :
    ∀ a ∈ ids.filterMap (blockAlert R now), ∃ a' ∈ ids'.filterMap (blockAlert R now), a'.Covers a := by
  refine covers_filterMap h fun i _ i' _ hheard a ha => ?_
  obtain ⟨a', ha', -, hid, hrank⟩ := blockAlert_evidence hR hheard.enriches ha
  exact ⟨a', ha', hid, hrank⟩

theorem covers_unmanagedEgress (h : Heard ids' ids) :
    ∀ a ∈ unmanagedEgress U ids now, ∃ a' ∈ unmanagedEgress U ids' now, a'.Covers a := by
  intro a ha
  obtain ⟨i, hi, hia⟩ := mem_unmanagedEgress.mp ha
  obtain ⟨i', hi', es, hes, rfl⟩ := h.known i hi
  obtain ⟨hlead, hne, rfl⟩ := unmanagedAlert_eq_some_iff.mp hia
  obtain ⟨e, he, hegress⟩ := destinationsOf_ne_nil_iff.mp hne
  have hne' : destinationsOf { i with events := es } ≠ [] :=
    destinationsOf_ne_nil_iff.mpr ⟨e, hes.subset he, hegress⟩
  refine ⟨_, mem_unmanagedEgress.mpr ⟨_, hi', unmanagedAlert_eq_some_iff.mpr ⟨hlead, hne', rfl⟩⟩, rfl, ?_⟩
  have hmodels : 0 < (providersOf U i).length → 0 < (providersOf U { i with events := es }).length := by
    rw [List.length_pos_iff, List.length_pos_iff]
    intro hmodel
    obtain ⟨e, he, hreached⟩ := providersOf_ne_nil_iff.mp hmodel
    exact providersOf_ne_nil_iff.mpr ⟨e, hes.subset he, hreached⟩
  unfold unmanagedReport
  dsimp only
  split_ifs with hsome hsome'
  · exact le_refl _
  · exact absurd (hmodels hsome) hsome'
  · decide
  · exact le_refl _

theorem severity_claimedAgentDrift {a : Alert} (ha : a ∈ claimedAgentDrift U ids now) :
    a.severity = .high ∧ ∃ i ∈ ids, a.identityID = i.id ∧ isClaimed i.id = true := by
  unfold claimedAgentDrift at ha
  dsimp only at ha
  split_ifs at ha
  · cases ha
  obtain ⟨i, hi, hia⟩ := List.mem_filterMap.mp ((List.mem_insertionSort _).mp ha)
  unfold driftAlert at hia
  dsimp only at hia
  split_ifs at hia with hclaimed
  rw [Bool.not_eq_true', Bool.not_eq_false] at hclaimed
  split at hia
  · cases hia
  · split_ifs at hia
    rw [← Option.some.inj hia]
    exact ⟨rfl, i, hi, rfl, hclaimed⟩

theorem covers_claimedAgentDrift (h : Heard ids' ids) :
    ∀ a ∈ claimedAgentDrift U ids now, ∃ a' ∈ claimedAgentDrift U ids' now, a'.Covers a := by
  intro a ha
  obtain ⟨hsev, i, hi, hid, hclaimed⟩ := severity_claimedAgentDrift ha
  have hclaim : i.id = claimOf (claimedName i.id) := (claimOf_claimedName hclaimed).symm
  obtain ⟨agent, hagent, hest, hname, hdecl, o, ho, hout⟩ :=
    (exists_claimedAgentDrift h.nodup hi hclaim).mp ⟨a, ha, hid⟩
  obtain ⟨i', hi', es, hes, rfl⟩ := h.known i hi
  obtain ⟨agent', hagent', es', -, rfl⟩ := h.known agent hagent
  have ho' : o ∈ observations U { i with events := es } := (hes.filterMap (observation U)).subset ho
  have halert : AlertsOn (claimedAgentDrift U ids' now) i.id :=
    (exists_claimedAgentDrift h.nodup' hi' hclaim).mpr ⟨_, hagent', hest, hname, hdecl, o, ho', hout⟩
  obtain ⟨a', ha', hid'⟩ := halert
  refine ⟨a', ha', hid'.trans hid.symm, le_of_eq ?_⟩
  rw [hsev, (severity_claimedAgentDrift ha').1]

theorem covers_undeclaredLLM (h : Heard ids' ids) :
    ∀ a ∈ undeclaredLLM U ids now, ∃ a' ∈ undeclaredLLM U ids' now, a'.Covers a := by
  refine covers_filterMap h fun i _ i' _ hheard a ha => ?_
  obtain ⟨es, hes, rfl⟩ := hheard
  have hne : undeclared U i ≠ [] → undeclared U { i with events := es } ≠ [] := by
    rw [ne_eq, ne_eq, undeclared_eq_nil, undeclared_eq_nil]
    exact mt fun hall o ho => hall o ((hes.filterMap (observation U)).subset ho)
  obtain ⟨hagent, hmodels, hundeclared, rfl⟩ := undeclaredAlert_eq_some_iff.mp ha
  exact ⟨_, undeclaredAlert_eq_some_iff.mpr ⟨hagent, hmodels, hne hundeclared, rfl⟩, rfl, le_refl _⟩

end Steady

/-! ## The whole run -/

/-- The detectors of what is irregular or missing. -/
def explainable : List GoString :=
  ["impossible_travel", "behavior_anomaly", "beaconing", "claimed_agent_unknown", "unrouted_egress",
    "claimed_agent_unattested"]

theorem steady_detectors (W : World) : ∀ d ∈ detectors W, d.name ∉ explainable → d.Steady := by
  have hdeaf : ∀ {name : GoString} {f : Identity → Option Alert},
      (∀ (i : Identity) (es : List Event), f { i with events := es } = f i) →
      name ∉ explainable → Detector.Steady ⟨name, fun ids => some (ids.filterMap f)⟩ :=
    fun hf _ _ _ h => covers_of_deaf h hf
  have hsteady : ∀ {name : GoString} {detect : List Identity → List Alert},
      (∀ ids ids', Heard ids' ids → ∀ a ∈ detect ids, ∃ a' ∈ detect ids', a'.Covers a) →
      name ∉ explainable → Detector.Steady ⟨name, fun ids => some (detect ids)⟩ := fun h _ => h
  have hexcept : ∀ {name : GoString} {detect : List Identity → Option (List Alert)}, name ∈ explainable →
      name ∉ explainable → Detector.Steady ⟨name, detect⟩ := fun hin hout => absurd hin hout
  have hescalation : ∀ ids ids', Heard ids' ids →
      ∀ a ∈ privilegeEscalation W.unicode ids (W.clock "privilege_escalation"),
      ∃ a' ∈ privilegeEscalation W.unicode ids' (W.clock "privilege_escalation"), a'.Covers a := by
    intro ids ids' h a ha
    obtain ⟨i, hi, hia⟩ := List.mem_flatMap.mp ha
    obtain ⟨i', hi', es, -, rfl⟩ := h.known i hi
    exact ⟨a, List.mem_flatMap.mpr ⟨_, hi', hia⟩, Alert.Covers.refl a⟩
  have hdlp := proper_rules dataExfiltrationRule List.mem_cons_self
  have htaint := proper_rules taintedAgentRule (List.mem_cons_of_mem _ List.mem_cons_self)
  have hdrift := proper_rules mcpDriftRule (List.mem_cons_of_mem _ (List.mem_cons_of_mem _ List.mem_cons_self))
  have hmfa : Detector.Steady ⟨"mfa_fatigue", mfaFatigue⟩ := fun _ _ => covers_mfaFatigue
  unfold detectors
  simp only [List.forall_mem_cons]
  exact ⟨hexcept (by decide), fun _ => hmfa, hsteady fun _ _ => covers_newDevice, hexcept (by decide), hdeaf fun _ _ => rfl,
    hdeaf fun _ _ => rfl, hdeaf fun _ _ => rfl, hsteady fun _ _ => covers_excessiveAgency,
    hsteady fun _ _ => covers_shadowAI, hdeaf fun _ _ => rfl, hsteady hescalation,
    hsteady fun _ _ => covers_sharedCredential, hdeaf fun _ _ => rfl, hsteady fun _ _ => covers_agentShadowTool,
    hsteady fun _ _ => covers_runawayAgent, hdeaf fun _ _ => rfl, hdeaf fun _ _ => rfl,
    hsteady fun _ _ h => covers_blockAlert h hdlp, hsteady fun _ _ h => covers_blockAlert h htaint,
    hsteady fun _ _ h => covers_blockAlert h hdrift,
    hsteady fun _ _ => covers_unmanagedEgress, hexcept (by decide), hexcept (by decide),
    hsteady fun _ _ => covers_claimedAgentDrift, hsteady fun _ _ => covers_undeclaredLLM, hexcept (by decide),
    hexcept (by decide), List.forall_mem_nil _⟩

/-- **Events that come in hide nothing** from the other detectors: whatever events reach the store, in any number and
order, every finding of these is made again on the same identity, as severe as it was or more so. -/
theorem runDetectors_addEvents (W : World) (g : Store) (es : List Event) :
    ∃ out out', runDetectors W g.identities = some out ∧
      runDetectors W (es.foldl Store.addEvent g).identities = some out' ∧
      ∀ a ∈ out, a.detector ∉ explainable →
        ∃ a' ∈ out', a'.detector = a.detector ∧ a'.identityID = a.identityID ∧ a.severity.rank ≤ a'.severity.rank := by
  refine ⟨_, _, runDetectors_eq W _, runDetectors_eq W _, fun a ha hname => ?_⟩
  have hsigned : ∀ d ∈ detectors W, ∀ ids, ∀ a ∈ d.alerts ids, a.detector = d.name := by
    intro d hd ids a ha
    obtain ⟨alerts, hrun, hon⟩ := honest_detectors W d hd ids
    rw [Detector.alerts, hrun] at ha
    exact (hon a ha).choose_spec.2.1
  obtain ⟨d, hd, had⟩ := List.mem_flatMap.mp ha
  have hown := hsigned d hd _ a had
  obtain ⟨a', ha', hid, hrank⟩ := steady_detectors W d hd (hown ▸ hname) _ _ (g.heard_addEvents es) a had
  exact ⟨a', List.mem_flatMap.mpr ⟨d, hd, ha'⟩, (hsigned d hd _ a' ha').trans hown.symm, hid, hrank⟩

end Idryx
