import Idryx.Graph.Chain
import Idryx.Lib.Totals
import Idryx.Detect.ClaimedAgent

/-!
# The runaway-agent detector

`internal/detect/detectors/runaway_agent.go`: agents with spend incidents, ranked by what else the graph
says of them and by how many incidents there are.

* `spendCounts`, `runawaySeverity`, `runawayAlert`, `runawayAgent`;
* **`runawaySeverity_mono`**: the two switches together only raise the severity;
* `Identity.Enriches`, `Enriched`: a graph with more evidence; **`Enriched.facts_le`**, **`Enriched.total_le`**;
* **`runawayAgent_monotone`**: in it the alert is there once, with no lower severity.
-/

namespace Idryx

/-! ## The detector -/

/-- 30 days. -/
def spendWindow : ℤ := 2592000000000000

/-- What is many: permissions within reach, incidents, and incidents that are critical by themselves. -/
def blastRadiusThreshold : ℕ := 5

@[inherit_doc blastRadiusThreshold]
def repeatedIncidentThreshold : ℕ := 10

@[inherit_doc blastRadiusThreshold]
def sustainedIncidentThreshold : ℕ := 50

/-- The events that are incidents of spending. -/
def spendEventTypes : List GoString :=
  [eventBudgetExhausted, eventSustainedLoop, eventSpendSpike, eventFanoutExplosion, eventBreakerTripped]

/-- A spend event of the window. -/
def spends (now : Time) (e : Event) : Bool :=
  spendEventTypes.contains e.type && !decide (spendWindow < now.sub e.time)

/-- `counts`: the loop over the events. -/
def spendCounts (now : Time) (id : Identity) : List (GoString × ℕ) :=
  id.events.foldl (fun counts e => if spends now e then Totals.put (· + ·) counts e.type 1 else counts) []

/-- `totalEvents`. -/
def totalEvents (counts : List (GoString × ℕ)) : ℕ := (counts.map Prod.snd).sum

/-- `formatEventCounts`. -/
def formatEventCounts (counts : List (GoString × ℕ)) : GoString :=
  Strings.join ((Strings.sort (counts.map Prod.fst)).map fun t =>
    t ++ ("=" : GoString) ++ Strconv.itoa (Totals.amount (fun n => n) counts t)) ", "

/-- Nothing vouches for the identity. -/
def unattested (id : Identity) : Bool := id.attestation == "" || id.attestation == "none"

/-- The corroborating facts, each with how it is put. -/
def runawayFacts (id : Identity) (chain : List GoString) (blast : List Permission) : List GoString :=
  (if id.privileged || id.hasAdmin then [("privileged" : GoString)] else []) ++
    (if 2 ≤ chain.length then [("delegation depth " : GoString) ++ Strconv.itoa (chain.length - 1)] else []) ++
    (if unattested id then [("unattested" : GoString)] else []) ++
    (if blastRadiusThreshold ≤ blast.length then [("blast radius " : GoString) ++ Strconv.itoa blast.length] else [])

/-- The severity: by the number of facts, and by the number of incidents on its own. -/
def runawaySeverity (facts total : ℕ) : Severity :=
  let sev := if 3 ≤ facts then Severity.critical else if 2 ≤ facts then .high else .medium
  if sustainedIncidentThreshold ≤ total ∧ sev.rank < Severity.critical.rank then .critical
  else if repeatedIncidentThreshold ≤ total ∧ sev.rank < Severity.high.rank then .high
  else sev

/-- The text of an alert. -/
def runawaySummary (id : Identity) (counts : List (GoString × ℕ)) (chain : List GoString)
    (blast : List Permission) : GoString :=
  let reasons := runawayFacts id chain blast ++
    (if repeatedIncidentThreshold ≤ totalEvents counts then
      [Strconv.itoa (totalEvents counts) ++ (" incidents" : GoString)] else [])
  ("agent spend incident: " : GoString) ++ formatEventCounts counts ++ ("; delegation depth " : GoString) ++
    Strconv.itoa (chain.length - 1) ++ ("; attestation=" : GoString) ++ attestationLabel id.attestation ++
    ("; blast radius " : GoString) ++ Strconv.itoa blast.length ++ (" permission(s); corroborating: " : GoString) ++
    Strings.join (if reasons = [] then ["none"] else reasons) ", "

/-- What the detector makes of one identity. -/
def runawayAlert (index : Index) (now : Time) (id : Identity) : Option Alert :=
  if !id.isAgent then none
  else
    let counts := spendCounts now id
    if counts.isEmpty then none
    else
      let chain := walkDelegationChain index id.id
      let blast := blastRadius index id.id
      some
        { detector := "runaway_agent"
          identityID := id.id
          severity := runawaySeverity (runawayFacts id chain blast).length (totalEvents counts)
          time := now
          summary := runawaySummary id counts chain blast }

/-- `RunawayAgent.Detect`, over the identities the graph returns. -/
def runawayAgent (ids : List Identity) (now : Time) : List Alert :=
  (ids.filterMap (runawayAlert (Index.ofIdentities ids) now)).insertionSort fun a b => a.identityID ≤ b.identityID

/-! ## The severity -/

/-- **More facts and more incidents** never lower the severity: the second switch raises what the first one
set, and only that. -/
theorem runawaySeverity_mono {facts facts' total total' : ℕ} (hf : facts ≤ facts') (ht : total ≤ total') :
    (runawaySeverity facts total).rank ≤ (runawaySeverity facts' total').rank := by
  have hrank (facts total : ℕ) : (runawaySeverity facts total).rank =
      max (if 3 ≤ facts then 5 else if 2 ≤ facts then 4 else 3)
        (if sustainedIncidentThreshold ≤ total then 5 else if repeatedIncidentThreshold ≤ total then 4 else 3) := by
    have hle : repeatedIncidentThreshold ≤ sustainedIncidentThreshold := by decide
    unfold runawaySeverity
    dsimp only
    split_ifs <;> simp_all [Severity.rank]
  rw [hrank, hrank]
  unfold sustainedIncidentThreshold repeatedIncidentThreshold
  split_ifs <;> omega

/-! ## What is counted -/

section Counts

variable {now : Time}

theorem totalEvents_spendCounts (id : Identity) :
    totalEvents (spendCounts now id) = id.events.countP (spends now) := by
  have hstep (counts : List (GoString × ℕ)) (e : Event) :
      totalEvents (if spends now e then Totals.put (· + ·) counts e.type 1 else counts) =
        totalEvents counts + if spends now e then 1 else 0 := by
    split_ifs
    · exact Totals.sum_put counts e.type 1
    · rfl
  rw [spendCounts, Loop.foldl_countP hstep]
  exact Nat.zero_add _

theorem spendCounts_ne_nil_iff (id : Identity) :
    spendCounts now id ≠ [] ↔ ∃ e ∈ id.events, spends now e = true := by
  have hstep (counts : List (GoString × ℕ)) (e : Event) :
      (if spends now e then Totals.put (· + ·) counts e.type 1 else counts) ≠ [] ↔
        counts ≠ [] ∨ spends now e = true := by
    split_ifs with h
    · have hmem : e.type ∈ (Totals.put (· + ·) counts e.type 1).map Prod.fst :=
        Totals.mem_keys_put.mpr (Or.inr rfl)
      have hne : Totals.put (· + ·) counts e.type 1 ≠ [] := fun hnil => by simp [hnil] at hmem
      simp [hne, h]
    · simp [h]
  rw [spendCounts, Loop.foldl_iff (P := fun counts : List (GoString × ℕ) => counts ≠ []) hstep]
  simp

end Counts

/-! ## A graph with more evidence -/

/-- An identity of which no less is known: more events and permissions, a flag, a first principal. -/
structure Identity.Enriches (i' i : Identity) : Prop where
  id_eq : i'.id = i.id
  type_eq : i'.type = i.type
  attestation_eq : i'.attestation = i.attestation
  privileged : i.privileged = true → i'.privileged = true
  permissions : i.permissions ⊆ i'.permissions
  onBehalfOf : i'.onBehalfOf = i.onBehalfOf ∨ i.onBehalfOf = []
  events : i.events.Subperm i'.events

/-- Every identity of the graph is there, and no less is known of it. -/
def Enriched (ids' ids : List Identity) : Prop := ∀ i ∈ ids, ∃ i' ∈ ids', i'.Enriches i

section Enriched

variable {ids ids' : List Identity} {now : Time}

theorem mem_of_get_ofIdentities {id : GoString} {node : Identity}
    (h : (Index.ofIdentities ids).get id = some node) : node ∈ ids ∧ node.id = id :=
  ⟨List.mem_reverse.mp (Keyed.mem_of_lookup h), Keyed.lookup_key h⟩

theorem Enriched.get (h : Enriched ids' ids) (hn' : (ids'.map Identity.id).Nodup) {id : GoString}
    {node : Identity} (hnode : (Index.ofIdentities ids).get id = some node) :
    ∃ node', (Index.ofIdentities ids').get id = some node' ∧ node'.Enriches node := by
  obtain ⟨hmem, rfl⟩ := mem_of_get_ofIdentities hnode
  obtain ⟨node', hmem', henr⟩ := h node hmem
  exact ⟨node', henr.id_eq ▸ Index.get_ofIdentities hn' hmem', henr⟩

theorem Enriched.extends (h : Enriched ids' ids) (hn' : (ids'.map Identity.id).Nodup) :
    Index.Extends (Index.ofIdentities ids') (Index.ofIdentities ids) := by
  intro id node hnode
  obtain ⟨node', hnode', henr⟩ := h.get hn' hnode
  exact ⟨node', hnode', henr.onBehalfOf⟩

theorem Enriched.chain_prefix (h : Enriched ids' ids) (hn' : (ids'.map Identity.id).Nodup) (id : GoString) :
    walkDelegationChain (Index.ofIdentities ids) id <+: walkDelegationChain (Index.ofIdentities ids') id :=
  (h.extends hn').walkDelegationChain id

/-- **The blast radius** grows with the chain and with the permissions along it. -/
theorem Enriched.blast_le (h : Enriched ids' ids) (hn' : (ids'.map Identity.id).Nodup) (id : GoString) :
    (blastRadius (Index.ofIdentities ids) id).length ≤ (blastRadius (Index.ofIdentities ids') id).length := by
  have hnames : (blastRadius (Index.ofIdentities ids) id).map Permission.name ⊆
      (blastRadius (Index.ofIdentities ids') id).map Permission.name := by
    intro n hmem
    obtain ⟨link, hlink, node, hnode, hname⟩ := (mem_blastRadius _ _ _).mp hmem
    obtain ⟨node', hnode', henr⟩ := h.get hn' hnode
    refine (mem_blastRadius _ _ _).mpr ⟨link, (h.chain_prefix hn' id).subset hlink, node', hnode', ?_⟩
    exact List.map_subset _ henr.permissions hname
  have hle := (List.subperm_of_subset (nodup_blastRadius _ id) hnames).length_le
  rwa [List.length_map, List.length_map] at hle

/-- **No fact is lost.** -/
theorem Enriched.facts_le (h : Enriched ids' ids) (hn' : (ids'.map Identity.id).Nodup) {i i' : Identity}
    (henr : i'.Enriches i) :
    (runawayFacts i (walkDelegationChain (Index.ofIdentities ids) i.id)
      (blastRadius (Index.ofIdentities ids) i.id)).length ≤
    (runawayFacts i' (walkDelegationChain (Index.ofIdentities ids') i'.id)
      (blastRadius (Index.ofIdentities ids') i'.id)).length := by
  have hadmin : (i.privileged || i.hasAdmin) = true → (i'.privileged || i'.hasAdmin) = true := by
    intro hi
    rw [Bool.or_eq_true] at hi ⊢
    rcases hi with hi | hi
    · exact Or.inl (henr.privileged hi)
    · obtain ⟨p, hp, hadm⟩ := List.any_eq_true.mp hi
      exact Or.inr (List.any_eq_true.mpr ⟨p, henr.permissions hp, hadm⟩)
  have hunattested : unattested i' = unattested i := by rw [unattested, unattested, henr.attestation_eq]
  have hchain := (h.chain_prefix hn' i.id).length_le
  have hblast := h.blast_le hn' i.id
  rw [henr.id_eq]
  simp only [runawayFacts, List.length_append, hunattested]
  have hone (p q : Prop) [Decidable p] [Decidable q] (hpq : p → q) (a b : GoString) :
      (if p then [a] else []).length ≤ (if q then [b] else []).length := by
    split_ifs with hp hq
    · exact Nat.le_refl _
    · exact absurd (hpq hp) hq
    · exact Nat.zero_le _
    · exact Nat.le_refl _
  refine Nat.add_le_add (Nat.add_le_add (Nat.add_le_add (hone _ _ hadmin _ _)
    (hone _ _ (fun h2 => le_trans h2 hchain) _ _)) (Nat.le_refl _)) (hone _ _ (fun h5 => le_trans h5 hblast) _ _)

theorem Enriched.total_le {i i' : Identity} (henr : i'.Enriches i) :
    totalEvents (spendCounts now i) ≤ totalEvents (spendCounts now i') := by
  rw [totalEvents_spendCounts, totalEvents_spendCounts]
  exact henr.events.countP_le _

theorem runawayAlert_eq_some_iff {index : Index} {i : Identity} {al : Alert} :
    runawayAlert index now i = some al ↔ i.isAgent = true ∧ spendCounts now i ≠ [] ∧
      al = ⟨"runaway_agent", i.id,
        runawaySeverity (runawayFacts i (walkDelegationChain index i.id) (blastRadius index i.id)).length
          (totalEvents (spendCounts now i)), now,
        runawaySummary i (spendCounts now i) (walkDelegationChain index i.id) (blastRadius index i.id)⟩ := by
  unfold runawayAlert
  dsimp only
  split_ifs with hagent hempty
  · simp_all
  · simp_all
  · simp only [Bool.not_eq_true, Bool.not_eq_false'] at hagent
    simp only [List.isEmpty_iff] at hempty
    simp [hagent, hempty, eq_comm]

theorem nodup_runawayAgent (hn : (ids.map Identity.id).Nodup) :
    ((runawayAgent ids now).map Alert.identityID).Nodup := by
  have hsub (index : Index) (is : List Identity) :
      ((is.filterMap (runawayAlert index now)).map Alert.identityID).Sublist (is.map Identity.id) := by
    induction is with
    | nil => exact List.Sublist.slnil
    | cons i is ih =>
      rw [List.map_cons]
      cases hal : runawayAlert index now i with
      | none =>
        rw [List.filterMap_cons_none hal]
        exact ih.cons _
      | some al =>
        rw [List.filterMap_cons_some hal, List.map_cons, (runawayAlert_eq_some_iff.mp hal).2.2]
        exact ih.cons_cons _
  refine ((List.perm_insertionSort _ _).map _).nodup_iff.mpr ?_
  exact hn.sublist (hsub _ ids)

/-- **More evidence never lowers the finding**: an agent that is alerted on is alerted on once, and no less
severely, in every graph with more spend events, permissions, flags or first principals. -/
theorem runawayAgent_monotone (now : Time) {ids ids' : List Identity} (hn' : (ids'.map Identity.id).Nodup)
    (h : Enriched ids' ids) {al : Alert} (hal : al ∈ runawayAgent ids now) :
    ∃ al', (runawayAgent ids' now).filter (fun a => a.identityID = al.identityID) = [al'] ∧
      al.severity.rank ≤ al'.severity.rank := by
  obtain ⟨i, hi, hali⟩ := List.mem_filterMap.mp ((List.mem_insertionSort _).mp hal)
  obtain ⟨hagent, hcounts, rfl⟩ := runawayAlert_eq_some_iff.mp hali
  obtain ⟨i', hi', henr⟩ := h i hi
  have hagent' : i'.isAgent = true := by
    rw [Identity.isAgent, henr.type_eq]
    exact hagent
  have hcounts' : spendCounts now i' ≠ [] := by
    obtain ⟨e, he, hspend⟩ := (spendCounts_ne_nil_iff i).mp hcounts
    exact (spendCounts_ne_nil_iff i').mpr ⟨e, henr.events.subset he, hspend⟩
  obtain ⟨al', hal'⟩ : ∃ al', runawayAlert (Index.ofIdentities ids') now i' = some al' :=
    ⟨_, runawayAlert_eq_some_iff.mpr ⟨hagent', hcounts', rfl⟩⟩
  have hmem : al' ∈ runawayAgent ids' now :=
    (List.mem_insertionSort _).mpr (List.mem_filterMap.mpr ⟨i', hi', hal'⟩)
  have heq := (runawayAlert_eq_some_iff.mp hal').2.2
  have hid : al'.identityID = i.id := by
    rw [heq]
    exact henr.id_eq
  refine ⟨al', Keyed.filter_key_eq_singleton (nodup_runawayAgent hn') ?_, ?_⟩
  · show Keyed.lookup Alert.identityID i.id _ = some al'
    rw [← hid]
    exact Keyed.lookup_of_mem (nodup_runawayAgent hn') hmem
  · rw [heq]
    exact runawaySeverity_mono (h.facts_le hn' henr) (Enriched.total_le henr)

end Enriched

/-! ## An agent that is given a principal -/

/-- An incident, and an agent that has it. -/
def spendEvent : Event :=
  ⟨Time.zero, [], eventSpendSpike, [], [], [], [], ⟨0⟩, ⟨0⟩, [], [], [], []⟩

@[inherit_doc spendEvent]
def spender : Identity := { Identity.zero "bot" with type := identityAgent, events := [spendEvent] }

/-- The same agent after a second incident, on behalf of somebody, with a permission. -/
def spender' : Identity :=
  { spender with
    events := [spendEvent, spendEvent]
    onBehalfOf := ["alice"]
    permissions := [⟨"s3:*", true, false, [], []⟩] }

/-- What is said of the agent before. -/
def spenderAlert : Alert :=
  let index := Index.ofIdentities [spender]
  ⟨"runaway_agent", spender.id,
    runawaySeverity (runawayFacts spender (walkDelegationChain index spender.id)
      (blastRadius index spender.id)).length (totalEvents (spendCounts Time.zero spender)), Time.zero,
    runawaySummary spender (spendCounts Time.zero spender) (walkDelegationChain index spender.id)
      (blastRadius index spender.id)⟩

theorem runawayAgent_monotone_spender : ∃ al',
    (runawayAgent [spender'] Time.zero).filter (fun a => a.identityID = spender.id) = [al'] ∧
      Severity.medium.rank ≤ al'.severity.rank := by
  have henr : Enriched [spender'] [spender] := by
    intro i hi
    rw [List.mem_singleton.mp hi]
    exact ⟨spender', List.mem_singleton_self _,
      { id_eq := rfl, type_eq := rfl, attestation_eq := rfl, privileged := id,
        permissions := List.nil_subset _, onBehalfOf := Or.inr rfl,
        events := (List.sublist_append_left [spendEvent] [spendEvent]).subperm }⟩
  have hal : spenderAlert ∈ runawayAgent [spender] Time.zero :=
    (List.mem_insertionSort _).mpr (List.mem_filterMap.mpr ⟨spender, List.mem_singleton_self _,
      runawayAlert_eq_some_iff.mpr ⟨rfl, by decide, rfl⟩⟩)
  have hsev : spenderAlert.severity = .medium := by decide
  exact hsev ▸ runawayAgent_monotone Time.zero (by decide) henr hal

end Idryx
