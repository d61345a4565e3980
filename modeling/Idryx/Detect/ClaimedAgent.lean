import Idryx.Detect.Claimed
import Idryx.Detect.UndeclaredLLM

/-!
# The detectors of a claim

`internal/detect/detectors/claimed_agent_drift.go`, `claimed_agent_unknown.go` and
`claimed_agent_unattested.go`: a process that claims to be an agent nobody knows, one that reaches what
the agent does not declare, and one that nothing but its own word ties to the agent.

* `claimedAgentDrift`, `claimedAgentUnknown`, `claimedAgentUnattested`;
* **`exists_claimedAgentDrift`**, **`exists_claimedAgentUnknown`**, **`known_of_claimedAgentUnattested`**:
  the claims each alerts on;
* **`claim_detectors_agree`**: the first excludes the others, and drift is what the undeclared-model
  detector says of the same traffic under the agent's own name.
-/

namespace Idryx

open LastWrite

/-- What is declared of an identity, if anything. -/
def declaration (id : Identity) : Option (List DeclaredModel) :=
  if id.declaredModels = [] then none else some id.declaredModels

/-! ## Drift -/

/-- `allowedProviders` and `allowedHosts`: the loop over the models, once more. -/
def allowedProviders (U : Unicode) (ms : List DeclaredModel) : List GoString := declaredProviders U ms

/-- The hosts the declared models may be reached at. -/
def allowedHosts (U : Unicode) (ms : List DeclaredModel) : List GoString := declaredHosts U ms

/-- One turn of the loop over the events of the claim. -/
def driftStep (U : Unicode) (providers hosts : List GoString) (undeclared : List GoString) (e : Event) :
    List GoString :=
  if e.type ≠ eventEgress then undeclared
  else
    match matchLLM U e.resource with
    | none => undeclared
    | some provider =>
      if providers.contains provider.id || hosts.contains (normalizeHost U e.resource) then undeclared
      else Groups.insertMember undeclared provider.display

/-- The text of an alert of `claimed_agent_drift`. -/
def driftSummary (claimed : GoString) (undeclared providers : List GoString) : GoString :=
  ("a process claiming to be " : GoString) ++ claimed ++ (" reached " : GoString) ++
    Strings.join (Strings.sort undeclared) ", " ++
    (", which that agent's Passport does not declare (it declares " : GoString) ++
    Strings.join (Strings.sort providers) ", " ++
    ("). Either the agent drifted from its own declaration, or something else is using its name" : GoString)

/-- One turn of the loop over the identities. -/
def driftAlert (U : Unicode) (now : Time) (declared : List (GoString × List DeclaredModel)) (id : Identity) :
    Option Alert :=
  if !isClaimed id.id then none
  else
    let claimed := claimedName id.id
    match stored declared claimed with
    | none => none
    | some models =>
      let providers := allowedProviders U models
      let undeclared := id.events.foldl (driftStep U providers (allowedHosts U models)) []
      if undeclared.isEmpty then none
      else some ⟨"claimed_agent_drift", id.id, .high, now, driftSummary claimed undeclared providers⟩

/-- `ClaimedAgentDrift.Detect`, over the identities the graph returns. -/
def claimedAgentDrift (U : Unicode) (identities : List Identity) (now : Time) : List Alert :=
  let declared := index (established declaration) identities
  if declared.isEmpty then []
  else (identities.filterMap (driftAlert U now declared)).insertionSort fun a b => a.identityID ≤ b.identityID

/-! ## Claims to be nobody known -/

/-- One turn of the loop over the events of the claim: the model APIs reached. -/
def providerStep (U : Unicode) (llmProviders : List GoString) (e : Event) : List GoString :=
  if e.type ≠ eventEgress then llmProviders
  else
    match matchLLM U e.resource with
    | none => llmProviders
    | some provider => Groups.insertMember llmProviders provider.display

/-- The text of an alert of `claimed_agent_unknown`. -/
def unknownSummary (claimed : GoString) (llmProviders : List GoString) : GoString :=
  if llmProviders = [] then
    ("a process declared itself " : GoString) ++ claimed ++
      (" (AGENT_PASSPORT_ID), and no Passport, IAM record or agent-event in this graph names that agent: either it is undeclared, or the value is wrong" : GoString)
  else
    ("a process declared itself " : GoString) ++ claimed ++
      (" (AGENT_PASSPORT_ID) and reached an external LLM API (" : GoString) ++
      Strings.join (Strings.sort llmProviders) ", " ++
      ("); no Passport, IAM record or agent-event in this graph names that agent" : GoString)

/-- What `claimed_agent_unknown` makes of one identity. -/
def unknownAlert (U : Unicode) (now : Time) (known : List (GoString × Unit)) (id : Identity) : Option Alert :=
  if !isClaimed id.id then none
  else
    let claimed := claimedName id.id
    if (stored known claimed).isSome then none
    else
      let llmProviders := id.events.foldl (providerStep U) []
      some ⟨"claimed_agent_unknown", id.id, if llmProviders = [] then .high else .critical, now,
        unknownSummary claimed llmProviders⟩

/-- `ClaimedAgentUnknown.Detect`. -/
def claimedAgentUnknown (U : Unicode) (identities : List Identity) (now : Time) : List Alert :=
  let known := index (established fun _ => some ()) identities
  (identities.filterMap (unknownAlert U now known)).insertionSort fun a b => a.identityID ≤ b.identityID

/-! ## Claims that nothing attests -/

/-- `carriesBusEvidence`. -/
def carriesBusEvidence (identities : List Identity) : Bool :=
  identities.any fun id => !isClaimed id.id && id.events.any fun e => e.source != ""

/-- An identity that declares a binding. -/
def binding (id : Identity) : Option Identity :=
  if id.attestation = "" ∨ id.attestation = "none" then none else some id

/-- An attestation as it is printed. -/
def attestationLabel (a : GoString) : GoString := if a = "" then "unset" else a

/-- The text of an alert of `claimed_agent_unattested`. -/
def unattestedSummary (name : GoString) (events : ℕ) (attestation : GoString) : GoString :=
  ("a process claiming to be " : GoString) ++ name ++ (" was observed " : GoString) ++ Strconv.itoa events ++
    (" time(s), and that agent's Passport declares its identity is bound to a workload (attestation=" : GoString) ++
    attestationLabel attestation ++
    ("); nothing that authenticates identities has spoken about this agent in this graph. Either the attested workload runs where no plane feeding this graph can see it, or the name is being worn by something the binding does not cover" : GoString)

/-- What `claimed_agent_unattested` makes of one identity. -/
def unattestedAlert (now : Time) (declared : List (GoString × Identity)) (id : Identity) : Option Alert :=
  if !isClaimed id.id then none
  else
    let name := claimedName id.id
    match stored declared name with
    | none => none
    | some established =>
      if 0 < established.events.length then none
      else
        let sev := if established.privileged || established.hasAdmin then Severity.high else .medium
        some ⟨"claimed_agent_unattested", id.id, sev, now,
          unattestedSummary name id.events.length established.attestation⟩

/-- `ClaimedAgentUnattested.Detect`. -/
def claimedAgentUnattested (identities : List Identity) (now : Time) : List Alert :=
  if !carriesBusEvidence identities then []
  else
    let declared := index (established binding) identities
    if declared.isEmpty then []
    else
      (identities.filterMap (unattestedAlert now declared)).insertionSort fun a b => a.identityID ≤ b.identityID

/-! ## Who is alerted on -/

section Alerts

variable {U : Unicode} {now : Time} {ids : List Identity} {j : GoString}

/-- The detector alerts on the identity. -/
def AlertsOn (alerts : List Alert) (j : GoString) : Prop := ∃ al ∈ alerts, al.identityID = j

theorem alertsOn_filterMap {f : Identity → Option Alert} (hf : ∀ i al, f i = some al → al.identityID = i.id) :
    AlertsOn ((ids.filterMap f).insertionSort fun a b => a.identityID ≤ b.identityID) j ↔
      ∃ i ∈ ids, i.id = j ∧ (f i).isSome = true := by
  simp only [AlertsOn, List.mem_insertionSort, List.mem_filterMap]
  constructor
  · rintro ⟨al, ⟨i, hi, hal⟩, rfl⟩
    exact ⟨i, hi, (hf i al hal).symm, Option.isSome_of_mem hal⟩
  · rintro ⟨i, hi, rfl, hsome⟩
    obtain ⟨al, hal⟩ := Option.isSome_iff_exists.mp hsome
    exact ⟨al, ⟨i, hi, hal⟩, hf i al hal⟩

theorem driftAlert_identityID {declared : List (GoString × List DeclaredModel)} (i : Identity) (al : Alert)
    (h : driftAlert U now declared i = some al) : al.identityID = i.id := by
  unfold driftAlert at h
  dsimp only at h
  split at h
  · cases h
  · split at h
    · cases h
    · split at h
      · cases h
      · rw [← Option.some.inj h]

theorem unknownAlert_identityID {known : List (GoString × Unit)} (i : Identity) (al : Alert)
    (h : unknownAlert U now known i = some al) : al.identityID = i.id := by
  unfold unknownAlert at h
  dsimp only at h
  split at h
  · cases h
  · split at h
    · cases h
    · rw [← Option.some.inj h]

theorem unattestedAlert_identityID {declared : List (GoString × Identity)} (i : Identity) (al : Alert)
    (h : unattestedAlert now declared i = some al) : al.identityID = i.id := by
  unfold unattestedAlert at h
  dsimp only at h
  split at h
  · cases h
  · split at h
    · cases h
    · split at h
      · cases h
      · rw [← Option.some.inj h]

theorem foldl_driftStep_ne_nil {providers hosts : List GoString} (es : List Event) :
    es.foldl (driftStep U providers hosts) [] ≠ [] ↔
      ∃ o ∈ es.filterMap (observation U), o.1 ∉ providers ∧ o.2 ∉ hosts := by
  have hstep (undeclared : List GoString) (e : Event) : driftStep U providers hosts undeclared e ≠ [] ↔
      undeclared ≠ [] ∨ ∃ o, observation U e = some o ∧ o.1 ∉ providers ∧ o.2 ∉ hosts := by
    unfold driftStep observation matchLLMHost
    by_cases ht : e.type = eventEgress
    · cases matchLLM U e.resource with
      | none => simp [ht]
      | some provider =>
        by_cases hp : provider.id ∈ providers
        · simp [ht, hp]
        · by_cases hh : normalizeHost U e.resource ∈ hosts
          · simp [ht, hp, hh]
          · simp [ht, hp, hh, Groups.insertMember_ne_nil]
    · simp [ht]
  rw [Loop.foldl_iff (P := fun undeclared : List GoString => undeclared ≠ []) hstep]
  simp only [ne_eq, not_true_eq_false, false_or, List.mem_filterMap]
  grind

theorem alertsOn_filterMap_iff (hn : (ids.map Identity.id).Nodup) {f : Identity → Option Alert}
    (hf : ∀ i al, f i = some al → al.identityID = i.id) {node : Identity} (hnode : node ∈ ids) :
    AlertsOn ((ids.filterMap f).insertionSort fun a b => a.identityID ≤ b.identityID) node.id ↔
      (f node).isSome = true := by
  rw [alertsOn_filterMap hf]
  constructor
  · rintro ⟨i, hi, hid, hsome⟩
    rwa [← eq_of_id_eq hn hi hnode hid]
  · exact fun hsome => ⟨node, hnode, rfl, hsome⟩

theorem not_alertsOn_nil : ¬ AlertsOn [] j := by simp [AlertsOn]

/-- **Drift is alerted on** where an established identity of the claimed name declares something, and the
claim was seen reaching a provider and a host it does not declare. -/
theorem exists_claimedAgentDrift (hn : (ids.map Identity.id).Nodup) {node : Identity} (hnode : node ∈ ids)
    {agent : GoString} (hid : node.id = claimOf agent) : AlertsOn (claimedAgentDrift U ids now) node.id ↔
      ∃ i ∈ ids, isClaimed i.id = false ∧ i.id = agent ∧ i.declaredModels ≠ [] ∧
        ∃ o ∈ observations U node, o.1 ∉ declaredProviders U i.declaredModels ∧
          o.2 ∉ declaredHosts U i.declaredModels := by
  obtain ⟨hclaimed, hname⟩ := claimed_iff.mpr hid
  have hdecl (i : Identity) (models : List DeclaredModel) :
      declaration i = some models ↔ i.declaredModels ≠ [] ∧ i.declaredModels = models := by
    unfold declaration
    split_ifs with h
    · simp [h]
    · simp [h]
  have hstored (models : List DeclaredModel) : stored (index (established declaration) ids) agent = some models ↔
      ∃ i ∈ ids, isClaimed i.id = false ∧ i.id = agent ∧ i.declaredModels ≠ [] ∧ i.declaredModels = models := by
    rw [stored_established_iff hn]
    simp only [hdecl]
  have hsome : (driftAlert U now (index (established declaration) ids) node).isSome = true ↔
      ∃ models, stored (index (established declaration) ids) agent = some models ∧
        ∃ o ∈ observations U node, o.1 ∉ declaredProviders U models ∧ o.2 ∉ declaredHosts U models := by
    unfold driftAlert
    rw [hclaimed, hname]
    cases hmodels : stored (index (established declaration) ids) agent with
    | none => simp [hmodels]
    | some models =>
      have hfold : node.events.foldl (driftStep U (allowedProviders U models) (allowedHosts U models)) [] ≠ [] ↔
          ∃ o ∈ observations U node, o.1 ∉ declaredProviders U models ∧ o.2 ∉ declaredHosts U models :=
        foldl_driftStep_ne_nil node.events
      simp only [hmodels, Bool.not_true, Bool.false_eq_true, if_false, Option.some.injEq, exists_eq_left',
        ← hfold, List.isEmpty_iff]
      split_ifs with hempty
      · simp [hempty]
      · simp [hempty]
  have hiff : AlertsOn (claimedAgentDrift U ids now) node.id ↔
      (driftAlert U now (index (established declaration) ids) node).isSome = true := by
    unfold claimedAgentDrift
    dsimp only
    split_ifs with hempty
    · have hnone : stored (index (established declaration) ids) agent = none := by
        rw [List.isEmpty_iff.mp hempty]
        rfl
      simp [hsome, hnone, not_alertsOn_nil]
    · exact alertsOn_filterMap_iff hn driftAlert_identityID hnode
  rw [hiff, hsome]
  constructor
  · rintro ⟨models, hmodels, ho⟩
    obtain ⟨i, hi, hi', hia, hne, rfl⟩ := (hstored models).mp hmodels
    exact ⟨i, hi, hi', hia, hne, ho⟩
  · rintro ⟨i, hi, hi', hia, hne, ho⟩
    exact ⟨i.declaredModels, (hstored _).mpr ⟨i, hi, hi', hia, hne, rfl⟩, ho⟩

/-- **A claim to be nobody known** is alerted on, and no other. -/
theorem exists_claimedAgentUnknown (hn : (ids.map Identity.id).Nodup) {node : Identity} (hnode : node ∈ ids)
    {agent : GoString} (hid : node.id = claimOf agent) : AlertsOn (claimedAgentUnknown U ids now) node.id ↔
      ¬ ∃ i ∈ ids, isClaimed i.id = false ∧ i.id = agent := by
  obtain ⟨hclaimed, hname⟩ := claimed_iff.mpr hid
  have hknown : (stored (index (established fun _ => some ()) ids) agent).isSome = true ↔
      ∃ i ∈ ids, isClaimed i.id = false ∧ i.id = agent := by
    rw [Option.isSome_iff_exists]
    simp only [stored_established_iff hn, and_true, exists_const]
  unfold claimedAgentUnknown
  rw [alertsOn_filterMap_iff hn unknownAlert_identityID hnode, ← hknown]
  unfold unknownAlert
  rw [hclaimed, hname]
  simp

/-- **A claim that nothing attests** is of an agent that is known. -/
theorem known_of_claimedAgentUnattested (hn : (ids.map Identity.id).Nodup) {node : Identity}
    (hnode : node ∈ ids) {agent : GoString} (hid : node.id = claimOf agent)
    (h : AlertsOn (claimedAgentUnattested ids now) node.id) :
    ∃ i ∈ ids, isClaimed i.id = false ∧ i.id = agent := by
  obtain ⟨hclaimed, hname⟩ := claimed_iff.mpr hid
  unfold claimedAgentUnattested at h
  dsimp only at h
  split_ifs at h with hbus hempty
  · exact absurd h not_alertsOn_nil
  · exact absurd h not_alertsOn_nil
  · rw [alertsOn_filterMap_iff hn unattestedAlert_identityID hnode] at h
    unfold unattestedAlert at h
    rw [hclaimed, hname] at h
    cases hstored : stored (index (established binding) ids) agent with
    | none => simp [hstored] at h
    | some i =>
      obtain ⟨i', hi', hnot, hia, -⟩ := (stored_established_iff hn).mp hstored
      exact ⟨i', hi', hnot, hia⟩

/-! ## The same traffic under the agent's own name -/

/-- The agent with the egress events of another instead of its own. -/
def withEgress (agent : GoString) (events : List Event) (i : Identity) : Identity :=
  if i.id = agent then
    { i with events := i.events.filter (fun e => e.type ≠ eventEgress) ++
        events.filter fun e => e.type = eventEgress }
  else i

theorem observations_withEgress {i : Identity} {agent : GoString} (h : i.id = agent) (node : Identity) :
    observations U (withEgress agent node.events i) = observations U node := by
  have hown (es : List Event) : (es.filter fun e => e.type ≠ eventEgress).filterMap (observation U) = [] := by
    rw [List.filterMap_eq_nil_iff]
    intro e he
    have ht : e.type ≠ eventEgress := by simpa using (List.mem_filter.mp he).2
    exact if_pos ht
  have hegress (es : List Event) : (es.filter fun e => e.type = eventEgress).filterMap (observation U) =
      es.filterMap (observation U) := by
    induction es with
    | nil => rfl
    | cons e es ih =>
      by_cases ht : e.type = eventEgress
      · rw [List.filter_cons_of_pos (by simpa using ht), List.filterMap_cons, List.filterMap_cons, ih]
      · have hnone : observation U e = none := if_pos ht
        rw [List.filter_cons_of_neg (by simpa using ht), List.filterMap_cons, hnone, ih]
  rw [observations, withEgress, if_pos h, List.filterMap_append, hown, hegress, List.nil_append]
  rfl

/-- **The detectors of a claim partition its answers.** A claim is unknown exactly where no established
identity has the name it claims, and then neither drift nor a missing attestation is alerted on; and where
an agent has the name, drift is alerted on exactly where the undeclared-model detector would alert on the
agent, had the agent itself sent the egress of the claim. -/
theorem claim_detectors_agree (U : Unicode) (now : Time) {ids : List Identity}
    (hn : (ids.map Identity.id).Nodup) {node : Identity} (hnode : node ∈ ids) {agent : GoString}
    (hid : node.id = claimOf agent) :
    (AlertsOn (claimedAgentUnknown U ids now) node.id ↔
      ¬ ∃ i ∈ ids, isClaimed i.id = false ∧ i.id = agent) ∧
    (AlertsOn (claimedAgentUnknown U ids now) node.id →
      ¬ AlertsOn (claimedAgentDrift U ids now) node.id ∧ ¬ AlertsOn (claimedAgentUnattested ids now) node.id) ∧
    ∀ i ∈ ids, isClaimed i.id = false → i.id = agent → i.isAgent = true →
      (AlertsOn (claimedAgentDrift U ids now) node.id ↔
        AlertsOn (undeclaredLLM U (ids.map (withEgress agent node.events)) now) agent) := by
  refine ⟨exists_claimedAgentUnknown hn hnode hid, fun h => ⟨fun hdrift => ?_, fun hun => ?_⟩, ?_⟩
  · obtain ⟨i, hi, hnot, hia, -⟩ := (exists_claimedAgentDrift hn hnode hid).mp hdrift
    exact (exists_claimedAgentUnknown hn hnode hid).mp h ⟨i, hi, hnot, hia⟩
  · exact (exists_claimedAgentUnknown hn hnode hid).mp h (known_of_claimedAgentUnattested hn hnode hid hun)
  · intro i hi hnot hia hagent
    have hid' : (withEgress agent node.events i).id = agent := by
      rw [withEgress, if_pos hia]
      exact hia
    have hmodels : (withEgress agent node.events i).declaredModels = i.declaredModels := by
      rw [withEgress, if_pos hia]
    have hagent' : (withEgress agent node.events i).isAgent = true := by
      rw [withEgress, if_pos hia]
      exact hagent
    rw [exists_claimedAgentDrift hn hnode hid, AlertsOn, exists_undeclaredLLM]
    constructor
    · rintro ⟨j, hj, -, hja, hne, ho⟩
      obtain rfl := eq_of_id_eq hn hj hi (hja.trans hia.symm)
      exact ⟨_, List.mem_map_of_mem hi, hid', hagent', hmodels ▸ hne,
        by rwa [observations_withEgress hia, hmodels]⟩
    · rintro ⟨j', hj', hja, -, hne, ho⟩
      obtain ⟨j, hj, rfl⟩ := List.mem_map.mp hj'
      have hjid : j.id = agent := by
        unfold withEgress at hja
        split_ifs at hja with h
        · exact h
        · exact hja
      obtain rfl := eq_of_id_eq hn hj hi (hjid.trans hia.symm)
      rw [observations_withEgress hia, hmodels] at ho
      exact ⟨j, hi, hnot, hia, hmodels ▸ hne, ho⟩

end Alerts

/-- An agent, and a process that claims to be it. -/
def botAndClaim : List Identity :=
  [Identity.zero (claimOf "bot"), { Identity.zero "bot" with type := identityAgent }]

theorem claim_detectors_agree_bot :
    AlertsOn (claimedAgentDrift Unicode.basic botAndClaim Time.zero) (claimOf "bot") ↔
    AlertsOn (undeclaredLLM Unicode.basic (botAndClaim.map (withEgress "bot" [])) Time.zero) "bot" :=
  have hid : (Identity.zero (claimOf "bot")).id = claimOf "bot" := rfl
  (claim_detectors_agree Unicode.basic Time.zero (by decide) List.mem_cons_self hid).2.2 _
    (List.mem_cons_of_mem _ List.mem_cons_self) (by decide) rfl (by decide)

end Idryx
