import Idryx.Detect.ClaimedAgent

/-!
# Shadow AI and unmanaged egress

`internal/detect/detectors/shadow_ai.go` and `unmanaged_egress.go`: who reaches a model API, and processes that
are known by their connections alone.

* `shadowAI`, `unmanagedEgress`;
* `providersOf`: the model APIs reached; `mem_providersOf`, `foldl_egressStep`;
* **`egress_detectors_exact`**: who is alerted on by either, and that a process is alerted on as high by the
  second exactly if the first alerts on it too.
-/

namespace Idryx

/-! ## The detectors -/

/-- The display names of the model APIs an identity reached. -/
def providersOf (U : Unicode) (id : Identity) : List GoString := id.events.foldl (providerStep U) []

/-- What `shadow_ai` makes of one identity. -/
def shadowAIAlert (U : Unicode) (now : Time) (id : Identity) : Option Alert :=
  let providers := providersOf U id
  if providers.isEmpty then none
  else some
    { detector := "shadow_ai"
      identityID := id.id
      severity := if id.isNHI then .high else .medium
      time := now
      summary := ("egress to external LLM API (" : GoString) ++ Strings.join (Strings.sort providers) ", " ++
        (")" : GoString) }

/-- `ShadowAI.Detect`, over the identities the graph returns. -/
def shadowAI (U : Unicode) (ids : List Identity) (now : Time) : List Alert := ids.filterMap (shadowAIAlert U now)

/-- One turn of the loop over the events: the destinations, and the model APIs among them. -/
def egressStep (U : Unicode) (st : List GoString × List GoString) (e : Event) : List GoString × List GoString :=
  if e.type ≠ eventEgress then st
  else
    (st.1 ++ [e.resource],
      match matchLLM U e.resource with
      | none => st.2
      | some provider => Groups.insertMember st.2 provider.display)

/-- The alert of `unmanaged_egress` on a process with these destinations. -/
def unmanagedReport (now : Time) (id : Identity) (destinations llmProviders : List GoString) : Alert where
  detector := "unmanaged_egress"
  identityID := id.id
  severity := if 0 < llmProviders.length then .high else .medium
  time := now
  summary :=
    if 0 < llmProviders.length then
      ("unattributed process reached an external LLM API directly (" : GoString) ++
        Strings.join (Strings.sort llmProviders) ", " ++
        ("), observed via eBPF with no governed connector recording it" : GoString)
    else
      ("network activity observed via eBPF, attributable only to process name (" : GoString) ++
        Strconv.itoa destinations.length ++ (" destination(s), e.g. " : GoString) ++ destinations.headD "" ++
        (") -- no IAM, agent-event, or Passport record for this identity" : GoString)

/-- What `unmanaged_egress` makes of one identity. -/
def unmanagedAlert (U : Unicode) (now : Time) (id : Identity) : Option Alert :=
  if !Strings.hasPrefix id.id AiUsage.identityPrefix then none
  else
    let (destinations, llmProviders) := id.events.foldl (egressStep U) ([], [])
    if destinations.isEmpty then none else some (unmanagedReport now id destinations llmProviders)

/-- `UnmanagedEgress.Detect`. -/
def unmanagedEgress (U : Unicode) (ids : List Identity) (now : Time) : List Alert :=
  (ids.filterMap (unmanagedAlert U now)).insertionSort fun a b => a.identityID ≤ b.identityID

/-! ## What is reached -/

/-- Where an identity was seen to connect to, in order. -/
def destinationsOf (id : Identity) : List GoString :=
  (id.events.filter fun e => e.type == eventEgress).map Event.resource

section Reached

variable {U : Unicode} {now : Time} {i : Identity} {a : Alert}

theorem mem_foldl_providerStep {s : GoString} (es : List Event) (set : List GoString) :
    s ∈ es.foldl (providerStep U) set ↔
      s ∈ set ∨ ∃ e ∈ es, e.type = eventEgress ∧ ∃ p, matchLLM U e.resource = some p ∧ p.display = s := by
  have hstep : ∀ (set : List GoString) (e : Event), s ∈ providerStep U set e ↔
      s ∈ set ∨ (e.type = eventEgress ∧ ∃ p, matchLLM U e.resource = some p ∧ p.display = s) := by
    intro set e
    unfold providerStep
    by_cases htype : e.type = eventEgress
    · cases hp : matchLLM U e.resource with
      | none => simp [htype]
      | some p => simp [htype, Groups.mem_insertMember, eq_comm]
    · simp [htype]
  exact Loop.foldl_iff (P := fun set : List GoString => s ∈ set) hstep es set

theorem mem_providersOf {s : GoString} : s ∈ providersOf U i ↔
    ∃ e ∈ i.events, e.type = eventEgress ∧ ∃ p, matchLLM U e.resource = some p ∧ p.display = s := by
  rw [providersOf, mem_foldl_providerStep]
  simp

theorem providersOf_ne_nil_iff : providersOf U i ≠ [] ↔
    ∃ e ∈ i.events, e.type = eventEgress ∧ (matchLLM U e.resource).isSome = true := by
  rw [ne_eq, List.eq_nil_iff_forall_not_mem, not_forall_not]
  simp only [mem_providersOf, Option.isSome_iff_exists]
  constructor
  · rintro ⟨s, e, he, htype, p, hp, -⟩
    exact ⟨e, he, htype, p, hp⟩
  · rintro ⟨e, he, htype, p, hp⟩
    exact ⟨_, e, he, htype, p, hp, rfl⟩

theorem foldl_egressStep (es : List Event) (st : List GoString × List GoString) :
    es.foldl (egressStep U) st =
      (st.1 ++ (es.filter fun e => e.type == eventEgress).map Event.resource, es.foldl (providerStep U) st.2) := by
  induction es generalizing st with
  | nil => simp
  | cons e es ih =>
    rw [List.foldl_cons, List.foldl_cons, ih, egressStep, providerStep]
    by_cases htype : e.type = eventEgress
    · rw [if_neg (not_not.mpr htype), if_neg (not_not.mpr htype), List.filter_cons_of_pos (by simp [htype]),
        List.map_cons, List.append_assoc]
      rfl
    · rw [if_pos htype, if_pos htype, List.filter_cons_of_neg (by simp [htype])]

theorem unmanagedAlert_eq_some_iff : unmanagedAlert U now i = some a ↔
    Strings.hasPrefix i.id AiUsage.identityPrefix = true ∧ destinationsOf i ≠ [] ∧
      a = unmanagedReport now i (destinationsOf i) (providersOf U i) := by
  unfold unmanagedAlert
  rw [foldl_egressStep]
  dsimp only
  rw [List.nil_append, ← destinationsOf, ← providersOf]
  split_ifs with hlead hempty
  · rw [Bool.not_eq_true', ← Bool.not_eq_true] at hlead
    exact ⟨nofun, fun h => absurd h.1 hlead⟩
  · exact ⟨nofun, fun h => absurd (List.isEmpty_iff.mp hempty) h.2.1⟩
  · rw [Bool.not_eq_true', Bool.not_eq_false] at hlead
    rw [Option.some.injEq, eq_comm]
    exact ⟨fun h => ⟨hlead, fun hnil => hempty (List.isEmpty_iff.mpr hnil), h⟩, fun h => h.2.2⟩

theorem mem_unmanagedEgress {ids : List Identity} : a ∈ unmanagedEgress U ids now ↔
    ∃ i ∈ ids, unmanagedAlert U now i = some a := by
  rw [unmanagedEgress, List.mem_insertionSort, List.mem_filterMap]

theorem mem_shadowAI {ids : List Identity} : a ∈ shadowAI U ids now ↔
    ∃ i ∈ ids, providersOf U i ≠ [] ∧ a = ⟨"shadow_ai", i.id, if i.isNHI then .high else .medium, now,
      ("egress to external LLM API (" : GoString) ++ Strings.join (Strings.sort (providersOf U i)) ", " ++
        (")" : GoString)⟩ := by
  rw [shadowAI, List.mem_filterMap]
  refine exists_congr fun i => and_congr_right fun _ => ?_
  unfold shadowAIAlert
  dsimp only
  by_cases hnone : providersOf U i = []
  · simp [hnone]
  · rw [if_neg fun h => hnone (List.isEmpty_iff.mp h), Option.some.injEq, eq_comm]
    exact ⟨fun h => ⟨hnone, h⟩, fun h => h.2⟩

end Reached

theorem destinationsOf_ne_nil_iff {i : Identity} : destinationsOf i ≠ [] ↔ ∃ e ∈ i.events, e.type = eventEgress := by
  rw [destinationsOf, ne_eq, List.map_eq_nil_iff, List.filter_eq_nil_iff]
  simp

/-- **Egress is judged alike**: whoever reached a model API is alerted on, by the names of those reached; a
process known by its connections alone is alerted on for any connection, and as high exactly if it is
alerted on for a model API too. -/
theorem egress_detectors_exact (U : Unicode) (now : Time) {ids : List Identity} (hn : (ids.map Identity.id).Nodup)
    {i : Identity} (hi : i ∈ ids) :
    (AlertsOn (shadowAI U ids now) i.id ↔
      ∃ e ∈ i.events, e.type = eventEgress ∧ (matchLLM U e.resource).isSome = true) ∧
    (AlertsOn (unmanagedEgress U ids now) i.id ↔
      Strings.hasPrefix i.id AiUsage.identityPrefix = true ∧ ∃ e ∈ i.events, e.type = eventEgress) ∧
    ∀ a ∈ unmanagedEgress U ids now, a.identityID = i.id →
      (a.severity = .high ↔ AlertsOn (shadowAI U ids now) i.id) ∧ (a.severity = .high ∨ a.severity = .medium) := by
  have hsame : ∀ j ∈ ids, j.id = i.id → j = i := fun j hj hid => eq_of_id_eq hn hj hi hid
  have hshadow : AlertsOn (shadowAI U ids now) i.id ↔ providersOf U i ≠ [] := by
    constructor
    · rintro ⟨a, ha, hid⟩
      obtain ⟨j, hj, hne, rfl⟩ := mem_shadowAI.mp ha
      rwa [← hsame j hj hid]
    · exact fun hne => ⟨_, mem_shadowAI.mpr ⟨i, hi, hne, rfl⟩, rfl⟩
  refine ⟨hshadow.trans providersOf_ne_nil_iff, ?_, ?_⟩
  · rw [← destinationsOf_ne_nil_iff]
    constructor
    · rintro ⟨a, ha, hid⟩
      obtain ⟨j, hj, hja⟩ := mem_unmanagedEgress.mp ha
      obtain ⟨hlead, hne, rfl⟩ := unmanagedAlert_eq_some_iff.mp hja
      rw [← hsame j hj hid]
      exact ⟨hlead, hne⟩
    · rintro ⟨hlead, hne⟩
      exact ⟨_, mem_unmanagedEgress.mpr ⟨i, hi, unmanagedAlert_eq_some_iff.mpr ⟨hlead, hne, rfl⟩⟩, rfl⟩
  · intro a ha hid
    obtain ⟨j, hj, hja⟩ := mem_unmanagedEgress.mp ha
    obtain ⟨-, -, rfl⟩ := unmanagedAlert_eq_some_iff.mp hja
    obtain rfl := hsame j hj hid
    rw [hshadow, ← List.length_pos_iff]
    unfold unmanagedReport
    dsimp only
    by_cases hmany : 0 < (providersOf U j).length
    · rw [if_pos hmany]
      exact ⟨iff_of_true rfl hmany, Or.inl rfl⟩
    · rw [if_neg hmany]
      exact ⟨iff_of_false Severity.noConfusion hmany, Or.inr rfl⟩

/-- A process that asked one model API. -/
def asking : Identity :=
  { Identity.zero "proc:curl" with
    type := identityAgent
    events := [⟨.seconds 7, "proc:curl", eventEgress, "", "", "", "", ⟨0⟩, ⟨0⟩, "", "api.openai.com", "", ""⟩] }

theorem egress_detectors_exact_asking :
    AlertsOn (shadowAI Unicode.basic [asking] (.seconds 9)) asking.id ∧
      AlertsOn (unmanagedEgress Unicode.basic [asking] (.seconds 9)) asking.id := by
  have hids : ([asking].map Identity.id).Nodup := List.nodup_singleton _
  obtain ⟨hshadow, hunmanaged, -⟩ :=
    egress_detectors_exact Unicode.basic (.seconds 9) hids (List.mem_singleton_self asking)
  exact ⟨hshadow.mpr ⟨_, List.mem_singleton_self _, rfl, by decide +kernel⟩,
    hunmanaged.mpr ⟨by decide, _, List.mem_singleton_self _, rfl⟩⟩

end Idryx
