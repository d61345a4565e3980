import Idryx.Detect.All
import Idryx.Go.Calendar
import Idryx.Server.Dashboard
import Idryx.Server.Remediations

/-!
# What the API answers

`internal/server/server.go`: the alerts in the order they are read in, and the identities with the number of their
alerts.

* `Served`: the three fields that can be replaced; `alertsJSON`, `identitiesJSON`, and what they carry over from
  `Server`;
* **`alertsJSON_eq`**: the alerts are sorted by urgency and then by time, to the second;
* **`served_accounted`**: what is served of a graph and its alerts adds up.
-/

namespace Idryx.Api

open Remediation Server

/-! ## Answers -/

/-- What is served: a graph and the alerts on it, and the recommendations that were persisted. -/
structure Served extends Server where
  alerts : List Alert

/-- An alert as it is sent. -/
structure ApiAlert where
  detector : GoString
  identity : GoString
  severity : GoString
  time : GoString
  summary : GoString
  deriving DecidableEq

/-- The entry of an alert. -/
def apiAlert (a : Alert) : ApiAlert where
  detector := a.detector
  identity := a.identityID
  severity := a.severity.string
  time := Time.formatSeconds a.time
  summary := a.summary

/-- How high a severity is listed, by its name. -/
def severityRank (s : GoString) : ℕ :=
  if s = "critical" then 5
  else if s = "high" then 4
  else if s = "medium" then 3
  else if s = "low" then 2
  else if s = "info" then 1
  else 0

/-- The comparison of the sort. -/
def ApiAlert.less (a b : ApiAlert) : Bool :=
  if a.severity ≠ b.severity then severityRank b.severity < severityRank a.severity else a.time < b.time

/-- `/api/alerts`. -/
def alertsJSON (s : Served) : List ApiAlert :=
  (s.alerts.map apiAlert).insertionSort fun a b => !b.less a

/-- An identity as it is sent. -/
structure ApiIdentity where
  id : GoString
  type : GoString
  privileged : Bool
  source : GoString
  owner : GoString
  created : GoString
  lastUsed : GoString
  runtime : GoString
  onBehalfOf : Option (List GoString)
  permissions : Option (List ApiPermission)
  remediation : Option ApiRemediation
  rotation : Option ApiRemediation
  events : ℕ
  alerts : ℕ

/-- A time, unless it is zero. -/
def dateText (t : Time) : GoString := if t.isZero then "" else formatSeconds t

section

variable (U : Unicode) (days : Ages) (now : Time)

/-- `/api/identities`. -/
def identitiesJSON (s : Served) : List ApiIdentity :=
  let alertCount := Totals.counts (s.alerts.map Alert.identityID)
  let remTimes := persistedRemTimes s.remParam
  s.graph.identities.map fun id =>
    { id := id.id
      type := if id.type = ("" : GoString) then ("human" : GoString) else id.type
      privileged := id.privileged
      source := id.source
      owner := id.owner
      created := dateText id.created
      lastUsed := dateText id.lastUsed
      runtime := id.runtime
      onBehalfOf := omitEmpty id.onBehalfOf
      permissions := omitEmpty (id.permissions.map fun p => ⟨p.name, p.admin, p.used⟩)
      remediation := (generate U id).map (apiRemediation remTimes id.id)
      rotation := (generateRotation U days now id).map (apiRemediation remTimes id.id)
      events := id.events.length
      alerts := Totals.amount (fun n => n) alertCount id.id }

/-- **The parts modelled apart are parts of this**: what the walks of the dashboard read, and the recommendations that
are embedded. -/
theorem identitiesJSON_dashboard (s : Served) :
    (identitiesJSON U days now s).map (fun i => (⟨i.id, i.onBehalfOf, i.permissions⟩ : Server.ApiIdentity)) =
      Server.identitiesJSON s.graph.identities := by
  rw [identitiesJSON, List.map_map]
  rfl

@[inherit_doc identitiesJSON_dashboard]
theorem identitiesJSON_embedded (s : Served) :
    (identitiesJSON U days now s).map (fun i => (⟨i.id, i.remediation, i.rotation⟩ : Embedded)) =
      s.toServer.embedded U days now := by
  rw [identitiesJSON, List.map_map]
  rfl

end

/-! ## The order of the alerts -/

@[simp] theorem severityRank_string (s : Severity) : severityRank s.string = s.rank := by
  cases s <;> decide

theorem string_inj {s t : Severity} : s.string = t.string ↔ s = t := by
  cases s <;> cases t <;> decide

theorem rank_inj {s t : Severity} (h : s.rank = t.rank) : s = t := by
  cases s <;> cases t <;> first | rfl | cases h

/-- At most as urgent, and among equally urgent ones not earlier. -/
def notBefore (a b : Alert) : Prop :=
  b.severity.rank < a.severity.rank ∨ a.severity.rank = b.severity.rank ∧ a.time.ext ≤ b.time.ext

instance : DecidableRel notBefore := fun _ _ => inferInstanceAs (Decidable (_ ∨ _))

theorem less_apiAlert {a b : Alert} (ha : Time.Plain a.time) (hb : Time.Plain b.time) :
    (apiAlert b).less (apiAlert a) = false ↔ notBefore a b := by
  have htext : (apiAlert b).time < (apiAlert a).time ↔ b.time.ext < a.time.ext := Time.formatSeconds_lt_iff hb ha
  have hsev : (apiAlert b).severity = (apiAlert a).severity ↔ b.severity = a.severity := string_inj
  have hrank : ∀ s : Alert, severityRank (apiAlert s).severity = s.severity.rank := fun s => severityRank_string _
  unfold ApiAlert.less notBefore
  by_cases h : b.severity = a.severity
  · rw [if_neg (not_not.mpr (hsev.mpr h)), decide_eq_false_iff_not, htext, h]
    simp
  · have hne : a.severity.rank ≠ b.severity.rank := fun heq => h (rank_inj heq.symm)
    rw [if_pos (fun heq => h (hsev.mp heq)), decide_eq_false_iff_not, hrank, hrank]
    omega

/-- **The alerts are served by urgency, and then by time**: sorted as texts they are in the order of severity and of
the second, equal ones in the order the detectors made them in, where four digits hold the years. -/
theorem alertsJSON_eq (s : Served) (h : ∀ a ∈ s.alerts, Time.Plain a.time) :
    alertsJSON s = (s.alerts.insertionSort notBefore).map apiAlert := by
  rw [alertsJSON]
  refine (List.map_insertionSort notBefore _ apiAlert s.alerts fun a ha b hb => ?_).symm
  rw [Bool.not_eq_true', less_apiAlert (h a ha) (h b hb)]

/-- Two alerts as urgent as each other and one that is more. -/
def mixed : Served :=
  ⟨⟨Store.new fun _ => false, none⟩,
    [⟨"new_device", "bob", .medium, .seconds 1700000000, ""⟩, ⟨"new_device", "amy", .medium, .seconds 1600000000, ""⟩,
      ⟨"shadow_ai", "bot", .high, .seconds 1800000000, ""⟩]⟩

theorem alertsJSON_mixed : (alertsJSON mixed).map ApiAlert.identity = ["bot", "amy", "bob"] := by
  rw [alertsJSON_eq mixed (by decide), List.map_map]
  decide

/-! ## What adds up -/

theorem length_alertsJSON (s : Served) : (alertsJSON s).length = s.alerts.length := by
  rw [alertsJSON, List.length_insertionSort, List.length_map]

theorem countP_alertsJSON (s : Served) (id : GoString) :
    (alertsJSON s).countP (fun a => a.identity = id) = s.alerts.countP fun a => a.identityID = id := by
  rw [alertsJSON, (List.perm_insertionSort _ _).countP_eq, List.countP_map]
  rfl

theorem amount_alertCount (alerts : List Alert) (id : GoString) :
    Totals.amount (fun n => n) (Totals.counts (alerts.map Alert.identityID)) id =
      alerts.countP fun a => a.identityID = id := by
  rw [Totals.amount_counts_eq_countP, List.countP_map]
  rfl

/-- **What is served adds up**: of a graph and the alerts its detectors make, all identities are sent, once each and in
order; every alert is sent, on one of them; and the number sent with an identity is that of its alerts, so that the
numbers add up to all of them. -/
theorem served_accounted (W : World) (U : Unicode) (days : Ages) (now : Time) (g : Store)
    (remParam : Option (List Pg.StoredRemediation)) :
    ∃ alerts, runDetectors W g.identities = some alerts ∧
      let s : Served := ⟨⟨g, remParam⟩, alerts⟩
      (identitiesJSON U days now s).map ApiIdentity.id = g.identities.map Identity.id ∧
      ((identitiesJSON U days now s).map ApiIdentity.id).Pairwise (· < ·) ∧
      (∀ a ∈ alertsJSON s, ∃ i ∈ identitiesJSON U days now s, i.id = a.identity) ∧
      (∀ i ∈ identitiesJSON U days now s, i.alerts = (alertsJSON s).countP fun a => a.identity = i.id) ∧
      ((identitiesJSON U days now s).map ApiIdentity.alerts).sum = (alertsJSON s).length := by
  obtain ⟨alerts, hrun⟩ := exists_runDetectors W g.identities
  refine ⟨alerts, hrun, ?_⟩
  have hids : (identitiesJSON U days now ⟨⟨g, remParam⟩, alerts⟩).map ApiIdentity.id =
      g.identities.map Identity.id := by
    rw [identitiesJSON, List.map_map]
    rfl
  have hcount : ∀ i ∈ identitiesJSON U days now ⟨⟨g, remParam⟩, alerts⟩,
      i.alerts = alerts.countP fun a => a.identityID = i.id := by
    intro i hi
    obtain ⟨id, -, rfl⟩ := List.mem_map.mp hi
    exact amount_alertCount alerts id.id
  have hmem : ∀ j ∈ alerts.map Alert.identityID, j ∈ g.identities.map Identity.id := by
    intro j hj
    obtain ⟨a, ha, rfl⟩ := List.mem_map.mp hj
    obtain ⟨-, -, i, hi, -, hid⟩ := on_of_runDetectors hrun ha
    exact hid ▸ List.mem_map_of_mem hi
  refine ⟨hids, ?_, fun a ha => ?_, fun i hi => ?_, ?_⟩
  · rw [hids, List.pairwise_map]
    have hsorted := List.pairwise_insertionSort (fun a b : Identity => a.id ≤ b.id)
      (g.nodes.map Identity.chronological)
    have hdistinct := List.pairwise_map.mp g.nodup_identities
    exact hsorted.imp₂ (fun a b hle hne => Std.lt_of_le_of_ne hle hne) hdistinct
  · obtain ⟨a', ha', rfl⟩ := List.mem_map.mp ((List.mem_insertionSort _).mp ha)
    have hj := hmem _ (List.mem_map_of_mem ha')
    rw [← hids] at hj
    obtain ⟨i, hi, hid⟩ := List.mem_map.mp hj
    exact ⟨i, hi, hid⟩
  · rw [countP_alertsJSON]
    exact hcount i hi
  · have hsum : (identitiesJSON U days now ⟨⟨g, remParam⟩, alerts⟩).map ApiIdentity.alerts =
        (g.identities.map Identity.id).map fun k => (alerts.map Alert.identityID).countP fun j => j = k := by
      rw [← hids, List.map_map]
      refine List.map_congr_left fun i hi => (hcount i hi).trans ?_
      rw [Function.comp, List.countP_map]
      rfl
    rw [hsum, Totals.sum_countP g.nodup_identities hmem, length_alertsJSON, List.length_map]

end Idryx.Api
