import Idryx.Detect.ClaimedAgent
import Idryx.Lib.KeepFirst
import Idryx.Remediation.Rotation
import Mathlib.Data.List.Dedup

/-!
# Detectors that judge an identity by itself

`internal/detect/detectors`: `nhi.go`, `shared_credential.go`, `attestation_missing.go`, `bom_incomplete.go`,
`new_device.go`.

* `staleNHI`, `overPrivilegedNHI`, `orphanedNHI`, `sharedCredential`, `attestationMissing`, `bomIncomplete`;
  `newDevice`;
* `staleAlert_later`: what is stale stays so until it is used;
* `originsOf`: where a credential was used; `length_origins`: how many origins are counted, in whatever order;
* **`newDevice_exact`**: a device is alerted on at its first login, unless it is the first one.
-/

namespace Idryx

/-! ## Non-human identities -/

/-- 90 days. -/
def staleAfter : ℤ := 7776000000000000

/-- The time an identity is judged by, and what time that is. -/
def lastSeen (id : Identity) : Time × GoString :=
  if id.lastUsed.isZero then (id.created, "created") else (id.lastUsed, "last used")

/-- The alert on an identity; `days` is the age in days as the summary has it. -/
def staleReport (days : Remediation.Ages) (now : Time) (id : Identity) : Alert where
  detector := "stale_nhi"
  identityID := id.id
  severity := if id.hasAdmin then .high else .medium
  time := now
  summary := ("NHI stale: " : GoString) ++ (lastSeen id).2 ++ (" " : GoString) ++
    Strconv.itoa (days (now.sub (lastSeen id).1)) ++ ("d ago" : GoString)

/-- What the detector makes of one identity. -/
def staleAlert (days : Remediation.Ages) (now : Time) (id : Identity) : Option Alert :=
  if !id.isNHI then none
  else if (lastSeen id).1.isZero then none
  else if now.sub (lastSeen id).1 < staleAfter then none
  else some (staleReport days now id)

/-- `StaleNHI.Detect`, over the identities the graph returns. -/
def staleNHI (days : Remediation.Ages) (ids : List Identity) (now : Time) : List Alert :=
  ids.filterMap (staleAlert days now)

/-- `OverPrivilegedNHI.Detect`. -/
def overPrivilegedNHI (ids : List Identity) (now : Time) : List Alert :=
  ids.filterMap fun id =>
    if !id.isNHI || !id.hasAdmin then none
    else some ⟨"over_privileged_nhi", id.id, .high, now, "NHI holds admin-equivalent permissions"⟩

/-- `OrphanedNHI.Detect`. -/
def orphanedNHI (ids : List Identity) (now : Time) : List Alert :=
  ids.filterMap fun id =>
    if !id.isNHI || id.owner != ("" : GoString) then none
    else some ⟨"orphaned_nhi", id.id, .low, now, "NHI has no mapped owner"⟩

/-! ## Shared credentials -/

/-- Where a credential was used: addresses, countries, devices. -/
structure Origins where
  ips : List GoString
  countries : List GoString
  devices : List GoString

/-- One more member, unless it is empty. -/
def insertText (set : List GoString) (s : GoString) : List GoString := if s ≠ "" then Groups.insertMember set s else set

/-- One turn of the loop over the events. -/
def originStep (o : Origins) (e : Event) : Origins :=
  if e.outcome ≠ "SUCCESS" ∧ e.outcome ≠ "" then o
  else ⟨insertText o.ips e.ip, insertText o.countries e.country, insertText o.devices e.device⟩

/-- The addresses, countries and devices an identity was seen at. -/
def origins (id : Identity) : Origins := id.events.foldl originStep ⟨[], [], []⟩

/-- What `shared_credential` makes of one identity. -/
def sharedAlert (now : Time) (id : Identity) : Option Alert :=
  if !id.isNHI then none
  else
    let o := origins id
    if 2 < o.ips.length ∨ 2 < o.countries.length ∨ 2 < o.devices.length then some
      { detector := "shared_credential"
        identityID := id.id
        severity := .high
        time := now
        summary := ("NHI credential sharing/leakage: used across " : GoString) ++ Strconv.itoa o.ips.length ++
          (" IPs, " : GoString) ++ Strconv.itoa o.countries.length ++ (" countries, " : GoString) ++
          Strconv.itoa o.devices.length ++ (" devices" : GoString) }
    else none

/-- `SharedCredential.Detect`. -/
def sharedCredential (ids : List Identity) (now : Time) : List Alert := ids.filterMap (sharedAlert now)

/-! ## What is not on record -/

/-- What `attestation_missing` makes of one identity. -/
def attestationAlert (now : Time) (id : Identity) : Option Alert :=
  if !id.isAgent then none
  else if !(id.privileged || id.hasAdmin) then none
  else if id.attestation ≠ "" ∧ id.attestation ≠ "none" then none
  else some
    { detector := "attestation_missing"
      identityID := id.id
      severity := .high
      time := now
      summary := ("privileged agent has no attestation on record (attestation=" : GoString) ++
        attestationLabel id.attestation ++ (")" : GoString) }

/-- `AttestationMissing.Detect`. -/
def attestationMissing (ids : List Identity) (now : Time) : List Alert := ids.filterMap (attestationAlert now)

/-- The fields of an Agent-BOM that are missing. -/
def missingFields (id : Identity) : List GoString :=
  (if id.owner = "" then [("owner" : GoString)] else []) ++
    (if id.runtime = "" then [("runtime" : GoString)] else []) ++
    (if id.attestation = "" ∨ id.attestation = "none" then [("attestation" : GoString)] else [])

/-- What `bom_incomplete` makes of one identity. -/
def bomAlert (now : Time) (id : Identity) : Option Alert :=
  if !id.isAgent then none
  else if (missingFields id).isEmpty then none
  else some
    { detector := "bom_incomplete"
      identityID := id.id
      severity := .medium
      time := now
      summary := ("agent-bom incomplete: missing " : GoString) ++ Strings.join (missingFields id) ", " }

/-- `BOMIncomplete.Detect`. -/
def bomIncomplete (ids : List Identity) (now : Time) : List Alert := ids.filterMap (bomAlert now)

/-! ## New devices -/

/-- A login that counts for the devices of an identity. -/
def Event.isDeviceLogin (e : Event) : Bool := e.type == eventLogin && e.outcome == "SUCCESS" && !(e.device == "")

/-- The alert on a login from a new device. -/
def newDeviceReport (U : Unicode) (id : GoString) (e : Event) : Alert :=
  ⟨"new_device", id, .high, e.time, ("privileged login from new device " : GoString) ++ Strconv.quote U e.device⟩

/-- One turn of the loop over the events: the devices seen, and the alerts. -/
def deviceStep (U : Unicode) (id : GoString) (st : List GoString × List Alert) (e : Event) :
    List GoString × List Alert :=
  if !e.isDeviceLogin then st
  else
    (Groups.insertMember st.1 e.device,
      if e.device ∉ st.1 ∧ 0 < st.1.length then st.2 ++ [newDeviceReport U id e] else st.2)

/-- What `new_device` makes of one identity. -/
def deviceAlerts (U : Unicode) (id : Identity) : List Alert :=
  if !id.privileged then [] else (id.events.foldl (deviceStep U id.id) ([], [])).2

/-- `NewDevice.Detect`. -/
def newDevice (U : Unicode) (ids : List Identity) : List Alert := ids.flatMap (deviceAlerts U)

/-! ## What stays stale -/

theorem staleAlert_eq_some_iff {days : Remediation.Ages} {now : Time} {id : Identity} {a : Alert} :
    staleAlert days now id = some a ↔ id.isNHI = true ∧ (lastSeen id).1.isZero = false ∧
      staleAfter ≤ now.sub (lastSeen id).1 ∧ a = staleReport days now id := by
  unfold staleAlert
  split_ifs with hnhi hzero hage
  · rw [Bool.not_eq_true', ← Bool.not_eq_true] at hnhi
    exact ⟨nofun, fun h => absurd h.1 hnhi⟩
  · exact ⟨nofun, fun h => absurd hzero (by rw [h.2.1]; exact Bool.false_ne_true)⟩
  · exact ⟨nofun, fun h => absurd hage (not_lt.mpr h.2.2.1)⟩
  · rw [Bool.not_eq_true', Bool.not_eq_false] at hnhi
    rw [Option.some.injEq, eq_comm]
    exact ⟨fun h => ⟨hnhi, Bool.eq_false_iff.mpr hzero, not_lt.mp hage, h⟩, fun h => h.2.2.2⟩

/-- **What is stale stays stale**, as severe as it was, until it is used. -/
theorem staleAlert_later {days : Remediation.Ages} {now later : Time} (h : now.instant ≤ later.instant)
    {id : Identity} {a : Alert} (ha : staleAlert days now id = some a) :
    ∃ a', staleAlert days later id = some a' ∧ a'.identityID = a.identityID ∧ a'.severity = a.severity := by
  obtain ⟨hnhi, hzero, hage, rfl⟩ := staleAlert_eq_some_iff.mp ha
  have hlater : now.sub (lastSeen id).1 ≤ later.sub (lastSeen id).1 := by
    unfold Time.sub
    omega
  exact ⟨_, staleAlert_eq_some_iff.mpr ⟨hnhi, hzero, hage.trans hlater, rfl⟩, rfl, rfl⟩

/-! ## How many origins -/

/-- An event that counts for the origins of a credential. -/
def Event.isUse (e : Event) : Bool := e.outcome == "SUCCESS" || e.outcome == ""

/-- How many values `f` has on the events that count, but for the empty one. -/
def values (f : Event → GoString) (es : List Event) : ℕ :=
  (((es.filter Event.isUse).map f).filter fun s => s ≠ ("" : GoString)).dedup.length

theorem foldl_insertText (f : Event → GoString) (es : List Event) :
    (es.foldl (fun set e => if e.isUse = true ∧ f e ≠ "" then Groups.insertMember set (f e) else set) []).length =
      values f es := by
  have hnodup : (es.foldl (fun set e =>
      if e.isUse = true ∧ f e ≠ "" then Groups.insertMember set (f e) else set) []).Nodup := by
    refine List.foldlRecOn (motive := fun set : List GoString => set.Nodup) es _ List.nodup_nil fun set h e _ => ?_
    split_ifs
    · exact Groups.nodup_insertMember h _
    · exact h
  refine (List.perm_ext_iff_of_nodup hnodup (List.nodup_dedup _)).mpr (fun s => ?_) |>.length_eq
  rw [Groups.mem_foldl_insertMember, List.mem_dedup, List.mem_filter, List.mem_map]
  simp only [List.not_mem_nil, false_or, List.mem_filter, decide_eq_true_eq]
  constructor
  · rintro ⟨e, he, ⟨huse, hne⟩, rfl⟩
    exact ⟨⟨e, ⟨he, huse⟩, rfl⟩, hne⟩
  · rintro ⟨⟨e, ⟨he, huse⟩, rfl⟩, hne⟩
    exact ⟨e, he, ⟨huse, hne⟩, rfl⟩

/-- **How many origins are counted**: the values there are, in whatever order. -/
theorem length_origins (id : Identity) : (origins id).ips.length = values Event.ip id.events ∧
    (origins id).countries.length = values Event.country id.events ∧
    (origins id).devices.length = values Event.device id.events := by
  have hfield : ∀ (g : Origins → List GoString) (f : Event → GoString),
      (∀ o e, g (originStep o e) = if e.isUse = true ∧ f e ≠ "" then Groups.insertMember (g o) (f e) else g o) →
      ∀ o, g (id.events.foldl originStep o) =
        id.events.foldl (fun set e => if e.isUse = true ∧ f e ≠ "" then Groups.insertMember set (f e) else set) (g o) := by
    intro g f hstep o
    exact (List.foldl_hom g fun o e => (hstep o e).symm).symm
  have hstep : ∀ (o : Origins) (e : Event), originStep o e = if e.isUse = true then
      ⟨insertText o.ips e.ip, insertText o.countries e.country, insertText o.devices e.device⟩ else o := by
    intro o e
    have huse : (e.outcome ≠ "SUCCESS" ∧ e.outcome ≠ "") ↔ ¬ e.isUse = true := by simp [Event.isUse]
    rw [originStep, if_congr huse rfl rfl, ite_not]
  have hinsert : ∀ (b : Bool) (set : List GoString) (s : GoString), (if b = true then insertText set s else set) =
      if b = true ∧ s ≠ "" then Groups.insertMember set s else set := by
    intro b set s
    cases b <;> simp [insertText]
  unfold origins
  rw [hfield Origins.ips Event.ip, hfield Origins.countries Event.country, hfield Origins.devices Event.device]
  · exact ⟨foldl_insertText _ _, foldl_insertText _ _, foldl_insertText _ _⟩
  · intro o e
    rw [hstep, ← hinsert]
    split_ifs <;> rfl
  · intro o e
    rw [hstep, ← hinsert]
    split_ifs <;> rfl
  · intro o e
    rw [hstep, ← hinsert]
    split_ifs <;> rfl

/-! ## First logins -/

/-- Two logins are from one device. -/
def sameDevice (a b : Event) : Bool := a.device == b.device

/-- The logins that count, each device once, at its first one. -/
def firstLogins (id : Identity) : List Event := KeepFirst.keepFirst sameDevice [] (id.events.filter Event.isDeviceLogin)

theorem foldl_deviceStep (U : Unicode) (id : GoString) (es kept : List Event) :
    es.foldl (deviceStep U id) (kept.map Event.device, kept.tail.map (newDeviceReport U id)) =
      ((KeepFirst.keepFirst sameDevice kept (es.filter Event.isDeviceLogin)).map Event.device,
        (KeepFirst.keepFirst sameDevice kept (es.filter Event.isDeviceLogin)).tail.map (newDeviceReport U id)) := by
  induction es generalizing kept with
  | nil => rfl
  | cons e es ih =>
    rw [List.foldl_cons]
    by_cases hlogin : e.isDeviceLogin = true
    · rw [List.filter_cons_of_pos hlogin, KeepFirst.keepFirst, List.foldl_cons, ← KeepFirst.keepFirst]
      have hseen : kept.any (sameDevice · e) = true ↔ e.device ∈ kept.map Event.device := by
        simp [sameDevice, List.any_eq_true]
      by_cases hmem : e.device ∈ kept.map Event.device
      · rw [if_pos (hseen.mpr hmem), ← ih kept, deviceStep, if_neg (by simp [hlogin]), Groups.insertMember, if_pos hmem,
          if_neg fun h => h.1 hmem]
      · rw [if_neg fun h => hmem (hseen.mp h), ← ih (kept ++ [e]), deviceStep, if_neg (by simp [hlogin]),
          Groups.insertMember, if_neg hmem, List.map_append]
        -- the first of all devices is no news
        cases kept with
        | nil => simp
        | cons k kept => rw [if_pos ⟨hmem, Nat.succ_pos _⟩]; simp
    · rw [List.filter_cons_of_neg hlogin, ← ih kept, deviceStep, if_pos (by simp [hlogin])]

theorem deviceAlerts_eq (U : Unicode) (id : Identity) : deviceAlerts U id =
    if id.privileged = true then (firstLogins id).tail.map (newDeviceReport U id.id) else [] := by
  have hloop := congrArg Prod.snd (foldl_deviceStep U id.id id.events [])
  rw [deviceAlerts]
  cases id.privileged with
  | false => rfl
  | true => exact hloop

theorem firstLogins_tail_ne_nil_iff {id : Identity} : (firstLogins id).tail ≠ [] ↔
    ∃ e ∈ id.events.filter Event.isDeviceLogin, ∃ f ∈ id.events.filter Event.isDeviceLogin, e.device ≠ f.device := by
  have hlogin : ∀ {e}, e ∈ firstLogins id → e ∈ id.events.filter Event.isDeviceLogin := fun he =>
    (KeepFirst.mem_of_mem_keepFirst he).resolve_left List.not_mem_nil
  have hfirst : ∀ {e}, e ∈ id.events.filter Event.isDeviceLogin → ∃ k ∈ firstLogins id, k.device = e.device := by
    intro e he
    obtain ⟨k, hk, rfl | hke⟩ := KeepFirst.exists_keepFirst (r := sameDevice) [] he
    · exact ⟨k, hk, rfl⟩
    · exact ⟨k, hk, beq_iff_eq.mp hke⟩
  constructor
  · intro htail
    cases hkept : firstLogins id with
    | nil => exact absurd (by rw [hkept]; rfl) htail
    | cons e es =>
      rw [hkept, List.tail_cons] at htail
      obtain ⟨f, hf⟩ := List.exists_mem_of_ne_nil es htail
      have hpairs : (firstLogins id).Pairwise fun a b => sameDevice a b = false :=
        KeepFirst.keepFirst_pairwise List.Pairwise.nil _
      rw [hkept] at hpairs
      refine ⟨e, hlogin (hkept ▸ List.mem_cons_self), f, hlogin (hkept ▸ List.mem_cons_of_mem e hf), ?_⟩
      exact beq_eq_false_iff_ne.mp (List.rel_of_pairwise_cons hpairs hf)
  · rintro ⟨e, he, f, hf, hne⟩ htail
    obtain ⟨k, hk, hke⟩ := hfirst he
    obtain ⟨l, hl, hlf⟩ := hfirst hf
    have hone : k = l := by
      cases hkept : firstLogins id with
      | nil =>
        rw [hkept] at hk
        cases hk
      | cons x xs =>
        rw [hkept, List.tail_cons] at htail
        rw [hkept, htail, List.mem_singleton] at hk hl
        exact hk.trans hl.symm
    exact hne (hke.symm.trans (hone ▸ hlf))

/-- **A device is news once**: a privileged identity is alerted on for the first login from each device but the
one it began with, and for nothing else. -/
theorem newDevice_exact (U : Unicode) (ids : List Identity) : newDevice U ids =
    (ids.filter Identity.privileged).flatMap fun id => (firstLogins id).tail.map (newDeviceReport U id.id) := by
  induction ids with
  | nil => rfl
  | cons id ids ih =>
    rw [newDevice, List.flatMap_cons, ← newDevice, ih, deviceAlerts_eq]
    cases hpriv : id.privileged with
    | false => rw [List.filter_cons_of_neg (by simp [hpriv])]; rfl
    | true => rw [List.filter_cons_of_pos hpriv, List.flatMap_cons]; rfl

end Idryx
