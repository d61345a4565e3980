import Idryx.Graph.Store
import Idryx.Lib.Totals
import Mathlib.Algebra.BigOperators.Fin

/-!
# The behavior-anomaly detector

`internal/baseline` and `internal/detect/detectors/behavior_anomaly.go`: each successful login against the
profile of those before it. Scores are in tenths.

* `Profile`, `observe`, `build`, `score`; `anomalyStep`, `anomalyRun`, `behaviorAnomaly`;
* `Profile.Of p logins`: the profile has counted these logins; `Of.observe`: one more;
* `le_score_iff`: which of the three signals suffice;
* **`behaviorAnomaly_exact`**: the profile at a login is the one built from the past, and what is
  alerted on.
-/

namespace Idryx

/-! ## The baseline -/

/-- The learned behavior of an identity. -/
structure Profile where
  identityID : GoString
  countries : List (GoString × ℕ)
  devices : List (GoString × ℕ)
  hourHistogram : Fin 24 → ℕ
  totalLogins : ℕ
  firstSeen : Time
  lastSeen : Time

/-- A successful login. -/
def Event.isLogin (e : Event) : Bool := e.type == eventLogin && e.outcome == "SUCCESS"

namespace Profile

/-- `NewProfile`. -/
def new (identityID : GoString) : Profile :=
  ⟨identityID, [], [], fun _ => 0, 0, Time.zero, Time.zero⟩

/-- Fold one successful login into the profile. -/
def observe (p : Profile) (e : Event) : Profile :=
  if !e.isLogin then p
  else
    { p with
      firstSeen := if p.totalLogins = 0 || e.time.before p.firstSeen then e.time else p.firstSeen
      lastSeen := if e.time.after p.lastSeen then e.time else p.lastSeen
      totalLogins := p.totalLogins + 1
      countries := if e.country ≠ "" then Totals.put (· + ·) p.countries e.country 1 else p.countries
      devices := if e.device ≠ "" then Totals.put (· + ·) p.devices e.device 1 else p.devices
      hourHistogram :=
        Function.update p.hourHistogram e.time.hour (p.hourHistogram e.time.hour + 1) }

/-- `Build`: the profile of all events of an identity. -/
def build (id : Identity) : Profile := id.events.foldl observe (new id.id)

/-- A shorter baseline scores nothing. -/
def minLoginsToScore : ℕ := 5

/-- How unusual an event is, in tenths. -/
def score (p : Profile) (e : Event) : ℕ :=
  if p.totalLogins < minLoginsToScore then 0
  else
    let country := if e.country ≠ "" && Totals.amount id p.countries e.country = 0 then 5 else 0
    let device := if e.device ≠ "" && Totals.amount id p.devices e.device = 0 then 3 else 0
    let hour := if e.type = eventLogin && p.hourHistogram e.time.hour = 0 then 2 else 0
    min (country + device + hour) 10

end Profile

/-! ## The detector -/

/-- The least score that is reported. -/
def anomalyThreshold : ℕ := 6

/-- The next higher severity, up to critical. -/
def Severity.next : Severity → Severity
  | .none => .info
  | .info => .low
  | .low => .medium
  | .medium => .high
  | .high => .critical
  | .critical => .critical

/-- The alert on a login with this score. -/
def anomalyReport (id : Identity) (score : ℕ) (e : Event) : Alert :=
  let sev := if 8 ≤ score then Severity.high else .medium
  { detector := "behavior_anomaly"
    identityID := id.id
    severity := if id.privileged then sev.next else sev
    time := e.time
    summary := "anomaly score " ++ Strconv.itoa (score / 10) ++ "." ++ Strconv.itoa (score % 10) ++
      "0: login from " ++ e.country ++ " (" ++ e.device ++ ") deviates from baseline" }

/-- One turn of the loop over the events: the profile, and the alerts. -/
def anomalyStep (id : Identity) (st : Profile × List Alert) (e : Event) : Profile × List Alert :=
  if !e.isLogin then st
  else
    let score := st.1.score e
    (st.1.observe e,
      if score < anomalyThreshold then st.2 else st.2 ++ [anomalyReport id score e])

/-- The loop over the events of one identity. -/
def anomalyRun (id : Identity) : Profile × List Alert :=
  id.events.foldl (anomalyStep id) (Profile.new id.id, [])

/-- `BehaviorAnomaly.Detect`, over the identities the graph returns. -/
def behaviorAnomaly (ids : List Identity) : List Alert := ids.flatMap fun id => (anomalyRun id).2

/-! ## What a profile has counted -/

/-- The profile has counted these logins. -/
structure Profile.Of (p : Profile) (logins : List Event) : Prop where
  total : p.totalLogins = logins.length
  country : ∀ k : GoString, k ≠ "" → Totals.amount id p.countries k = logins.countP fun e => e.country = k
  device : ∀ k : GoString, k ≠ "" → Totals.amount id p.devices k = logins.countP fun e => e.device = k
  hour : ∀ h, p.hourHistogram h = logins.countP fun e => e.time.hour = h
  countries_le : (p.countries.map Prod.snd).sum ≤ logins.length
  devices_le : (p.devices.map Prod.snd).sum ≤ logins.length
  hours_eq : ∑ h, p.hourHistogram h = logins.length

theorem Profile.of_new (identityID : GoString) : (Profile.new identityID).Of [] :=
  { total := rfl, country := fun _ _ => rfl, device := fun _ _ => rfl, hour := fun _ => rfl
    countries_le := le_refl 0, devices_le := le_refl 0, hours_eq := by simp [Profile.new] }

theorem amount_count {m : List (GoString × ℕ)} {logins : List Event} {f : Event → GoString} (e : Event)
    (h : ∀ k : GoString, k ≠ "" → Totals.amount id m k = logins.countP fun e => f e = k) (k : GoString)
    (hk : k ≠ "") :
    Totals.amount id (if f e ≠ "" then Totals.put (· + ·) m (f e) 1 else m) k =
      (logins ++ [e]).countP fun e => f e = k := by
  rw [List.countP_append, List.countP_singleton, ← h k hk]
  by_cases he : f e ≠ ""
  · have hadd : ∀ a b : ℕ, id (a + b) = id a + id b := fun _ _ => rfl
    rw [if_pos he, Totals.amount_put hadd]
    simp
  · rw [not_not] at he
    rw [he, if_neg (not_not.mpr rfl), if_neg (by simpa using Ne.symm hk), Nat.add_zero]

theorem sum_count_le {m : List (GoString × ℕ)} {n : ℕ} (h : (m.map Prod.snd).sum ≤ n) (k : GoString) :
    ((if k ≠ "" then Totals.put (· + ·) m k 1 else m).map Prod.snd).sum ≤ n + 1 := by
  split_ifs
  · rw [Totals.sum_put]
    omega
  · omega

/-- **One more login observed.** -/
theorem Profile.Of.observe {logins : List Event} {p : Profile} (h : p.Of logins) {e : Event}
    (he : e.isLogin = true) : (p.observe e).Of (logins ++ [e]) := by
  unfold Profile.observe
  rw [he]
  refine ⟨?_, amount_count e h.country, amount_count e h.device, ?_, ?_, ?_, ?_⟩
  · rw [List.length_append, ← h.total]
    rfl
  · intro k
    rw [List.countP_append, List.countP_singleton, ← h.hour]
    by_cases hk : k = e.time.hour
    · subst hk
      simp
    · simp [Function.update_of_ne hk, Ne.symm hk]
  · rw [List.length_append]
    exact sum_count_le h.countries_le e.country
  · rw [List.length_append]
    exact sum_count_le h.devices_le e.device
  · rw [List.length_append, ← h.hours_eq]
    have hsum := Finset.sum_update_of_mem (Finset.mem_univ e.time.hour) p.hourHistogram
      (p.hourHistogram e.time.hour + 1)
    have hsplit := Finset.sum_eq_add_sum_sdiff_singleton_of_mem (Finset.mem_univ e.time.hour) p.hourHistogram
    change ∑ h, Function.update p.hourHistogram e.time.hour (p.hourHistogram e.time.hour + 1) h = _
    rw [hsum, hsplit, List.length_singleton]
    omega

theorem Profile.of_foldl_observe (events : List Event) (identityID : GoString) :
    (events.foldl Profile.observe (Profile.new identityID)).Of (events.filter Event.isLogin) := by
  induction events using List.reverseRecOn with
  | nil => exact Profile.of_new identityID
  | append_singleton events e ih =>
    rw [List.foldl_concat, List.filter_append]
    cases he : e.isLogin with
    | true =>
      rw [List.filter_cons_of_pos he, List.filter_nil]
      exact ih.observe he
    | false =>
      have hsame : ∀ p : Profile, p.observe e = p := fun p => by rw [Profile.observe, he]; rfl
      rw [List.filter_cons_of_neg (by simp [he]), List.filter_nil, List.append_nil, hsame]
      exact ih

/-! ## What is alerted on -/

/-- Five logins or more in the past, the country not empty and in none of them, and the device not empty
and in none of them, or none of them in the hour. -/
def Anomalous (past : List Event) (e : Event) : Prop :=
  5 ≤ past.length ∧ (e.country ≠ "" ∧ ∀ x ∈ past, x.country ≠ e.country) ∧
    ((e.device ≠ "" ∧ ∀ x ∈ past, x.device ≠ e.device) ∨ ∀ x ∈ past, x.time.hour ≠ e.time.hour)

instance (past : List Event) (e : Event) : Decidable (Anomalous past e) :=
  inferInstanceAs (Decidable (_ ∧ _ ∧ _))

/-- **Which signals suffice**: a new country, and a new device or a new hour. -/
theorem le_score_iff {p : Profile} {past : List Event} (h : p.Of past) {e : Event}
    (he : e.isLogin = true) : anomalyThreshold ≤ p.score e ↔ Anomalous past e := by
  have htype : e.type = eventLogin := by
    simp only [Event.isLogin, Bool.and_eq_true, beq_iff_eq] at he
    exact he.1
  unfold Profile.score Anomalous anomalyThreshold
  rw [h.total]
  by_cases hmin : past.length < Profile.minLoginsToScore
  · rw [if_pos hmin]
    unfold Profile.minLoginsToScore at hmin
    omega
  · rw [if_neg hmin]
    have h5 : 5 ≤ past.length := not_lt.mp hmin
    have hcountry : (e.country ≠ "" && Totals.amount id p.countries e.country = 0) = true ↔
        e.country ≠ "" ∧ ∀ x ∈ past, x.country ≠ e.country := by
      rw [Bool.and_eq_true, decide_eq_true_eq, decide_eq_true_eq]
      refine and_congr_right fun hne => ?_
      rw [h.country _ hne, List.countP_eq_zero]
      simp
    have hdevice : (e.device ≠ "" && Totals.amount id p.devices e.device = 0) = true ↔
        e.device ≠ "" ∧ ∀ x ∈ past, x.device ≠ e.device := by
      rw [Bool.and_eq_true, decide_eq_true_eq, decide_eq_true_eq]
      refine and_congr_right fun hne => ?_
      rw [h.device _ hne, List.countP_eq_zero]
      simp
    have hhour : (e.type = eventLogin && p.hourHistogram e.time.hour = 0) = true ↔
        ∀ x ∈ past, x.time.hour ≠ e.time.hour := by
      rw [Bool.and_eq_true, decide_eq_true_eq, decide_eq_true_eq, h.hour, List.countP_eq_zero]
      simp [htype]
    rw [← hcountry, ← hdevice, ← hhour]
    dsimp only
    split_ifs <;> simp_all

/-- **The profile at a login is that of the past.** -/
theorem anomalyRun_fst (i : Identity) : (anomalyRun i).1 = Profile.build i := by
  refine (List.foldl_hom Prod.fst fun st e => ?_).symm
  unfold anomalyStep Profile.observe
  cases e.isLogin <;> rfl

/-- **What the detector judges a login by.** The profile it has learned is the one built from the events
so far, whose counts of countries, devices and hours are not above its logins in total. A successful login
more adds an alert exactly when it is anomalous after the successful logins so far; any other event adds
nothing. -/
theorem behaviorAnomaly_exact (i : Identity) (before : List Event) (e : Event) :
    let cut := fun events : List Event => { i with events := events }
    let p := Profile.build (cut before)
    let alerts := fun events => (anomalyRun (cut events)).2
    (anomalyRun (cut before)).1 = p ∧
    ((p.countries.map Prod.snd).sum ≤ p.totalLogins ∧ (p.devices.map Prod.snd).sum ≤ p.totalLogins ∧
      ∑ h, p.hourHistogram h ≤ p.totalLogins) ∧
    (e.isLogin = true → alerts (before ++ [e]) =
      alerts before ++ if Anomalous (before.filter Event.isLogin) e then
        [anomalyReport i (p.score e) e] else []) ∧
    (e.isLogin = false → alerts (before ++ [e]) = alerts before) ∧
    ∀ ids, behaviorAnomaly ids = ids.flatMap fun id => (anomalyRun id).2 := by
  have hof := Profile.of_foldl_observe before i.id
  have hturn : anomalyRun { i with events := before ++ [e] } =
      anomalyStep i (anomalyRun { i with events := before }) e :=
    List.foldl_concat (anomalyStep i) (Profile.new i.id, []) e before
  refine ⟨anomalyRun_fst _, ⟨?_, ?_, ?_⟩, ?_, ?_, fun _ => rfl⟩
  · exact hof.total ▸ hof.countries_le
  · exact hof.total ▸ hof.devices_le
  · exact hof.total ▸ hof.hours_eq.le
  · intro he
    dsimp only
    rw [hturn, anomalyStep, he, anomalyRun_fst]
    have hscore : anomalyThreshold ≤ (Profile.build { i with events := before }).score e ↔
        Anomalous (before.filter Event.isLogin) e := le_score_iff hof he
    by_cases h : Anomalous (before.filter Event.isLogin) e
    · rw [if_pos h]
      exact if_neg (not_lt.mpr (hscore.mpr h))
    · rw [if_neg h, List.append_nil]
      exact if_pos (not_le.mp fun hle => h (hscore.mp hle))
  · intro he
    dsimp only
    rw [hturn, anomalyStep, he]
    rfl

end Idryx
