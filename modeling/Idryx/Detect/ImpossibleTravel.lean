import Idryx.Graph.Store
import Mathlib.Data.NNRat.Lemmas
import Mathlib.Tactic.Linarith

/-!
# The impossible-travel detector

`internal/detect/detectors/impossible_travel.go`: two successful logins of one identity too far apart for
the time between them.

* `Geo`: what is taken of floating point, the distance and the printing, both as exact rationals;
* `hasGeo`, `travelAlert`, `travelStep`, `travelAlerts`, `impossibleTravel`;
* `travelAlerts_filter`: the other events do not matter;
* **`impossibleTravel_exact`**: a login is alerted on when time has passed since the one before it, and
  too little for the distance.
-/

namespace Idryx

/-- The distance in kilometres between two coordinates, and a number printed by `%.nf`. -/
structure Geo where
  haversineKm : F64 → F64 → F64 → F64 → ℚ≥0
  fixed : ℕ → ℚ → GoString

/-- The event says where it was. -/
def hasGeo (e : Event) : Bool := !e.lat.isZero || !e.lon.isZero

/-- `Duration.Hours` of the time between the two. -/
def hoursBetween (prev e : Event) : ℚ := e.time.sub prev.time / 3600000000000

/-- No one travels faster. -/
def maxFeasibleKmh : ℚ := 1000

/-- The kilometres between the two. -/
def Geo.km (G : Geo) (prev e : Event) : ℚ := G.haversineKm prev.lat prev.lon e.lat e.lon

/-- The alert on a login, given the one before it. -/
def travelReport (G : Geo) (id : Identity) (prev e : Event) : Alert :=
  let hours := hoursBetween prev e
  { detector := "impossible_travel"
    identityID := id.id
    severity := if id.privileged then .critical else .high
    time := e.time
    summary := G.fixed 0 (G.km prev e) ++ " km in " ++ G.fixed 1 hours ++ "h (" ++
      G.fixed 0 (G.km prev e / hours) ++ " km/h) between " ++ prev.city ++ " and " ++ e.city }

/-- What a login adds, given the one before it. -/
def travelAlert (G : Geo) (id : Identity) (prev e : Event) : List Alert :=
  let hours := hoursBetween prev e
  if 0 < hours then
    if maxFeasibleKmh < G.km prev e / hours then [travelReport G id prev e] else []
  else []

/-- One turn of the loop over the events: the login before, and the alerts. -/
def travelStep (G : Geo) (id : Identity) (st : Option Event × List Alert) (e : Event) :
    Option Event × List Alert :=
  if e.type ≠ eventLogin ∨ e.outcome ≠ "SUCCESS" then st
  else if !hasGeo e then st
  else
    match st.1 with
    | none => (some e, st.2)
    | some prev => (some e, st.2 ++ travelAlert G id prev e)

/-- The alerts of one identity. -/
def travelAlerts (G : Geo) (id : Identity) : List Alert :=
  (id.events.foldl (travelStep G id) (none, [])).2

/-- `ImpossibleTravel.Detect`, over the identities the graph returns. -/
def impossibleTravel (G : Geo) (ids : List Identity) : List Alert := ids.flatMap (travelAlerts G)

/-! ## The logins compared -/

/-- A successful login with coordinates. -/
def Event.located (e : Event) : Bool := e.type == eventLogin && e.outcome == "SUCCESS" && hasGeo e

variable {G : Geo} {i : Identity}

theorem travelStep_of_not_located {e : Event} (h : e.located = false) (st : Option Event × List Alert) :
    travelStep G i st e = st := by
  unfold travelStep
  by_cases hlogin : e.type ≠ eventLogin ∨ e.outcome ≠ "SUCCESS"
  · rw [if_pos hlogin]
  · rw [not_or, not_not, not_not] at hlogin
    have hgeo : hasGeo e = false := by simpa [Event.located, hlogin.1, hlogin.2] using h
    rw [if_neg (by simp [hlogin.1, hlogin.2]), hgeo]
    rfl

theorem travelStep_of_located {e : Event} (h : e.located = true) (st : Option Event × List Alert) :
    travelStep G i st e =
      (some e, st.2 ++ (st.1.map fun prev => travelAlert G i prev e).getD []) := by
  simp only [Event.located, Bool.and_eq_true, beq_iff_eq] at h
  obtain ⟨⟨htype, hout⟩, hgeo⟩ := h
  unfold travelStep
  rw [if_neg (by simp [htype, hout]), hgeo]
  cases st.1 <;> simp

theorem foldl_travelStep_fst (before : List Event) :
    (before.foldl (travelStep G i) (none, [])).1 = (before.filter Event.located).getLast? := by
  induction before using List.reverseRecOn with
  | nil => rfl
  | append_singleton before e ih =>
    rw [List.foldl_concat, List.filter_append]
    cases he : e.located with
    | false => rw [travelStep_of_not_located he, ih]; simp [he]
    | true => rw [travelStep_of_located he]; simp [he]

/-- **The other events do not matter**: failed logins, those without coordinates, and all that is no
login. -/
theorem travelAlerts_filter (G : Geo) (i : Identity) :
    travelAlerts G { i with events := i.events.filter Event.located } = travelAlerts G i := by
  have hrun : ∀ (es : List Event) (st : Option Event × List Alert),
      (es.filter Event.located).foldl (travelStep G i) st = es.foldl (travelStep G i) st := by
    intro es
    induction es with
    | nil => intro st; rfl
    | cons e es ih =>
      intro st
      cases he : e.located with
      | false => rw [List.filter_cons_of_neg (by simp [he]), List.foldl_cons,
          travelStep_of_not_located he, ih]
      | true => rw [List.filter_cons_of_pos he, List.foldl_cons, List.foldl_cons, ih]
  exact congrArg Prod.snd (hrun i.events (none, []))

/-! ## The speed -/

/-- The nanoseconds between the two, of which a duration holds no more than 292 years. -/
def elapsed (prev e : Event) : ℤ := min (e.time.instant - prev.time.instant) (2 ^ 63 - 1)

/-- Time has passed, and too little for the distance at 1000 km/h. -/
def TooFast (G : Geo) (prev e : Event) : Prop :=
  prev.time.instant < e.time.instant ∧ 1000 * (elapsed prev e / 3600000000000 : ℚ) < G.km prev e

instance (G : Geo) (prev e : Event) : Decidable (TooFast G prev e) := inferInstanceAs (Decidable (_ ∧ _))

theorem hoursBetween_pos {prev e : Event} :
    0 < hoursBetween prev e ↔ prev.time.instant < e.time.instant := by
  have hsub : 0 < e.time.sub prev.time ↔ prev.time.instant < e.time.instant := by
    rw [Time.lt_sub_iff (by decide) (by decide)]
    omega
  rw [← hsub, hoursBetween, ← Int.cast_pos (R := ℚ)]
  constructor
  · intro h
    linarith
  · intro h
    linarith

theorem travelAlert_eq (G : Geo) (i : Identity) (prev e : Event) :
    travelAlert G i prev e = if TooFast G prev e then [travelReport G i prev e] else [] := by
  unfold travelAlert
  by_cases hpos : 0 < hoursBetween prev e
  · have hlt := hoursBetween_pos.mp hpos
    have hhours : hoursBetween prev e = elapsed prev e / 3600000000000 := by
      unfold hoursBetween elapsed Time.sub Time.minDuration Time.maxDuration
      rw [max_eq_right (by omega), min_comm]
      norm_num
    have hfast : maxFeasibleKmh < G.km prev e / hoursBetween prev e ↔ TooFast G prev e := by
      rw [lt_div_iff₀ hpos, TooFast, ← hhours]
      exact (and_iff_right hlt).symm
    rw [if_pos hpos, if_congr hfast rfl rfl]
  · have hslow : ¬ TooFast G prev e := fun h => hpos (hoursBetween_pos.mpr h.1)
    rw [if_neg hpos, if_neg hslow]

/-- **A login more**: a successful one with coordinates adds an alert exactly when it is too fast after
the last earlier one, and any other event adds nothing. The alerts of an identity are those of its
successful logins with coordinates, and those of a graph are its identities' in turn. -/
theorem impossibleTravel_exact (G : Geo) (i : Identity) (before : List Event) (e : Event) :
    let alerts := fun events => travelAlerts G { i with events := events }
    (e.located = true → ∀ prev, (before.filter Event.located).getLast? = some prev →
      alerts (before ++ [e]) =
        alerts before ++ if TooFast G prev e then [travelReport G i prev e] else []) ∧
    (e.located = true → (before.filter Event.located).getLast? = none →
      alerts (before ++ [e]) = alerts before) ∧
    (e.located = false → alerts (before ++ [e]) = alerts before) ∧
    alerts (before.filter Event.located) = alerts before ∧
    ∀ ids, impossibleTravel G ids = ids.flatMap (travelAlerts G) := by
  have hturn : travelAlerts G { i with events := before ++ [e] } =
      (travelStep G i (before.foldl (travelStep G i) (none, [])) e).2 :=
    congrArg Prod.snd (List.foldl_concat (travelStep G i) (none, []) e before)
  refine ⟨?_, ?_, ?_, travelAlerts_filter G { i with events := before }, fun _ => rfl⟩
  · intro he prev hprev
    dsimp only
    rw [hturn, travelStep_of_located he, foldl_travelStep_fst, hprev, Option.map_some,
      Option.getD_some, travelAlert_eq]
    rfl
  · intro he hprev
    dsimp only
    rw [hturn, travelStep_of_located he, foldl_travelStep_fst, hprev, Option.map_none,
      Option.getD_none, List.append_nil]
    rfl
  · intro he
    dsimp only
    rw [hturn, travelStep_of_not_located he]
    rfl

/-- A successful login at a place and a time. -/
def loginAt (time : Time) (city : GoString) (lat lon : F64) : Event :=
  { (default : Event) with
    time := time, type := eventLogin, outcome := "SUCCESS", city := city, lat := lat, lon := lon }

theorem travelAlerts_pair {G : Geo} {i : Identity} {prev e : Event} (hprev : prev.located = true)
    (he : e.located = true) (hi : i.events = [prev, e]) :
    travelAlerts G i = if TooFast G prev e then [travelReport G i prev e] else [] := by
  unfold travelAlerts
  rw [hi, List.foldl_cons, List.foldl_cons, List.foldl_nil, travelStep_of_located hprev,
    travelStep_of_located he, ← travelAlert_eq]
  rfl

/-- Two logins at one instant in distant places are not alerted on, the hours between them not being
positive; and of more than 292 years a duration holds 292. -/
theorem not_travelAlert_simultaneous :
    (let newYork := loginAt Time.zero "New York" ⟨0x40445b3d07c84b5e⟩ ⟨0xc05280624dd2f1aa⟩
     let london := loginAt Time.zero "London" ⟨0x4049c0f27bb2fec5⟩ ⟨0xbfc05bc01a36e2eb⟩
     let G : Geo := ⟨fun _ _ _ _ => 5570, fun _ _ => ""⟩
     newYork.located = true ∧ london.located = true ∧
       1000 * ((london.time.instant - newYork.time.instant : ℤ) / 3600000000000 : ℚ) < G.km newYork london ∧
       impossibleTravel G [{ Identity.zero "dave" with events := [newYork, london] }] = []) ∧
    (let start := loginAt Time.zero "" ⟨1⟩ ⟨1⟩
     let later := loginAt (Time.seconds 12622780800) "" ⟨1⟩ ⟨1⟩
     let G : Geo := ⟨fun _ _ _ _ => 3000000000, fun _ _ => ""⟩
     start.located = true ∧ later.located = true ∧
       ¬ 1000 * ((later.time.instant - start.time.instant : ℤ) / 3600000000000 : ℚ) < G.km start later ∧
       impossibleTravel G [{ Identity.zero "dave" with events := [start, later] }] ≠ []) := by
  constructor
  · intro newYork london G
    have hny : newYork.located = true := by decide
    have hlon : london.located = true := by decide
    refine ⟨hny, hlon, ?_, ?_⟩
    · have h0 : london.time.instant - newYork.time.instant = 0 := by decide
      have hkm : G.km newYork london = 5570 := rfl
      rw [h0, hkm]
      norm_num
    · have hslow : ¬ TooFast G newYork london := fun h => absurd h.1 (by decide)
      rw [impossibleTravel, List.flatMap_singleton, travelAlerts_pair hny hlon rfl, if_neg hslow]
  · intro start later G
    have hs : start.located = true := by decide
    have hl : later.located = true := by decide
    have hkm : G.km start later = 3000000000 := rfl
    refine ⟨hs, hl, ?_, ?_⟩
    · have h0 : later.time.instant - start.time.instant = 12622780800000000000 := by decide
      rw [h0, hkm]
      norm_num
    · have hfast : TooFast G start later := by
        have h0 : elapsed start later = 9223372036854775807 := by decide
        refine ⟨by decide, ?_⟩
        rw [h0, hkm]
        norm_num
      rw [impossibleTravel, List.flatMap_singleton, travelAlerts_pair hs hl rfl, if_pos hfast]
      exact List.cons_ne_nil _ _

end Idryx
