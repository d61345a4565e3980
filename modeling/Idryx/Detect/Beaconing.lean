import Idryx.Lib.Rhythm
import Idryx.Lib.Groups
import Idryx.Detect.LLM
import Idryx.Model
import Mathlib.Algebra.Order.Ring.Rat
import Mathlib.Data.Nat.Sqrt
import Mathlib.Tactic.NormNum

/-!
# The beaconing detector

`internal/detect/detectors/beaconing.go`: connections of an identity to one destination on a regular cadence.
Means and variations are exact rationals, and the coefficient of variation is kept squared.

* `Durations`: how the time between two connections is held; `beaconIntervals`, `meanAndCV`, `beaconAlert`,
  `beaconing`;
* `conversation`: the instants of what an identity sent to a destination; **`beacons_iff`**: it is alerted on
  for the rhythm of these;
* **`beaconing_rhythm`**: what leaves the verdict as it is, and what decides it.
-/

namespace Idryx

/-! ## The detector -/

/-- Fewer connections are no rhythm. -/
def beaconMinConnections : ℕ := 4

/-- 0.15. -/
def beaconMaxCV : ℚ := 15 / 100

/-- Two seconds. -/
def beaconMinInterval : ℤ := 2000000000

/-- How the time between two connections is held: as it is, or as far as a duration reaches. -/
inductive Durations
  | exact
  | capped
  deriving DecidableEq

namespace Durations

/-- The time between two events. -/
def sub : Durations → Time → Time → ℤ
  | exact, t, u => t.instant - u.instant
  | capped, t, u => t.sub u

/-- What is held of a number of nanoseconds. -/
def hold : Durations → ℤ → ℤ
  | exact, g => g
  | capped, g => max Time.minDuration (min Time.maxDuration g)

theorem sub_eq (D : Durations) (t u : Time) : D.sub t u = D.hold (t.instant - u.instant) := by
  cases D <;> rfl

end Durations

/-- The loop over the sorted times: the intervals, none if one of them is too short. -/
def beaconIntervals (D : Durations) : List Time → List ℤ → List ℤ
  | [], intervals => intervals
  | [_], intervals => intervals
  | prev :: t :: times, intervals =>
    let gap := D.sub t prev
    if gap < beaconMinInterval then []
    else beaconIntervals D (t :: times) (intervals ++ [gap])

/-- `Duration.Seconds`. -/
def inSeconds (d : ℤ) : ℚ := 1 / 1000000000 * d

/-- `meanAndCV`: the mean interval, and the square of the coefficient of variation. -/
def meanAndCV (intervals : List ℚ) : ℚ × ℚ :=
  if intervals.isEmpty then (0, 1)
  else
    let mean := intervals.sum / intervals.length
    if mean ≤ 0 then (mean, 1)
    else
      let sq := (intervals.map fun v => (v - mean) * (v - mean)).sum
      (mean, sq / intervals.length / (mean * mean))

/-- `Duration.Round`, to the nearest multiple. -/
def roundTo (m d : ℕ) : ℕ := if d % m + d % m < m then d - d % m else d + m - d % m

/-- `Duration.String` of so many tenths of a second. -/
def tenthsString (tenths : ℕ) : GoString :=
  let sec := tenths / 10
  if sec = 0 then if tenths = 0 then "0s" else Strconv.itoa (tenths * 100) ++ ("ms" : GoString)
  else
    (if 3600 ≤ sec then Strconv.itoa (sec / 3600) ++ ("h" : GoString) else "") ++
      (if 60 ≤ sec then Strconv.itoa (sec / 60 % 60) ++ ("m" : GoString) else "") ++
      Strconv.itoa (sec % 60) ++
      (if tenths % 10 = 0 then ("" : GoString) else ("." : GoString) ++ Strconv.itoa (tenths % 10)) ++ "s"

/-- `roundedInterval`: a cadence as one would say it. -/
def roundedInterval (seconds : ℚ) : GoString :=
  let d := (seconds * 1000000000).floor.toNat
  let unit := if 3600000000000 ≤ d then 60000000000 else if 60000000000 ≤ d then 1000000000 else 100000000
  tenthsString (roundTo unit d / 100000000)

/-- `%.0f` of the hundredfold coefficient of variation, given its square; a half goes to the even number. -/
def percent (cv : ℚ) : GoString :=
  let n := (10000 * cv).floor.toNat.sqrt
  let half : ℚ := (n + 1 / 2) * (n + 1 / 2)
  Strconv.itoa (if half < 10000 * cv ∨ (half = 10000 * cv ∧ n % 2 = 1) then n + 1 else n)

/-- The alert on a cadence. -/
def beaconReport (U : Unicode) (now : Time) (id dest : GoString) (n : ℕ) (mean cv : ℚ) : Alert :=
  let cadence : GoString := (" on a regular cadence: every " : GoString) ++ roundedInterval mean ++
    (", varying by " : GoString) ++ percent cv
  match matchLLM U dest with
  | none => ⟨"beaconing", id, .medium, now, Strconv.itoa n ++ (" connections to " : GoString) ++ dest ++ cadence ++
      "%. A heartbeat, not work; identify what schedules it"⟩
  | some provider => ⟨"beaconing", id, .high, now, Strconv.itoa n ++ (" connections to " : GoString) ++ dest ++
      (" (" : GoString) ++ provider.display ++ (")" : GoString) ++ cadence ++
      "%. A fixed cadence to a model API is a poll, not a conversation"⟩

/-- What the detector makes of the connections to one destination. -/
def beaconAlert (D : Durations) (U : Unicode) (now : Time) (id dest : GoString) (times : List Time) : Option Alert :=
  if times.length < beaconMinConnections then none
  else
    let intervals := beaconIntervals D (times.insertionSort fun a b => !b.before a) []
    if intervals.length < beaconMinConnections - 1 then none
    else
      let (mean, cv) := meanAndCV (intervals.map inSeconds)
      if beaconMaxCV * beaconMaxCV < cv then none
      else some (beaconReport U now id dest times.length mean cv)

/-- An egress event that names where it went. -/
def Event.isConnection (e : Event) : Bool := e.type == eventEgress && !(e.resource == "")

/-- `byDest`: the times of the connections of an identity, by destination. -/
def byDest (id : Identity) : List (GoString × List Time) :=
  id.events.foldl (fun m e => if e.isConnection then Groups.append e.resource e.time m else m) []

/-- What the detector makes of one destination of an identity. -/
def beacon (D : Durations) (U : Unicode) (now : Time) (id : Identity) (dest : GoString) : Option Alert :=
  beaconAlert D U now id.id dest (Groups.members (byDest id) dest)

/-- `Beaconing.Detect`, over the identities the graph returns. -/
def beaconing (D : Durations) (U : Unicode) (now : Time) (ids : List Identity) : List Alert :=
  let alerts := ids.flatMap fun id => (Strings.sort ((byDest id).map Prod.fst)).filterMap (beacon D U now id)
  alerts.insertionSort fun a b =>
    a.identityID < b.identityID ∨ (a.identityID = b.identityID ∧ a.summary ≤ b.summary)

/-! ## The rhythm of a conversation -/

/-- The instants of what an identity sent to a destination. -/
def conversation (id : Identity) (dest : GoString) : List ℤ :=
  (id.events.filter fun e => e.isConnection && e.resource = dest).map fun e => e.time.instant

/-- A cadence: enough intervals, none of them too short, that vary little. -/
structure Regular (D : Durations) (intervals : List ℤ) : Prop where
  many : beaconMinConnections - 1 ≤ intervals.length
  long : ∀ g ∈ intervals, beaconMinInterval ≤ g
  even : Rhythm.spread (intervals.map fun g => (D.hold g : ℚ)) ≤ beaconMaxCV * beaconMaxCV

theorem members_byDest (id : Identity) (dest : GoString) :
    (Groups.members (byDest id) dest).map Time.instant = conversation id dest := by
  rw [byDest, Groups.members_appends, List.map_map, conversation]
  rfl

section Cadence

variable {D : Durations}

theorem Durations.hold_lt_iff (g : ℤ) : D.hold g < beaconMinInterval ↔ g < beaconMinInterval := by
  cases D with
  | exact => exact Iff.rfl
  | capped =>
    show max _ (min _ g) < _ ↔ _
    unfold beaconMinInterval Time.minDuration Time.maxDuration
    omega

/-- **The loop** keeps the gaps, or none of them. -/
theorem beaconIntervals_eq (acc : List ℤ) : ∀ times : List Time,
    (∀ g ∈ Rhythm.gaps (times.map Time.instant), beaconMinInterval ≤ g) →
    beaconIntervals D times acc = acc ++ (Rhythm.gaps (times.map Time.instant)).map D.hold
  | [], _ => (List.append_nil acc).symm
  | [_], _ => (List.append_nil acc).symm
  | prev :: t :: times, h => by
    simp only [List.map_cons, Rhythm.gaps, List.forall_mem_cons] at h ⊢
    have hgap : ¬ D.sub t prev < beaconMinInterval := by
      rw [D.sub_eq, D.hold_lt_iff]
      exact not_lt.mpr h.1
    have ih := beaconIntervals_eq (acc ++ [D.sub t prev]) (t :: times) h.2
    rw [beaconIntervals, if_neg hgap, ih, D.sub_eq, List.append_assoc]
    rfl

theorem beaconIntervals_burst {g : ℤ} (hg : g < beaconMinInterval) (acc : List ℤ) : ∀ times : List Time,
    g ∈ Rhythm.gaps (times.map Time.instant) → beaconIntervals D times acc = []
  | [], h => absurd h List.not_mem_nil
  | [_], h => absurd h List.not_mem_nil
  | prev :: t :: times, h => by
    rw [beaconIntervals]
    split_ifs with hgap
    · rfl
    · rcases List.mem_cons.mp h with rfl | h
      · rw [D.sub_eq, D.hold_lt_iff] at hgap
        exact absurd hg hgap
      · exact beaconIntervals_burst hg _ (t :: times) h

theorem map_sorted (times : List Time) :
    (times.insertionSort fun a b => !b.before a).map Time.instant =
      (times.map Time.instant).insertionSort (· ≤ ·) := by
  refine List.map_insertionSort _ (· ≤ ·) _ _ fun a _ b _ => ?_
  rw [Bool.not_eq_true', Bool.eq_false_iff, Ne, Time.before_iff, not_lt]

theorem meanAndCV_eq {intervals : List ℚ} (hne : intervals ≠ []) (hpos : ∀ v ∈ intervals, 0 < v) :
    meanAndCV intervals = (Rhythm.mean intervals, Rhythm.spread intervals) := by
  have hmean : ¬ intervals.sum / intervals.length ≤ 0 := not_le.mpr (Rhythm.mean_pos hne hpos)
  unfold meanAndCV
  rw [if_neg (by simpa using hne)]
  dsimp only
  rw [if_neg hmean]
  rfl

/-- **What is alerted on** is a regular cadence. -/
theorem beacons_iff {U : Unicode} {now : Time} {id : Identity} {dest : GoString} :
    (beacon D U now id dest).isSome = true ↔ Regular D (Rhythm.rhythm (conversation id dest)) := by
  rw [← members_byDest]
  unfold beacon beaconAlert
  set times := Groups.members (byDest id) dest
  set gs := Rhythm.rhythm (times.map Time.instant) with hgs
  have hlen : gs.length = times.length - 1 := by
    rw [hgs, Rhythm.length_rhythm, List.length_map]
  have hgaps : Rhythm.gaps ((times.insertionSort fun a b => !b.before a).map Time.instant) = gs := by
    rw [map_sorted]
    rfl
  by_cases hmany : beaconMinConnections - 1 ≤ gs.length
  swap
  · rw [if_pos (by unfold beaconMinConnections at *; omega)]
    exact iff_of_false (by simp) fun h => hmany h.many
  rw [if_neg (by unfold beaconMinConnections at *; omega)]
  dsimp only
  by_cases hlong : ∀ g ∈ gs, beaconMinInterval ≤ g
  swap
  · push Not at hlong
    obtain ⟨g, hg, hlt⟩ := hlong
    rw [beaconIntervals_burst hlt [] _ (hgaps ▸ hg), if_pos (by decide)]
    exact iff_of_false (by simp) fun h => absurd (h.long g hg) (not_le.mpr hlt)
  have hint := beaconIntervals_eq (D := D) [] (times.insertionSort fun a b => !b.before a) (hgaps ▸ hlong)
  rw [hgaps, List.nil_append] at hint
  rw [hint, List.length_map, if_neg (not_lt.mpr hmany)]
  have hne : (gs.map D.hold).map inSeconds ≠ [] := by
    intro hnil
    rw [List.map_eq_nil_iff, List.map_eq_nil_iff] at hnil
    rw [hnil] at hmany
    exact absurd hmany (by decide)
  have hpos : ∀ v ∈ (gs.map D.hold).map inSeconds, 0 < v := by
    simp only [List.forall_mem_map]
    intro g hg
    have hge : beaconMinInterval ≤ D.hold g := not_lt.mp fun h => not_lt.mpr (hlong g hg) ((D.hold_lt_iff g).mp h)
    have hgt : 0 < D.hold g := lt_of_lt_of_le (by decide) hge
    exact mul_pos (by norm_num) (Int.cast_pos.mpr hgt)
  have hunit : (gs.map D.hold).map inSeconds =
      (gs.map fun g => (D.hold g : ℚ)).map ((1 / 1000000000 : ℚ) * ·) := by
    rw [List.map_map, List.map_map]
    rfl
  have hcv := meanAndCV_eq hne hpos
  have hspread : Rhythm.spread ((gs.map D.hold).map inSeconds) = Rhythm.spread (gs.map fun g => (D.hold g : ℚ)) := by
    rw [hunit, Rhythm.spread_smul (by norm_num)]
  rw [hcv]
  dsimp only
  rw [hspread]
  split_ifs with heven
  · exact iff_of_false (by simp) fun h => absurd h.even (not_le.mpr heven)
  · exact iff_of_true rfl ⟨hmany, hlong, not_lt.mp heven⟩

/-! ## What leaves a cadence a cadence -/

theorem Regular.of_perm {gs gs' : List ℤ} (h : gs.Perm gs') (hr : Regular D gs) : Regular D gs' :=
  { many := h.length_eq ▸ hr.many
    long := fun g hg => hr.long g (h.mem_iff.mpr hg)
    even := by
      rw [Rhythm.spread_perm (h.symm.map _)]
      exact hr.even }

theorem Durations.hold_eq {g : ℤ} (h0 : 0 ≤ g) (h : D = .capped → g ≤ Time.maxDuration) : D.hold g = g := by
  cases D with
  | exact => rfl
  | capped =>
    have hg := h rfl
    have hmin : Time.minDuration ≤ 0 := by decide
    rw [hold, min_eq_right hg, max_eq_right (le_trans hmin h0)]

/-- **A cadence in slow motion** is one: all gaps `k` times as long, as far as they are held. -/
theorem regular_smul {k : ℤ} (hk : 0 < k) {gs : List ℤ} (hlong : ∀ g ∈ gs, beaconMinInterval ≤ g)
    (hcap : D = .capped → ∀ g ∈ gs, k * g ≤ Time.maxDuration) :
    Regular D (gs.map (k * ·)) ↔ Regular D gs := by
  have hpos : ∀ g ∈ gs, 0 ≤ g := fun g hg => le_trans (by decide) (hlong g hg)
  have hge : ∀ g ∈ gs, g ≤ k * g := fun g hg => le_mul_of_one_le_left (hpos g hg) hk
  have hheld : ∀ g ∈ gs, D.hold g = g := fun g hg =>
    Durations.hold_eq (hpos g hg) fun hD => le_trans (hge g hg) (hcap hD g hg)
  have hheld' : ∀ g ∈ gs, D.hold (k * g) = k * g := fun g hg =>
    Durations.hold_eq (mul_nonneg hk.le (hpos g hg)) fun hD => hcap hD g hg
  have hmap : (gs.map (k * ·)).map (fun g => (D.hold g : ℚ)) =
      (gs.map fun g => (D.hold g : ℚ)).map ((k : ℚ) * ·) := by
    rw [List.map_map, List.map_map]
    refine List.map_congr_left fun g hg => ?_
    simp only [Function.comp_apply, hheld g hg, hheld' g hg, Int.cast_mul]
  have hspread := Rhythm.spread_smul (Int.cast_ne_zero.mpr hk.ne' : (k : ℚ) ≠ 0) (gs.map fun g => (D.hold g : ℚ))
  constructor
  · intro h
    exact ⟨List.length_map (k * ·) ▸ h.many, hlong, hspread ▸ hmap ▸ h.even⟩
  · intro h
    refine ⟨(List.length_map (k * ·)).symm ▸ h.many, ?_, ?_⟩
    · simp only [List.forall_mem_map]
      exact fun g hg => le_trans (hlong g hg) (hge g hg)
    · rw [hmap, hspread]
      exact h.even

theorem regular_replicate {n : ℕ} (hn : beaconMinConnections - 1 ≤ n) {p : ℤ} (hp : beaconMinInterval ≤ p) :
    Regular D (List.replicate n p) :=
  { many := List.length_replicate.symm ▸ hn
    long := fun _ hg => List.eq_of_mem_replicate hg ▸ hp
    even := by
      rw [List.map_replicate, Rhythm.spread_replicate]
      exact mul_self_nonneg beaconMaxCV }

end Cadence

/-! ## The verdict -/

/-- The same event at another time. -/
structure Event.Retimed (f : ℤ → ℤ) (e e' : Event) : Prop where
  type_eq : e'.type = e.type
  resource_eq : e'.resource = e.resource
  instant_eq : e'.time.instant = f e.time.instant

theorem conversation_retimed {f : ℤ → ℤ} {i i' : Identity} (h : List.Forall₂ (Event.Retimed f) i.events i'.events)
    (dest : GoString) : conversation i' dest = (conversation i dest).map f := by
  unfold conversation
  generalize i.events = es, i'.events = es' at h
  induction h with
  | nil => rfl
  | @cons e e' es es' he _ ih =>
    have htest : (e'.isConnection && e'.resource = dest) = (e.isConnection && e.resource = dest) := by
      rw [Event.isConnection, Event.isConnection, he.type_eq, he.resource_eq]
    rw [List.filter_cons, List.filter_cons, htest]
    split_ifs
    · rw [List.map_cons, List.map_cons, List.map_cons, ih, he.instant_eq]
    · exact ih

theorem mem_beaconing {D : Durations} {U : Unicode} {now : Time} {ids : List Identity} {al : Alert} :
    al ∈ beaconing D U now ids ↔ ∃ id ∈ ids, ∃ dest, beacon D U now id dest = some al := by
  simp only [beaconing, List.mem_insertionSort, List.mem_flatMap, List.mem_filterMap]
  refine exists_congr fun id => and_congr_right fun _ => exists_congr fun dest => and_iff_right_of_imp fun h => ?_
  refine (List.mem_insertionSort _).mpr (by_contra fun hkey => ?_)
  rw [beacon, Groups.members, Keyed.lookup_eq_none.mpr hkey] at h
  cases h

/-- **Only the rhythm counts.** -/
theorem beaconing_rhythm (D : Durations) (U : Unicode) (now : Time) :
    (∀ ids al, al ∈ beaconing D U now ids ↔ ∃ id ∈ ids, ∃ dest, beacon D U now id dest = some al) ∧
    ∀ (i i' : Identity) (dest : GoString),
      let alerted (i : Identity) : Bool := (beacon D U now i dest).isSome
      let gaps (i : Identity) : List ℤ := Rhythm.rhythm (conversation i dest)
      (i'.events.Perm i.events → alerted i' = alerted i) ∧
      (∀ c, List.Forall₂ (Event.Retimed (· + c)) i.events i'.events → alerted i' = alerted i) ∧
      (∀ c, List.Forall₂ (Event.Retimed (c - ·)) i.events i'.events → alerted i' = alerted i) ∧
      (∀ k, 0 < k → (∀ g ∈ gaps i, beaconMinInterval ≤ g) → gaps i' = (gaps i).map (k * ·) →
        (D = .capped → ∀ g ∈ gaps i', g ≤ Time.maxDuration) → alerted i' = alerted i) ∧
      (i'.events.filter (fun e => e.isConnection && e.resource = dest) =
        i.events.filter (fun e => e.isConnection && e.resource = dest) → alerted i' = alerted i) ∧
      (∀ a p n, beaconMinConnections ≤ n → beaconMinInterval ≤ p →
        (conversation i dest).Perm (Rhythm.series a p n) → alerted i = true) ∧
      ((∃ g ∈ gaps i, g < beaconMinInterval) → alerted i = false) := by
  refine ⟨fun ids al => mem_beaconing, fun i i' dest => ?_⟩
  intro alerted gaps
  have hiff (j : Identity) : alerted j = true ↔ Regular D (gaps j) := beacons_iff
  have hperm (h : (gaps i').Perm (gaps i)) : alerted i' = alerted i := by
    rw [Bool.eq_iff_iff, hiff, hiff]
    exact ⟨Regular.of_perm h, Regular.of_perm h.symm⟩
  have hsame (h : gaps i' = gaps i) : alerted i' = alerted i := hperm (h ▸ List.Perm.refl _)
  refine ⟨fun h => hsame ?_, fun c h => hsame ?_, fun c h => hperm ?_, fun k hk hlong hgaps hcap => ?_,
    fun h => hsame ?_, fun a p n hn hp h => (hiff i).mpr ?_, fun ⟨g, hg, hlt⟩ => ?_⟩
  · exact Rhythm.rhythm_perm ((h.filter _).map _)
  · show Rhythm.rhythm _ = Rhythm.rhythm _
    rw [conversation_retimed h, Rhythm.rhythm_add]
  · show (Rhythm.rhythm _).Perm (Rhythm.rhythm _)
    rw [conversation_retimed h, Rhythm.rhythm_mirror]
    exact List.reverse_perm _
  · rw [Bool.eq_iff_iff, hiff, hiff, hgaps]
    rw [hgaps] at hcap
    exact regular_smul hk hlong (by simpa only [List.forall_mem_map] using hcap)
  · show Rhythm.rhythm _ = Rhythm.rhythm _
    rw [conversation, conversation, h]
  · obtain ⟨m, rfl⟩ : ∃ m, n = m + 1 := ⟨n - 1, by unfold beaconMinConnections at hn; omega⟩
    have hrhythm : gaps i = List.replicate m p := by
      show Rhythm.rhythm _ = _
      rw [Rhythm.rhythm_perm h, Rhythm.rhythm_series (le_trans (by decide) hp)]
    rw [hrhythm]
    exact regular_replicate (by unfold beaconMinConnections at *; omega) hp
  · rw [Bool.eq_false_iff]
    exact fun h => absurd (((hiff i).mp h).long g hg) (not_le.mpr hlt)

end Idryx
