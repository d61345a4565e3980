import Idryx.Graph.Store
import Idryx.Lib.Window

/-!
# The MFA-fatigue detector

`internal/detect/detectors/mfa_fatigue.go`: a burst of MFA challenges for one identity.

* `advance`, `scan`, `mfaAlert`, `mfaFatigue`: the loop with its two ends; `none` is an index out of
  range;
* `Turn cs stop start`: the window the turn of `stop` leaves; `exists_turn`: it never is turned round,
  so there is no such index;
* **`mfaFatigue_exact`**: what is alerted on, when, and with what count.
-/

namespace Idryx

/-- Five minutes. -/
def mfaWindow : Int := 5 * 60 * 1000000000

/-- Challenges within the window. -/
def mfaThreshold : Int := 5

/-- The inner loop, over the challenges from `start` on. -/
def advance (now : Time) : List Event → ℕ → Option ℕ
  | [], _ => none
  | e :: rest, start => if mfaWindow < now.sub e.time then advance now rest (start + 1) else some start

/-- The loop over the challenges, from that at `stop` on: the first that ends a burst, and the count
there. -/
def scan (challenges : List Event) : List Event → ℕ → ℕ → Option (Option (Event × Int))
  | [], _, _ => some none
  | e :: rest, stop, start =>
    match advance e.time (challenges.drop start) start with
    | none => none
    | some start =>
      let count : Int := stop - start + 1
      if mfaThreshold ≤ count then some (some (e, count)) else scan challenges rest (stop + 1) start

/-- The MFA challenges of the identity. -/
def Identity.challenges (i : Identity) : List Event :=
  i.events.filter fun e => e.type == eventMFAChallenge

/-- The text of an alert. -/
def mfaSummary (count : Int) : GoString :=
  Strconv.itoa count.toNat ++ " MFA challenges within 5m0s"

/-- The alert for a burst that ends there. -/
def mfaReport (id : Identity) (last : Event × Int) : Alert :=
  { detector := "mfa_fatigue"
    identityID := id.id
    severity := if id.privileged then .critical else .high
    time := last.1.time
    summary := mfaSummary last.2 }

/-- What the detector makes of one identity. -/
def mfaAlert (id : Identity) : Option (Option Alert) :=
  (scan id.challenges id.challenges 0 0).map fun hit => hit.map (mfaReport id)

/-- `MFAFatigue.Detect`, over the identities the graph returns. -/
def mfaFatigue (ids : List Identity) : Option (List Alert) :=
  (ids.mapM mfaAlert).map List.reduceOption

/-! ## The window -/

/-- The times the window is over. -/
abbrev Event.at (e : Event) : ℤ := e.time.instant

/-- The window start is where the turn of `stop` leaves it, the turns before it not having ended the
loop. -/
inductive Turn (cs : List Event) : ℕ → ℕ → Prop
  | first {c : Event} {start : ℕ} : cs[0]? = some c → advance c.time cs 0 = some start →
      Turn cs 0 start
  | next {c : Event} {stop start start' : ℕ} : Turn cs stop start → cs[stop + 1]? = some c →
      advance c.time (cs.drop start) start = some start' → Turn cs (stop + 1) start'

/-- A burst: five challenges whose first and last are at most five minutes apart. -/
abbrev HasBurst (cs : List Event) : Prop := Window.HasGroup Event.at mfaWindow 5 cs

theorem mfaWindow_lt_sub (c a : Event) :
    mfaWindow < c.time.sub a.time ↔ Window.near Event.at mfaWindow c a = false := by
  rw [Time.lt_sub_iff (by decide) (by decide), Window.near, decide_eq_false_iff_not]
  simp only [Event.at]
  omega

theorem near_self (c : Event) : Window.near Event.at mfaWindow c c = true :=
  Window.near_self (by decide) c

theorem advance_eq (c : Event) (rest : List Event) : ∀ (w : List Event) (start : ℕ),
    advance c.time (w ++ c :: rest) start =
      some (start + (w.takeWhile fun a => !Window.near Event.at mfaWindow c a).length)
  | [], start => by
    rw [List.nil_append, advance, if_neg]
    · rfl
    · rw [mfaWindow_lt_sub, near_self]
      exact Bool.noConfusion
  | a :: w, start => by
    rw [List.cons_append, advance]
    cases ha : Window.near Event.at mfaWindow c a with
    | true =>
      rw [if_neg (by simp [mfaWindow_lt_sub, ha]), List.takeWhile_cons_of_neg (by simp [ha])]
      rfl
    | false =>
      rw [if_pos ((mfaWindow_lt_sub c a).mpr ha), advance_eq c rest w (start + 1),
        List.takeWhile_cons_of_pos (by simp [ha]), List.length_cons]
      congr 1
      omega

theorem advance_drop {before : List Event} (rest : List Event) (c : Event) {start : ℕ}
    (h : start ≤ before.length) :
    ∃ k, advance c.time ((before ++ c :: rest).drop start) start = some (start + k) ∧
      k = ((before.drop start).takeWhile fun a => !Window.near Event.at mfaWindow c a).length ∧
      start + k ≤ before.length := by
  refine ⟨_, ?_, rfl, ?_⟩
  · rw [List.drop_append_of_le_length h]
    exact advance_eq c rest (before.drop start) start
  · have hlen := (List.takeWhile_sublist (fun a => !Window.near Event.at mfaWindow c a)
      (l := before.drop start)).length_le
    rw [List.length_drop] at hlen
    omega

theorem advance_at {cs : List Event} {stop start : ℕ} {c : Event} (hc : cs[stop]? = some c)
    (h : start ≤ stop) : ∃ k, advance c.time (cs.drop start) start = some (start + k) ∧
      start + k ≤ stop := by
  obtain ⟨hlt, hget⟩ := List.getElem?_eq_some_iff.mp hc
  have hcs : cs = cs.take stop ++ c :: cs.drop (stop + 1) := by
    rw [← hget, List.getElem_cons_drop, List.take_append_drop]
  have hlen : (cs.take stop).length = stop := List.length_take_of_le hlt.le
  obtain ⟨k, hadv, -, hle⟩ := advance_drop (cs.drop (stop + 1)) c (hlen.symm ▸ h)
  exact ⟨k, hcs ▸ hadv, hlen ▸ hle⟩

/-- **The window's start never passes its end.** -/
theorem Turn.le {cs : List Event} {stop start : ℕ} (h : Turn cs stop start) : start ≤ stop := by
  induction h with
  | first hc hadv =>
    obtain ⟨k, hk, hle⟩ := advance_at hc (le_refl 0)
    rw [List.drop_zero, hadv, Option.some.injEq] at hk
    exact hk ▸ hle
  | next _ hc hadv ih =>
    obtain ⟨k, hk, hle⟩ := advance_at hc (Nat.le_succ_of_le ih)
    rw [hadv, Option.some.injEq] at hk
    exact hk ▸ hle

theorem exists_turn {cs : List Event} : ∀ {stop : ℕ}, stop < cs.length → ∃ start, Turn cs stop start
  | 0, h => by
    obtain ⟨k, hk, -⟩ := advance_at (List.getElem?_eq_getElem h) (le_refl 0)
    exact ⟨_, Turn.first (List.getElem?_eq_getElem h) hk⟩
  | stop + 1, h => by
    obtain ⟨start, hturn⟩ := exists_turn (Nat.lt_of_succ_lt h)
    obtain ⟨k, hk, -⟩ := advance_at (List.getElem?_eq_getElem h) (Nat.le_succ_of_le hturn.le)
    exact ⟨_, hturn.next (List.getElem?_eq_getElem h) hk⟩

/-! ## The burst found -/

/-- What the loop should find: the first challenge that completes a burst, and the number of challenges
in the window that ends there. -/
def Completes (cs : List Event) : Option (Event × ℤ) → Prop
  | none => ¬ HasBurst cs
  | some (c, count) => ∃ before after, cs = before ++ c :: after ∧ HasBurst (before ++ [c]) ∧
      ¬ HasBurst before ∧
      count = ((before ++ [c]).filter (Window.near Event.at mfaWindow c)).length

theorem exists_scan (rest : List Event) : ∀ (before : List Event) (start : ℕ), start ≤ before.length →
    ∃ hit, scan (before ++ rest) rest before.length start = some hit := by
  induction rest with
  | nil => exact fun before start _ => ⟨none, rfl⟩
  | cons c rest ih =>
    intro before start hstart
    obtain ⟨k, hadv, -, hle⟩ := advance_drop rest c hstart
    unfold scan
    rw [hadv]
    dsimp only
    split_ifs with hcount
    · exact ⟨_, rfl⟩
    · have hcut : before ++ c :: rest = (before ++ [c]) ++ rest := by simp
      have hlen : before.length + 1 = (before ++ [c]).length := by simp
      rw [hcut, hlen]
      exact ih (before ++ [c]) (start + k) (by rw [← hlen]; omega)

/-- **The loop finds the first burst**, in a list in chronological order: what lies before the window's
start is out of the windows to come. -/
theorem completes_of_scan (rest : List Event) : ∀ (before : List Event) (start : ℕ),
    start ≤ before.length → (before ++ rest).Pairwise Event.notAfter → ¬ HasBurst before →
    (∀ a ∈ before.take start, ∀ c ∈ rest, Window.near Event.at mfaWindow c a = false) →
    ∀ hit, scan (before ++ rest) rest before.length start = some hit → Completes (before ++ rest) hit := by
  induction rest with
  | nil =>
    intro before start _ _ hno _ hit h
    rw [scan, Option.some.injEq] at h
    rw [← h, List.append_nil]
    exact hno
  | cons c rest ih =>
    intro before start hstart hsort hno hout hit h
    obtain ⟨k, hadv, hk, hle⟩ := advance_drop rest c hstart
    have hcut : before ++ c :: rest = (before ++ [c]) ++ rest := by simp
    have hlen : before.length + 1 = (before ++ [c]).length := by simp
    have hsort' : (before ++ [c]).Pairwise Event.notAfter :=
      hsort.sublist (hcut ▸ List.sublist_append_left (before ++ [c]) rest)
    have hbefore : before.Pairwise Event.notAfter := hsort'.sublist (List.sublist_append_left _ _)
    -- the window of `c`: what the inner loop has not left out
    have hout' : ∀ a ∈ before.take start, Window.near Event.at mfaWindow c a = false := fun a ha =>
      hout a ha c List.mem_cons_self
    have hleft : ∀ a ∈ before.take (start + k), Window.near Event.at mfaWindow c a = false :=
      hk ▸ Window.near_of_slide hout'
    have hwindow : (before ++ [c]).filter (Window.near Event.at mfaWindow c) =
        before.drop (start + k) ++ [c] := by
      rw [hk]
      exact Window.filter_of_slide (by decide) hbefore hout'
    have hcount : ((before.length : ℤ) - (start + k : ℕ) + 1) =
        ((before ++ [c]).filter (Window.near Event.at mfaWindow c)).length := by
      rw [hwindow, List.length_append, List.length_drop, List.length_singleton]
      omega
    have hburst : HasBurst (before ++ [c]) ↔ HasBurst before ∨
        5 ≤ ((before ++ [c]).filter (Window.near Event.at mfaWindow c)).length :=
      Window.hasGroup_concat (by decide) (by decide) hsort'
    unfold scan at h
    rw [hadv] at h
    dsimp only at h
    rw [hcount] at h
    split_ifs at h with hthr
    · rw [Option.some.injEq] at h
      rw [← h]
      refine ⟨before, rest, rfl, hburst.mpr (Or.inr ?_), hno, rfl⟩
      unfold mfaThreshold at hthr
      omega
    · rw [hcut, hlen] at h
      rw [hcut]
      refine ih (before ++ [c]) (start + k) ?_ (hcut ▸ hsort) ?_ ?_ hit h
      · rw [← hlen]
        omega
      · rw [hburst, not_or]
        refine ⟨hno, ?_⟩
        unfold mfaThreshold at hthr
        omega
      · intro a ha c' hc'
        rw [List.take_append_of_le_length hle] at ha
        have hcc' : c.at ≤ c'.at := by
          exact (List.pairwise_cons.mp (List.pairwise_append.mp hsort).2.1).1 c' hc'
        exact Window.near_eq_false_of_le (hleft a ha) hcc'

theorem pairwise_challenges {i : Identity} (h : i.events.Pairwise Event.notAfter) :
    i.challenges.Pairwise Event.notAfter := h.sublist List.filter_sublist

/-- The loop over the challenges of an identity ends, and finds its first burst where its events are in
chronological order. -/
theorem exists_mfaAlert (i : Identity) : ∃ hit : Option (Event × ℤ),
    mfaAlert i = some (hit.map (mfaReport i)) ∧
      (i.events.Pairwise Event.notAfter → Completes i.challenges hit) := by
  obtain ⟨hit, hscan⟩ := exists_scan i.challenges [] 0 (le_refl 0)
  refine ⟨hit, ?_, ?_⟩
  · unfold mfaAlert
    rw [show scan i.challenges i.challenges 0 0 = some hit from hscan]
    rfl
  · intro hsort
    refine completes_of_scan i.challenges [] 0 (le_refl 0) (pairwise_challenges hsort)
      (Window.not_hasGroup_nil 5) ?_ hit hscan
    intro a ha
    rw [List.take_nil] at ha
    cases ha

/-- **The window of a burst is exact.** Its start never passes its end, in any list, and every turn ends,
so the detector returns. Where the events of an identity are in chronological order it is alerted on
exactly when it has a burst, with one alert: at the first challenge that completes one, with the number
of challenges in the window that ends there. -/
theorem mfaFatigue_exact (ids : List Identity) :
    (∀ cs stop start, Turn cs stop start → start ≤ stop) ∧
    (∀ cs stop, stop < cs.length → ∃ start, Turn cs stop start) ∧
    ∃ raised : Identity → Option Alert, mfaFatigue ids = some (ids.filterMap raised) ∧
      ∀ i ∈ ids, i.events.Pairwise Event.notAfter →
        ((raised i).isSome = true ↔ HasBurst i.challenges) ∧
        ∀ al, raised i = some al → ∃ before c after, i.challenges = before ++ c :: after ∧
          HasBurst (before ++ [c]) ∧ ¬ HasBurst before ∧
          al = mfaReport i (c, ((before ++ [c]).filter (Window.near Event.at mfaWindow c)).length) := by
  choose hit halert hcompletes using exists_mfaAlert
  refine ⟨fun _ _ _ => Turn.le, fun _ _ => exists_turn, fun i => (hit i).map (mfaReport i), ?_, ?_⟩
  · have hpure : mfaAlert = fun i => pure ((hit i).map (mfaReport i)) := funext halert
    rw [mfaFatigue, hpure, List.mapM_pure, Option.pure_def, Option.map_some]
    show some ((ids.map fun i => (hit i).map (mfaReport i)).filterMap id) = _
    rw [List.filterMap_map]
    rfl
  · intro i _ hsort
    have hc := hcompletes i hsort
    dsimp only
    cases hh : hit i with
    | none =>
      rw [hh] at hc
      have hno : ¬ HasBurst i.challenges := hc
      simp [hno]
    | some last =>
      rw [hh] at hc
      obtain ⟨before, after, hcs, hburst, hno, hcount⟩ := hc
      have hall : HasBurst i.challenges := by
        rw [hcs, List.append_cons]
        exact hburst.mono (List.sublist_append_left _ after)
      refine ⟨by simp [hall], ?_⟩
      intro al hal
      refine ⟨before, last.1, after, hcs, hburst, hno, ?_⟩
      rw [Option.map_some, Option.some.injEq] at hal
      rw [← hal, ← hcount]

end Idryx
