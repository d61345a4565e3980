import Idryx.Ebpf.Flow
import Idryx.Go.Duration

/-!
# Kernel times

`internal/ebpfcapture/clock.go`: the kernel's monotonic nanoseconds as times of the wall clock.

* `ClockOffset`, `asDuration`, `ClockOffset.wallTime`;
* `ClockOffset.gap`: how far a kernel time is from the offset, and `ClockOffset.Near`: whether a duration
  holds that; `wallTime_instant`: where a kernel time is put;
* `KeepsTime`: near times keep their distances and their order, others are put at the offset;
* **`keepsTime`**: an offset keeps time unless its wall time is within 292 years of the ends of `time.Time`;
* `flows_ordered`: the flows of a capture are ordered as the kernel saw them.
-/

namespace Idryx.Ebpf

/-- Both clocks, as they were read when the capture began. -/
structure ClockOffset where
  wallAtStart : Time
  monoAtStart : UInt64

/-- A gap as a duration, or zero where it cannot be one. -/
def asDuration (gap : UInt64) : Int64 := if 0x7FFFFFFFFFFFFFFF < gap then 0 else gap.toInt64

namespace ClockOffset

/-- `wallTime`. -/
def wallTime (c : ClockOffset) (ktimeNS : UInt64) (fallback : Time) : Time :=
  if ktimeNS = 0 ∨ c.monoAtStart = 0 then fallback.utc
  else if c.monoAtStart ≤ ktimeNS then (c.wallAtStart.add (asDuration (ktimeNS - c.monoAtStart))).utc
  else (c.wallAtStart.add (-asDuration (c.monoAtStart - ktimeNS))).utc

/-- How far a kernel time is from the offset, in nanoseconds. -/
def gap (c : ClockOffset) (ktimeNS : UInt64) : ℤ := ktimeNS.toNat - c.monoAtStart.toNat

/-- The gap is one that a duration holds, in either direction. -/
def Near (c : ClockOffset) (ktimeNS : UInt64) : Prop :=
  -Time.maxDuration ≤ c.gap ktimeNS ∧ c.gap ktimeNS ≤ Time.maxDuration

instance (c : ClockOffset) (ktimeNS : UInt64) : Decidable (c.Near ktimeNS) := inferInstanceAs (Decidable (_ ∧ _))

/-- The duration that `wallTime` adds. -/
def added (c : ClockOffset) (ktimeNS : UInt64) : Int64 :=
  if c.monoAtStart ≤ ktimeNS then asDuration (ktimeNS - c.monoAtStart) else -asDuration (c.monoAtStart - ktimeNS)

/-- Every duration before and after the wall time of the offset leads to a time. -/
def Inside (c : ClockOffset) : Prop :=
  Time.Holds (c.wallAtStart.instant - Time.maxDuration) ∧ Time.Holds (c.wallAtStart.instant + Time.maxDuration)

instance (c : ClockOffset) : Decidable c.Inside :=
  inferInstanceAs (Decidable ((_ ∧ _) ∧ (_ ∧ _)))

/-- What the offset makes of kernel times. -/
structure KeepsTime (c : ClockOffset) : Prop where
  distance : ∀ a b : UInt64, a ≠ 0 → b ≠ 0 → c.Near a → c.Near b → ∀ now now' : Time,
    (c.wallTime b now').instant - (c.wallTime a now).instant = (b.toNat : ℤ) - a.toNat
  order : ∀ a b : UInt64, a ≠ 0 → b ≠ 0 → c.Near a → c.Near b → ∀ now now' : Time,
    ((c.wallTime a now).before (c.wallTime b now') = true ↔ a < b)
  unwrapped : ∀ k : UInt64, (c.added k).toInt = if c.Near k then c.gap k else 0
  far : ∀ k : UInt64, k ≠ 0 → ¬ c.Near k → ∀ now : Time, (c.wallTime k now).instant = c.wallAtStart.instant
  after : ∀ k : UInt64, k ≠ 0 → c.monoAtStart ≤ k → ∀ now : Time,
    c.wallAtStart.instant ≤ (c.wallTime k now).instant
  before : ∀ k : UInt64, k ≠ 0 → k ≤ c.monoAtStart → ∀ now : Time,
    (c.wallTime k now).instant ≤ c.wallAtStart.instant

end ClockOffset

/-! ## Nothing wraps -/

theorem toInt_asDuration (gap : UInt64) : (asDuration gap).toInt =
    if (gap.toNat : ℤ) ≤ Time.maxDuration then (gap.toNat : ℤ) else 0 := by
  have hlt : 0x7FFFFFFFFFFFFFFF < gap ↔ 0x7FFFFFFFFFFFFFFF < gap.toNat := UInt64.lt_iff_toNat_lt
  unfold asDuration Time.maxDuration
  by_cases hle : gap.toNat ≤ 0x7FFFFFFFFFFFFFFF
  · rw [if_neg (by rw [hlt]; omega), if_pos (by omega)]
    have hvalue : gap.toInt64.toInt = gap.toBitVec.toInt := rfl
    rw [hvalue, BitVec.toInt_eq_toNat_of_lt (by rw [UInt64.toNat_toBitVec]; omega), UInt64.toNat_toBitVec]
  · rw [if_pos (by rw [hlt]; omega), if_neg (by omega)]
    rfl

theorem toInt_neg_asDuration (gap : UInt64) : (-asDuration gap).toInt = -(asDuration gap).toInt := by
  have hvalue := toInt_asDuration gap
  unfold Time.maxDuration at hvalue
  rw [Int64.toInt_neg]
  exact Int.bmod_eq_of_le (by split_ifs at hvalue <;> omega) (by split_ifs at hvalue <;> omega)

namespace ClockOffset

/-- **What is added to the wall time**: the gap, or nothing where no duration holds it. -/
theorem toInt_added (c : ClockOffset) (k : UInt64) : (c.added k).toInt = if c.Near k then c.gap k else 0 := by
  have hpos : (0 : ℤ) ≤ Time.maxDuration := by decide
  unfold added
  by_cases hle : c.monoAtStart ≤ k
  · have hsub : ((k - c.monoAtStart).toNat : ℤ) = c.gap k := by
      rw [UInt64.toNat_sub_of_le _ _ hle, Nat.cast_sub (UInt64.le_iff_toNat_le.mp hle), gap]
    have hnonneg : 0 ≤ c.gap k := hsub ▸ Int.natCast_nonneg _
    have hnear : c.Near k ↔ c.gap k ≤ Time.maxDuration := and_iff_right (by omega)
    rw [if_pos hle, toInt_asDuration, hsub, if_congr hnear rfl rfl]
  · have hlt : k.toNat < c.monoAtStart.toNat := by
      rwa [UInt64.le_iff_toNat_le, not_le] at hle
    have hsub : ((c.monoAtStart - k).toNat : ℤ) = -c.gap k := by
      rw [UInt64.toNat_sub_of_le _ _ (UInt64.le_iff_toNat_le.mpr hlt.le), Nat.cast_sub hlt.le, gap]
      omega
    have hnat := Int.natCast_nonneg (c.monoAtStart - k).toNat
    have hnear : c.Near k ↔ -c.gap k ≤ Time.maxDuration := by
      unfold Near
      omega
    rw [if_neg hle, toInt_neg_asDuration, toInt_asDuration, hsub, if_congr hnear rfl rfl]
    split_ifs <;> omega

variable {c : ClockOffset} (hmono : c.monoAtStart ≠ 0) (hc : c.Inside)

include hmono hc in
/-- **Where a kernel time is put**: as far from the wall time as it is from the offset, or else at the offset. -/
theorem wallTime_instant {k : UInt64} (hk : k ≠ 0) (now : Time) :
    (c.wallTime k now).instant = c.wallAtStart.instant + if c.Near k then c.gap k else 0 := by
  have hadded : c.wallTime k now = (c.wallAtStart.add (c.added k)).utc := by
    unfold wallTime added
    rw [if_neg (not_or.mpr ⟨hk, hmono⟩)]
    split_ifs <;> rfl
  have hheld : Time.Holds (c.wallAtStart.instant + (c.added k).toInt) := by
    obtain ⟨hlo, hhi⟩ := hc
    rw [toInt_added]
    have hpos : (0 : ℤ) ≤ Time.maxDuration := by decide
    unfold Near
    unfold Time.Holds at *
    split_ifs <;> omega
  rw [hadded, Time.utc_instant, Time.add_instant hheld, toInt_added]

include hmono hc in
/-- **The offset keeps time**: nothing wraps, and where no duration could be right the time is the offset's own. -/
theorem keepsTime : c.KeepsTime := by
  have hdistance : ∀ a b : UInt64, a ≠ 0 → b ≠ 0 → c.Near a → c.Near b → ∀ now now' : Time,
      (c.wallTime b now').instant - (c.wallTime a now).instant = (b.toNat : ℤ) - a.toNat := by
    intro a b ha hb hneara hnearb now now'
    rw [wallTime_instant hmono hc ha, wallTime_instant hmono hc hb, if_pos hneara, if_pos hnearb, gap, gap]
    omega
  refine ⟨hdistance, fun a b ha hb hneara hnearb now now' => ?_, c.toInt_added, fun k hk hfar now => ?_,
    fun k hk hle now => ?_, fun k hk hle now => ?_⟩
  · have h := hdistance a b ha hb hneara hnearb now now'
    rw [Time.before_iff, UInt64.lt_iff_toNat_lt]
    omega
  · rw [wallTime_instant hmono hc hk, if_neg hfar, add_zero]
  · rw [wallTime_instant hmono hc hk]
    rw [UInt64.le_iff_toNat_le] at hle
    unfold gap
    split_ifs <;> omega
  · rw [wallTime_instant hmono hc hk]
    rw [UInt64.le_iff_toNat_le] at hle
    unfold gap
    split_ifs <;> omega

end ClockOffset

/-- An offset taken in 2026, five seconds after boot. -/
def afterBoot : ClockOffset := ⟨Time.seconds 63921780000, 5000000000⟩

theorem keepsTime_afterBoot : afterBoot.KeepsTime := ClockOffset.keepsTime (by decide) (by decide)

/-- An offset in the last second that a `time.Time` holds. -/
def lastSecond : ClockOffset := ⟨Time.seconds Time.maxSec, 1⟩

/-- **The end of time**: two kernel times two seconds apart are one time. -/
theorem lastSecond_stands_still : lastSecond.monoAtStart ≠ 0 ∧ lastSecond.Near 1 ∧ lastSecond.Near 2000000001 ∧
    (lastSecond.wallTime 2000000001 Time.zero).instant = (lastSecond.wallTime 1 Time.zero).instant ∧
    ¬ lastSecond.KeepsTime := by
  have hnear : lastSecond.Near 1 ∧ lastSecond.Near 2000000001 := by decide
  have hsame : (lastSecond.wallTime 2000000001 Time.zero).instant = (lastSecond.wallTime 1 Time.zero).instant := by
    decide
  refine ⟨by decide, hnear.1, hnear.2, hsame, fun h => ?_⟩
  have hdistance := h.distance 1 2000000001 (by decide) (by decide) hnear.1 hnear.2 Time.zero Time.zero
  rw [hsame, sub_self] at hdistance
  exact absurd hdistance (by decide)

/-! ## The flows of a capture -/

/-- **Flows are ordered as the kernel saw them**, whenever the reader got round to them. -/
theorem flows_ordered {c : ClockOffset} (h : c.KeepsTime) (V : Events.Passport) (llmIPs : HostTable)
    {captures : List Capture} {now : Capture → Time}
    (htime : ∀ x ∈ captures, x.event.ktimeNS ≠ 0 ∧ c.Near x.event.ktimeNS ∧ x.time = c.wallTime x.event.ktimeNS (now x))
    (hsorted : captures.Pairwise fun x y => x.event.ktimeNS < y.event.ktimeNS) :
    (captures.map (Capture.flow V llmIPs)).Pairwise fun f g => f.time.before g.time = true := by
  rw [List.pairwise_map]
  refine hsorted.imp_of_mem fun {x y} hx hy hlt => ?_
  obtain ⟨hx0, hxnear, hxtime⟩ := htime x hx
  obtain ⟨hy0, hynear, hytime⟩ := htime y hy
  have hflows : (x.flow V llmIPs).time = x.time ∧ (y.flow V llmIPs).time = y.time := ⟨rfl, rfl⟩
  rw [hflows.1, hflows.2, hxtime, hytime, h.order _ _ hx0 hy0 hxnear hynear]
  exact hlt

end Idryx.Ebpf
