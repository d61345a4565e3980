import Idryx.Go.Time

/-!
# Times and durations

* `Time.add`: a duration added to a time, which holds seconds in an `int64`;
* `Time.Holds`: the instants a time can hold; **`add_instant`**: adding is exact as long as they do.
-/

namespace Idryx.Time

/-- The seconds an `int64` holds. -/
def minSec : Int := -0x8000000000000000

@[inherit_doc minSec]
def maxSec : Int := 0x7FFFFFFFFFFFFFFF

/-- `Time.addSec`: the seconds stay at the end they run over. -/
def addSec (t : Time) (d : Int64) : Time :=
  let sum := t.ext + d.toInt
  { t with ext := if minSec ≤ sum ∧ sum ≤ maxSec then sum else if 0 < d then maxSec else -maxSec }

/-- `Time.Add`. -/
def add (t : Time) (d : Int64) : Time :=
  let nsec : Int := t.wall + (d % 1000000000).toInt
  let carry : Int64 := if 1000000000 ≤ nsec then 1 else if nsec < 0 then -1 else 0
  addSec { t with wall := ⟨(nsec % 1000000000).toNat, by omega⟩ } (d / 1000000000 + carry)

/-- `Time.UTC`. -/
def utc (t : Time) : Time := { t with loc := none }

@[simp] theorem utc_instant (t : Time) : t.utc.instant = t.instant := rfl

/-- An instant that a time can hold. -/
def Holds (instant : Int) : Prop := minSec * 1000000000 ≤ instant ∧ instant < (maxSec + 1) * 1000000000

theorem addSec_instant {t : Time} {d : Int64} (h : Holds (t.instant + d.toInt * 1000000000)) :
    (t.addSec d).instant = t.instant + d.toInt * 1000000000 := by
  have hwall := t.wall.isLt
  unfold Holds instant at h
  have hsum : minSec ≤ t.ext + d.toInt ∧ t.ext + d.toInt ≤ maxSec := by omega
  unfold addSec instant
  dsimp only
  rw [if_pos hsum]
  omega

/-- **Adding a duration is exact**, where the sum is an instant that a time can hold. -/
theorem add_instant {t : Time} {d : Int64} (h : Holds (t.instant + d.toInt)) :
    (t.add d).instant = t.instant + d.toInt := by
  have hwall := t.wall.isLt
  have hdiv : (d / 1000000000).toInt = d.toInt.tdiv 1000000000 :=
    Int64.toInt_div_of_ne_right d _ (by decide)
  have hmod : (d % 1000000000).toInt = d.toInt.tmod 1000000000 := Int64.toInt_mod d 1000000000
  have hrange : -0x8000000000000000 ≤ d.toInt ∧ d.toInt ≤ 0x7FFFFFFFFFFFFFFF :=
    ⟨d.minValue_le_toInt, d.toInt_le⟩
  have hsplit := Int.mul_tdiv_add_tmod d.toInt 1000000000
  have hsmall : -1000000000 < d.toInt.tmod 1000000000 ∧ d.toInt.tmod 1000000000 < 1000000000 :=
    ⟨Int.lt_tmod_of_pos _ (by decide), Int.tmod_lt_of_pos _ (by decide)⟩
  unfold add
  dsimp only
  simp only [hmod]
  generalize hq : d.toInt.tdiv 1000000000 = q at *
  generalize hr : d.toInt.tmod 1000000000 = r at *
  -- the carry makes the nanoseconds those of one second
  generalize hcarry : (if 1000000000 ≤ (t.wall : Int) + r then (1 : Int64) else
    if (t.wall : Int) + r < 0 then -1 else 0) = carry
  have hvalue : 1000000000 * carry.toInt + ((t.wall : Int) + r) % 1000000000 = t.wall + r ∧
      -1 ≤ carry.toInt ∧ carry.toInt ≤ 1 := by
    rw [← hcarry]
    split_ifs
    · have h1 : (1 : Int64).toInt = 1 := rfl
      omega
    · have h1 : (-1 : Int64).toInt = -1 := rfl
      omega
    · have h1 : (0 : Int64).toInt = 0 := rfl
      omega
  have hsum : (d / 1000000000 + carry).toInt = q + carry.toInt := by
    rw [Int64.toInt_add, hdiv]
    exact Int.bmod_eq_of_le (by omega) (by omega)
  have hheld : Holds (instant { t with wall := ⟨(((t.wall : Int) + r) % 1000000000).toNat, by omega⟩ } +
      (d / 1000000000 + carry).toInt * 1000000000) := by
    unfold Holds instant at *
    rw [hsum]
    dsimp only
    omega
  rw [addSec_instant hheld, hsum]
  unfold instant
  dsimp only
  omega

end Idryx.Time
