import Idryx.Go.Strings

/-!
# Go times and floats

* `Time`: a `time.Time` without a monotonic reading, which no connector produces. `wall` then holds
  the nanoseconds, `ext` the seconds since January 1 of year 1, and `loc` the location pointer.
  Go's `==` compares the three fields; `after`, `before` and `isZero` read the instant alone.
* `Time.sub`: the time between two, as a duration holds it;
* `Time.civil`, `Time.formatMillis`: the calendar date, and the time as text;
* `Time.parseRFC3339`, `Time.Parser`: a time from text, with the location it comes to point to.
* `F64`: a `float64` by its bits, with Go's `==` (`goEq`: a NaN equals nothing, the two zeros are
  equal) and the equality of a Postgres index (`pgEq`: NaN equals NaN).
-/

namespace Idryx

/-- A `time.Time` without a monotonic reading. -/
structure Time where
  wall : Fin 1000000000
  ext : Int
  loc : Option Nat
  deriving DecidableEq

/-- The location pointer of the local zone (`time.Local`), which times read from the database have. -/
def timeLocal : Option Nat := some 0

namespace Time

/-- The zero `Time`: midnight of January 1, year 1, UTC. -/
def zero : Time := ⟨0, 0, none⟩

instance : Inhabited Time := ⟨zero⟩

/-- So many seconds after it, in UTC. -/
def seconds (n : Int) : Time := ⟨0, n, none⟩

/-- Nanoseconds since the zero time. -/
def instant (t : Time) : Int := t.ext * 1000000000 + t.wall

/-- `Time.IsZero`. -/
def isZero (t : Time) : Bool := t.ext == 0 && t.wall == 0

/-- `Time.After`. -/
def after (t u : Time) : Bool := u.ext < t.ext || (t.ext == u.ext && u.wall < t.wall)

/-- `Time.Before`. -/
def before (t u : Time) : Bool := t.ext < u.ext || (t.ext == u.ext && t.wall < u.wall)

@[simp] theorem zero_instant : zero.instant = 0 := rfl

theorem isZero_iff (t : Time) : t.isZero = true ↔ t.instant = 0 := by
  have := t.wall.isLt
  simp only [isZero, instant, Bool.and_eq_true, beq_iff_eq, Fin.ext_iff, Fin.val_zero]
  omega

theorem after_iff (t u : Time) : t.after u = true ↔ u.instant < t.instant := by
  have h1 := t.wall.isLt
  have h2 := u.wall.isLt
  simp only [after, instant, Bool.or_eq_true, Bool.and_eq_true, decide_eq_true_eq, beq_iff_eq,
    Fin.lt_def]
  omega

theorem before_iff (t u : Time) : t.before u = true ↔ t.instant < u.instant := by
  have h1 := t.wall.isLt
  have h2 := u.wall.isLt
  simp only [before, instant, Bool.or_eq_true, Bool.and_eq_true, decide_eq_true_eq, beq_iff_eq,
    Fin.lt_def]
  omega

/-- The later of two times; the first of two equal instants. -/
def latest (t u : Time) : Time := if u.after t then u else t

theorem latest_instant (t u : Time) : (latest t u).instant = max t.instant u.instant := by
  unfold latest
  split_ifs with h
  · rw [after_iff] at h; omega
  · rw [after_iff] at h; omega

/-- `minDuration` and `maxDuration`: what an `int64` of nanoseconds holds. -/
def minDuration : Int := -0x8000000000000000

@[inherit_doc minDuration]
def maxDuration : Int := 0x7FFFFFFFFFFFFFFF

/-- `Time.Sub`: the nanoseconds between two times, as far as a duration holds them. -/
def sub (t u : Time) : Int := max minDuration (min maxDuration (t.instant - u.instant))

theorem lt_sub_iff {t u : Time} {d : Int} (h0 : minDuration ≤ d) (h : d < maxDuration) :
    d < t.sub u ↔ d < t.instant - u.instant := by
  unfold sub
  omega

/-- `t.UTC().Hour()`. -/
def hour (t : Time) : Fin 24 := ⟨(t.ext % 86400 / 3600).toNat, by omega⟩

/-! ## As text -/

/-- Year, month and day of a day counted from January 1 of year 1. The count is by years that start
in March, in cycles of 400. -/
def civil (day : Int) : Int × Nat × Nat :=
  let z := day + 306
  let n := (z % 146097).toNat
  let year := (n - n / 1460 + n / 36524 - n / 146096) / 365
  let ofYear := n - (365 * year + year / 4 - year / 100)
  let month := (5 * ofYear + 2) / 153
  let dayOfMonth := ofYear - (153 * month + 2) / 5 + 1
  if month < 10 then (z / 146097 * 400 + year, month + 3, dayOfMonth)
  else (z / 146097 * 400 + year + 1, month - 9, dayOfMonth)

example : civil 738944 = (2024, 2, 29) := by decide

/-- A numeral of at least `w` digits. -/
def pad (w n : Nat) : GoString :=
  List.replicate (w - (Strconv.itoa n).length) 0x30 ++ Strconv.itoa n

/-- `t.UTC().Format("2006-01-02T15:04:05.000Z")`. -/
def formatMillis (t : Time) : GoString :=
  let (year, month, day) := civil (t.ext / 86400)
  let sec := (t.ext % 86400).toNat
  (if year < 0 then ("-" : GoString) else "") ++ pad 4 year.natAbs ++ "-" ++ pad 2 month ++ "-" ++
    pad 2 day ++ "T" ++ pad 2 (sec / 3600) ++ ":" ++ pad 2 (sec / 60 % 60) ++ ":" ++ pad 2 (sec % 60) ++
    "." ++ pad 3 (t.wall / 1000000) ++ "Z"

/-! ## From text -/

/-- What the text of a time says: the instant in UTC, and the offset in seconds east of it; no offset
where the text ends in `Z`. -/
structure Stamp where
  wall : Fin 1000000000
  ext : Int
  offset : Option Int
  deriving DecidableEq

/-- The day of a date, counted from January 1 of year 1. -/
def dayOf (year : Int) (month day : Nat) : Int :=
  let year := if month ≤ 2 then year - 1 else year
  let n := (year % 400).toNat
  let ofYear := (153 * ((month + 9) % 12) + 2) / 5 + day - 1
  year / 400 * 146097 + (365 * n + n / 4 - n / 100 + ofYear : Nat) - 306

example : dayOf 2024 2 29 = 738944 := by decide

/-- The days of a month. -/
def daysIn (month year : Nat) : Nat :=
  if month = 2 then if year % 4 = 0 ∧ (year % 100 ≠ 0 ∨ year % 400 = 0) then 29 else 28
  else if month = 4 ∨ month = 6 ∨ month = 9 ∨ month = 11 then 30
  else 31

/-- A digit of a number. -/
def isDigit (b : UInt8) : Bool := 0x30 ≤ b && b ≤ 0x39

/-- A numeral in a range. -/
def parseUint (s : GoString) (lo hi : Nat) : Option Nat :=
  let x := s.foldl (fun x c => x * 10 + (c.toNat - 0x30)) 0
  if s.all isDigit && lo ≤ x && x ≤ hi then some x else none

/-- The nanoseconds of a fraction: of its digits, the first nine. -/
def parseNanoseconds (digits : GoString) : Nat :=
  let digits := digits.take 9
  (digits.foldl (fun x c => x * 10 + (c.toNat - 0x30)) 0) * 10 ^ (9 - digits.length)

/-- The offset at the end of a time. -/
def parseOffset (s : GoString) : Option (Option Int) :=
  if s = "Z" then some none
  else
    match s with
    | [sign, h₁, h₂, colon, m₁, m₂] =>
      match parseUint [h₁, h₂] 0 23, parseUint [m₁, m₂] 0 59 with
      | some hr, some mm =>
        let offset : Int := (hr * 60 + mm) * 60
        if colon ≠ 0x3A then none
        else if sign = 0x2B then some (some offset)
        else if sign = 0x2D then some (some (-offset))
        else none
      | _, _ => none
    | _ => none

/-- `parseRFC3339`, up to the location of the time. -/
def parseRFC3339 (s : GoString) : Option Stamp := do
  if s.length < 19 then none
  let part (a b : Nat) : GoString := (s.take b).drop a
  let year ← parseUint (part 0 4) 0 9999
  let month ← parseUint (part 5 7) 1 12
  let day ← parseUint (part 8 10) 1 (daysIn month year)
  let hour ← parseUint (part 11 13) 0 23
  let min ← parseUint (part 14 16) 0 59
  let sec ← parseUint (part 17 19) 0 59
  if part 4 5 ++ part 7 8 ++ part 10 11 ++ part 13 14 ++ part 16 17 ≠ "--T::" then none
  let rest := s.drop 19
  let digits := if rest.take 1 = "." then (rest.drop 1).takeWhile isDigit else []
  let rest := if digits = [] then rest else rest.drop (1 + digits.length)
  let offset ← parseOffset rest
  let seconds : Int := dayOf year month day * 86400 + (hour * 3600 + min * 60 + sec : Nat)
  some
    { wall := ⟨parseNanoseconds digits % 1000000000, Nat.mod_lt _ (by decide)⟩
      ext := seconds - offset.getD 0
      offset := offset }

/-- `time.Parse(time.RFC3339, ·)` up to the location, and the offset of the local zone at an instant. -/
structure Parser where
  stamp : GoString → Option Stamp
  localOffset : Int → Int

/-- The location that all times with this offset share, if it is a shared one: none for UTC, the local
zone, or one of the zones kept for whole hours. -/
def Parser.shared (P : Parser) (st : Stamp) : Option (Option Nat) :=
  match st.offset with
  | none => some none
  | some offset =>
    if P.localOffset st.ext = offset then some timeLocal
    else if offset % 3600 = 0 ∧ -12 ≤ offset / 3600 ∧ offset / 3600 ≤ 14 then
      some (some (13 + offset / 3600).toNat)
    else none

/-- A time parsed when so many locations were allocated, and how many are then: one that is not shared
is a new one. -/
def Parser.parse (P : Parser) (allocated : Nat) (s : GoString) : Option Time × Nat :=
  match P.stamp s with
  | none => (none, allocated)
  | some st =>
    match P.shared st with
    | some loc => (some ⟨st.wall, st.ext, loc⟩, allocated)
    | none => (some ⟨st.wall, st.ext, some (28 + allocated)⟩, allocated + 1)

end Time

/-- A `float64`, by its IEEE 754 bits. -/
structure F64 where
  bits : BitVec 64
  deriving DecidableEq

namespace F64

instance : Inhabited F64 := ⟨⟨0⟩⟩

/-- The bits without the sign. -/
def magnitude (x : F64) : BitVec 64 := x.bits &&& 0x7FFFFFFFFFFFFFFF#64

/-- Not a number: all exponent bits set and a fraction that is not zero. -/
def isNaN (x : F64) : Bool := 0x7FF0000000000000#64 < x.magnitude

/-- Positive or negative zero. -/
def isZero (x : F64) : Bool := x.magnitude == 0#64

/-- Go's `==` on `float64`. -/
def goEq (x y : F64) : Bool := !x.isNaN && !y.isNaN && (x == y || (x.isZero && y.isZero))

/-- Equality of `DOUBLE PRECISION` values in an index: as `goEq`, but NaN equals NaN. -/
def pgEq (x y : F64) : Bool := (x.isNaN && y.isNaN) || goEq x y

theorem goEq_iff (x y : F64) : goEq x y = true ↔
    x.isNaN = false ∧ y.isNaN = false ∧ (x = y ∨ x.isZero = true ∧ y.isZero = true) := by
  simp [goEq, and_assoc]

theorem goEq_self {x : F64} (hx : x.isNaN = false) : goEq x x = true := by simp [goEq, hx]

theorem goEq_symm {x y : F64} (h : goEq x y = true) : goEq y x = true := by
  rw [goEq_iff] at h ⊢
  exact ⟨h.2.1, h.1, h.2.2.imp Eq.symm And.symm⟩

theorem goEq_trans {x y z : F64} (h : goEq x y = true) (h' : goEq y z = true) :
    goEq x z = true := by
  rw [goEq_iff] at h h' ⊢
  refine ⟨h.1, h'.2.1, ?_⟩
  rcases h.2.2 with rfl | ⟨hx, hy⟩
  · exact h'.2.2
  · rcases h'.2.2 with rfl | ⟨_, hz⟩
    · exact Or.inr ⟨hx, hy⟩
    · exact Or.inr ⟨hx, hz⟩

theorem pgEq_of_goEq {x y : F64} (h : goEq x y = true) : pgEq x y = true := by simp [pgEq, h]

theorem pgEq_self (x : F64) : pgEq x x = true := by
  cases hx : x.isNaN
  · exact pgEq_of_goEq (goEq_self hx)
  · simp [pgEq, hx]

theorem pgEq_symm {x y : F64} (h : pgEq x y = true) : pgEq y x = true := by
  simp only [pgEq, Bool.or_eq_true, Bool.and_eq_true] at h ⊢
  exact h.imp And.symm goEq_symm

theorem pgEq_trans {x y z : F64} (h : pgEq x y = true) (h' : pgEq y z = true) :
    pgEq x z = true := by
  simp only [pgEq, Bool.or_eq_true, Bool.and_eq_true] at h h' ⊢
  rcases h with ⟨hx, hy⟩ | h
  · rcases h' with ⟨_, hz⟩ | h'
    · exact Or.inl ⟨hx, hz⟩
    · rw [((goEq_iff _ _).mp h').1] at hy; exact Bool.noConfusion hy
  · rcases h' with ⟨hy, _⟩ | h'
    · rw [((goEq_iff _ _).mp h).2.1] at hy; exact Bool.noConfusion hy
    · exact Or.inr (goEq_trans h h')

end F64

end Idryx
