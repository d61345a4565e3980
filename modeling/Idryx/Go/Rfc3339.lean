import Idryx.Go.Time
import Idryx.Go.Numerals
import Mathlib.Data.List.DropRight
import Mathlib.Tactic.IntervalCases

/-!
# Times as RFC 3339 text

* `yearOf_spec`: the years of a cycle of 400, counted from March; **`dayOf_civil`**: the day of a date is
  the one the date was made of, and the date is one of the calendar;
* `parseUint_pad`, `parseNanoseconds_fraction`: numerals and fractions are read back;
* `formatRFC3339Nano`; **`parseRFC3339_format`**: so is a time, to the nanosecond, if its year has four
  digits.
-/

namespace Idryx.Time

/-! ## The years of a cycle -/

/-- The year a day of the cycle is in, as `civil` counts it. -/
def yearOf (n : ℕ) : ℕ := (n - n / 1460 + n / 36524 - n / 146096) / 365

/-- The first day of a year of the cycle. -/
def firstDay (y : ℕ) : ℕ := 365 * y + y / 4 - y / 100 + y / 400

theorem yearOf_mono {n m : ℕ} (h : n ≤ m) (hm : m < 146097) : yearOf n ≤ yearOf m := by
  have hquad : n - n / 1460 ≤ m - m / 1460 := by omega
  have hcentury : n / 36524 ≤ m / 36524 := Nat.div_le_div_right h
  refine Nat.div_le_div_right ?_
  by_cases hlast : m = 146096
  · subst hlast
    by_cases hn : n = 146096
    · rw [hn]
    · omega
  · have hm0 : m / 146096 = 0 := by omega
    omega

theorem yearOf_firstDay : ∀ y < 400, y ≤ yearOf (firstDay y) ∧ yearOf (firstDay (y + 1) - 1) ≤ y := by
  decide +kernel

/-- **A day is in its year.** -/
theorem yearOf_spec {n : ℕ} (hn : n < 146097) :
    yearOf n < 400 ∧ firstDay (yearOf n) ≤ n ∧ n < firstDay (yearOf n + 1) := by
  have hlt : yearOf n < 400 :=
    Nat.lt_of_le_of_lt (yearOf_mono (Nat.le_of_lt_succ hn) (by decide)) (by decide)
  refine ⟨hlt, ?_, ?_⟩
  · by_contra hbefore
    cases hy : yearOf n with
    | zero =>
      rw [hy] at hbefore
      exact hbefore (Nat.zero_le n)
    | succ y =>
      rw [hy] at hbefore hlt
      have hle := (yearOf_firstDay y (by omega)).2
      have hbound : firstDay (y + 1) - 1 < 146097 := by
        unfold firstDay
        omega
      have hmono := yearOf_mono (Nat.le_sub_one_of_lt (Nat.not_le.mp hbefore)) hbound
      omega
  · by_contra hbehind
    rcases Nat.lt_or_ge (yearOf n + 1) 400 with hnext | hnext
    · have hge := (yearOf_firstDay _ hnext).1
      have hmono := yearOf_mono (Nat.not_lt.mp hbehind) hn
      omega
    · have hlast : yearOf n + 1 = 400 := by omega
      rw [hlast] at hbehind
      exact hbehind hn

/-! ## The calendar -/

theorem firstDay_succ : ∀ y < 400, firstDay y = 365 * y + y / 4 - y / 100 ∧ firstDay (y + 1) ≤ firstDay y + 366 ∧
    (firstDay (y + 1) = firstDay y + 366 → (y + 1) % 4 = 0 ∧ ((y + 1) % 100 ≠ 0 ∨ (y + 1) % 400 = 0)) := by
  decide +kernel

theorem ofYear_spec {n : ℕ} (hn : n < 146097) :
    n = 365 * yearOf n + yearOf n / 4 - yearOf n / 100 + (n - firstDay (yearOf n)) ∧ yearOf n < 400 ∧
      n - firstDay (yearOf n) ≤ 365 ∧ (n - firstDay (yearOf n) = 365 →
        (yearOf n + 1) % 4 = 0 ∧ ((yearOf n + 1) % 100 ≠ 0 ∨ (yearOf n + 1) % 400 = 0)) := by
  obtain ⟨hlt, hge, hnext⟩ := yearOf_spec hn
  obtain ⟨hfirst, hsucc, hleap⟩ := firstDay_succ _ hlt
  rw [← hfirst]
  refine ⟨by omega, hlt, by omega, fun h => hleap (by omega)⟩

theorem month_spec {u : ℕ} (hu : u ≤ 365) : (5 * u + 2) / 153 < 12 ∧
    (153 * ((5 * u + 2) / 153) + 2) / 5 ≤ u ∧ u < (153 * ((5 * u + 2) / 153 + 1) + 2) / 5 := by
  omega

/-- **The date of a day** is one of the calendar, and the day of that date is the day. -/
theorem dayOf_civil (day : ℤ) : let date := civil day
    dayOf date.1 date.2.1 date.2.2 = day ∧ 1 ≤ date.2.1 ∧ date.2.1 ≤ 12 ∧ 1 ≤ date.2.2 ∧
      (0 ≤ date.1 → date.2.2 ≤ daysIn date.2.1 date.1.toNat) := by
  have hmod : ((day + 306) % 146097).toNat < 146097 := by omega
  have hcycle : day + 306 = (day + 306) / 146097 * 146097 + ((day + 306) % 146097).toNat := by omega
  unfold civil
  dsimp only
  generalize hn : ((day + 306) % 146097).toNat = n at *
  generalize (day + 306) / 146097 = era at *
  obtain ⟨hday, hy, hu, hleap⟩ := ofYear_spec hmod
  have hyear : (n - n / 1460 + n / 36524 - n / 146096) / 365 = yearOf n := rfl
  have hof : n - (365 * yearOf n + yearOf n / 4 - yearOf n / 100) = n - firstDay (yearOf n) := by omega
  rw [hyear, hof]
  generalize n - firstDay (yearOf n) = u at *
  generalize yearOf n = y at *
  obtain ⟨hm, hle, hlt⟩ := month_spec hu
  generalize (5 * u + 2) / 153 = m at *
  split_ifs with hmarch
  · -- March to December: the year of the cycle is the calendar year
    dsimp only
    refine ⟨?_, by omega, by omega, by omega, fun _ => ?_⟩
    · have hcal : (era * 400 + ↑y) % 400 = ↑y ∧ (era * 400 + ↑y) / 400 = era := by omega
      have hmonth : (m + 3 + 9) % 12 = m := by omega
      rw [dayOf, if_neg (by omega)]
      rw [hcal.1, hcal.2, hmonth, Int.toNat_natCast]
      omega
    · unfold daysIn
      clear hday hcycle hleap
      interval_cases m <;> simp <;> omega
  · -- January and February: the calendar year is the next one
    dsimp only
    have hcal : (era * 400 + ↑y + 1 - 1) % 400 = (y : ℤ) ∧ (era * 400 + ↑y + 1 - 1) / 400 = era := by omega
    have hwinter : m - 9 ≤ 2 ∧ (m - 9 + 9) % 12 = m := by omega
    refine ⟨?_, by omega, by omega, by omega, fun hpos => ?_⟩
    · rw [dayOf, if_pos hwinter.1]
      rw [hcal.1, hcal.2, hwinter.2, Int.toNat_natCast]
      omega
    · have hyear : (era * 400 + ↑y + 1).toNat % 4 = (y + 1) % 4 ∧
          (era * 400 + ↑y + 1).toNat % 100 = (y + 1) % 100 ∧
          (era * 400 + ↑y + 1).toNat % 400 = (y + 1) % 400 := by
        clear hday hcycle hleap
        omega
      unfold daysIn
      rw [hyear.1, hyear.2.1, hyear.2.2]
      clear hday hcycle
      split_ifs <;> omega

/-! ## Numerals -/

theorem isDigit_iff {b : UInt8} : isDigit b = true ↔ 0x30 ≤ b.toNat ∧ b.toNat ≤ 0x39 := by
  simp [isDigit, UInt8.le_iff_toNat_le]

theorem length_pad {w n : ℕ} (hw : 0 < w) (hn : n < 10 ^ w) : (pad w n).length = w := by
  have hlen := Strconv.length_itoa_le hw hn
  rw [pad, List.length_append, List.length_replicate]
  omega

theorem isDigit_of_mem_pad {w n : ℕ} {b : UInt8} (hb : b ∈ pad w n) : isDigit b = true := by
  rcases List.mem_append.mp hb with hb | hb
  · rw [List.eq_of_mem_replicate hb]
    rfl
  · exact isDigit_iff.mpr (Strconv.digit_of_mem_itoa hb)

theorem ascii_pad {w n : ℕ} : ∀ b ∈ pad w n, b < 0x80 := by
  intro b hb
  rw [UInt8.lt_iff_toNat_lt]
  exact Nat.lt_of_le_of_lt (isDigit_iff.mp (isDigit_of_mem_pad hb)).2 (by decide)

/-- The number of digits, as the parser reads them. -/
def digitsValue (s : GoString) : ℕ := s.foldl (fun x c => x * 10 + (c.toNat - 0x30)) 0

theorem digitsValue_eq (s : GoString) : digitsValue s = Strconv.decimal s := by
  unfold digitsValue Strconv.decimal
  simp only [Nat.mul_comm]

theorem digitsValue_pad (w n : ℕ) : digitsValue (pad w n) = n := by
  have hzeros : ∀ k, (List.replicate k (0x30 : UInt8)).foldl (fun x c => x * 10 + (c.toNat - 0x30)) 0 = 0 := by
    intro k
    induction k with
    | zero => rfl
    | succ k ih =>
      rw [List.replicate_succ, List.foldl_cons]
      exact ih
  rw [digitsValue, pad, List.foldl_append, hzeros]
  exact (digitsValue_eq _).trans (Strconv.decimal_itoa n)

/-- **A numeral in its range is read back.** -/
theorem parseUint_pad {n lo hi : ℕ} (w : ℕ) (hlo : lo ≤ n) (hhi : n ≤ hi) : parseUint (pad w n) lo hi = some n := by
  have hall : (pad w n).all isDigit = true := List.all_eq_true.mpr fun b hb => isDigit_of_mem_pad hb
  have hvalue : (pad w n).foldl (fun x c => x * 10 + (c.toNat - 0x30)) 0 = n := digitsValue_pad w n
  unfold parseUint
  dsimp only
  rw [hvalue, hall]
  simp [hlo, hhi]

/-! ## Fractions -/

/-- The digits of a fraction of nine digits, without the zeros at the end. -/
def fraction (nsec : ℕ) : GoString := (pad 9 nsec).rdropWhile (· == 0x30)

theorem isDigit_of_mem_fraction {nsec : ℕ} {b : UInt8} (hb : b ∈ fraction nsec) : isDigit b = true :=
  isDigit_of_mem_pad ((List.rdropWhile_prefix (· == 0x30) (pad 9 nsec)).subset hb)

theorem exists_zeros (s : GoString) : ∃ k, s = s.rdropWhile (· == 0x30) ++ List.replicate k 0x30 := by
  have hzeros : s.rtakeWhile (· == 0x30) = List.replicate (s.rtakeWhile (· == 0x30)).length 0x30 :=
    List.eq_replicate_iff.mpr ⟨rfl, fun b hb => beq_iff_eq.mp (List.mem_rtakeWhile_imp (p := (· == 0x30)) hb)⟩
  refine ⟨(s.rtakeWhile (· == 0x30)).length, ?_⟩
  rw [← hzeros]
  exact (List.rdropWhile_append_rtakeWhile ..).symm

/-- **A fraction is read back.** -/
theorem parseNanoseconds_fraction {nsec : ℕ} (h : nsec < 1000000000) : parseNanoseconds (fraction nsec) = nsec := by
  obtain ⟨k, hk⟩ : ∃ k, pad 9 nsec = fraction nsec ++ List.replicate k 0x30 := exists_zeros _
  have hlen : (fraction nsec).length + k = 9 := by
    have hpad : (pad 9 nsec).length = 9 := length_pad (by decide) h
    rw [hk, List.length_append, List.length_replicate] at hpad
    exact hpad
  have hshift : ∀ (s : GoString) (k : ℕ),
      digitsValue (s ++ List.replicate k 0x30) = digitsValue s * 10 ^ k := by
    intro s k
    induction k with
    | zero => simp
    | succ k ih =>
      rw [List.replicate_succ', ← List.append_assoc]
      unfold digitsValue at ih ⊢
      rw [List.foldl_append, ih, pow_succ, List.foldl_cons, List.foldl_nil, ← Nat.mul_assoc]
      rfl
  have hvalue : digitsValue (fraction nsec) * 10 ^ k = nsec := by
    rw [← hshift, ← hk, digitsValue_pad]
  have htake : (fraction nsec).take 9 = fraction nsec := List.take_of_length_le (by omega)
  have hrest : 9 - (fraction nsec).length = k := by omega
  unfold parseNanoseconds
  dsimp only
  rw [htake, hrest]
  exact hvalue

/-! ## A time as text -/

/-- `t.UTC().Format(time.RFC3339Nano)`. -/
def formatRFC3339Nano (t : Time) : GoString :=
  let (year, month, day) := civil (t.ext / 86400)
  let sec := (t.ext % 86400).toNat
  (if year < 0 then ("-" : GoString) else "") ++ pad 4 year.natAbs ++ "-" ++ pad 2 month ++ "-" ++
    pad 2 day ++ "T" ++ pad 2 (sec / 3600) ++ ":" ++ pad 2 (sec / 60 % 60) ++ ":" ++ pad 2 (sec % 60) ++
    (if (t.wall : ℕ) = 0 then ("" : GoString) else "." ++ fraction t.wall) ++ "Z"

/-- The calendar year of a time in UTC. -/
def year (t : Time) : ℤ := (civil (t.ext / 86400)).1

/-- What stands behind the seconds: a fraction, if there is one, and the offset. -/
def Stamp.ofRest (seconds : ℤ) (rest : GoString) : Option Stamp :=
  let digits := if rest.take 1 = "." then (rest.drop 1).takeWhile isDigit else []
  (parseOffset (if digits = [] then rest else rest.drop (1 + digits.length))).bind fun offset =>
    some
      { wall := ⟨parseNanoseconds digits % 1000000000, Nat.mod_lt _ (by decide)⟩
        ext := seconds - offset.getD 0
        offset := offset }

theorem parseRFC3339_fields {Y M D h m s : GoString} (hY : Y.length = 4) (hM : M.length = 2) (hD : D.length = 2)
    (hh : h.length = 2) (hm : m.length = 2) (hs : s.length = 2) (rest : GoString) :
    parseRFC3339 (Y ++ "-" ++ M ++ "-" ++ D ++ "T" ++ h ++ ":" ++ m ++ ":" ++ s ++ rest) =
      (parseUint Y 0 9999).bind fun year => (parseUint M 1 12).bind fun month =>
      (parseUint D 1 (daysIn month year)).bind fun day => (parseUint h 0 23).bind fun hour =>
      (parseUint m 0 59).bind fun min => (parseUint s 0 59).bind fun sec =>
        Stamp.ofRest (dayOf year month day * 86400 + (hour * 3600 + min * 60 + sec : ℕ)) rest := by
  obtain ⟨y1, Y, rfl⟩ := List.exists_of_length_succ Y hY
  obtain ⟨y2, y3, y4, rfl⟩ := List.length_eq_three.mp (Nat.succ.inj hY)
  obtain ⟨M1, M2, rfl⟩ := List.length_eq_two.mp hM
  obtain ⟨D1, D2, rfl⟩ := List.length_eq_two.mp hD
  obtain ⟨h1, h2, rfl⟩ := List.length_eq_two.mp hh
  obtain ⟨m1, m2, rfl⟩ := List.length_eq_two.mp hm
  obtain ⟨s1, s2, rfl⟩ := List.length_eq_two.mp hs
  have hdash : ("-" : GoString) = [0x2D] := rfl
  have htee : ("T" : GoString) = [0x54] := rfl
  have hcolon : (":" : GoString) = [0x3A] := rfl
  have hseps : ("--T::" : GoString) = [0x2D, 0x2D, 0x54, 0x3A, 0x3A] := rfl
  rw [hdash, htee, hcolon]
  simp only [List.cons_append, List.nil_append]
  have hlen : ¬ (y1 :: y2 :: y3 :: y4 :: 0x2D :: M1 :: M2 :: 0x2D :: D1 :: D2 :: 0x54 :: h1 :: h2 :: 0x3A ::
      m1 :: m2 :: 0x3A :: s1 :: s2 :: rest).length < 19 := by
    simp only [List.length_cons]
    omega
  unfold parseRFC3339
  rw [if_neg hlen]
  simp only [List.take_succ_cons, List.take_zero, List.drop_succ_cons, List.drop_zero, hseps, List.cons_append,
    List.nil_append, ne_eq, not_true_eq_false, if_false]
  rfl

theorem ofRest_eq {rest digits : GoString} {offset : Option ℤ} (seconds : ℤ)
    (hd : (if rest.take 1 = "." then (rest.drop 1).takeWhile isDigit else []) = digits)
    (ho : parseOffset (if digits = [] then rest else rest.drop (1 + digits.length)) = some offset) :
    Stamp.ofRest seconds rest = some
      ⟨⟨parseNanoseconds digits % 1000000000, Nat.mod_lt _ (by decide)⟩, seconds - offset.getD 0, offset⟩ := by
  subst hd
  unfold Stamp.ofRest
  dsimp only
  rw [ho, Option.bind_some]

theorem ofRest_fraction (seconds : ℤ) (wall : Fin 1000000000) :
    Stamp.ofRest seconds ((if (wall : ℕ) = 0 then ("" : GoString) else "." ++ fraction wall) ++ "Z") =
      some ⟨wall, seconds, none⟩ := by
  have hzulu : ("Z" : GoString) = [0x5A] := rfl
  have hoffset : parseOffset [0x5A] = some none := rfl
  by_cases hzero : (wall : ℕ) = 0
  · obtain rfl : wall = 0 := Fin.ext hzero
    have hd : (if ([0x5A] : GoString).take 1 = "." then (([0x5A] : GoString).drop 1).takeWhile isDigit else []) =
        [] := rfl
    have hempty : ("" : GoString) = [] := rfl
    rw [if_pos hzero, hempty, List.nil_append, hzulu, ofRest_eq seconds hd hoffset, Option.getD_none, sub_zero]
    rfl
  · have hdot : ("." : GoString) = [0x2E] := rfl
    have hdigits : (fraction wall ++ [0x5A]).takeWhile isDigit = fraction wall := by
      have hstop : ([0x5A] : GoString).takeWhile isDigit = [] := rfl
      rw [List.takeWhile_append_of_pos fun b hb => isDigit_of_mem_fraction hb, hstop, List.append_nil]
    have hvalue := parseNanoseconds_fraction wall.isLt
    have hne : fraction wall ≠ [] := by
      intro hnil
      rw [hnil] at hvalue
      exact hzero hvalue.symm
    have hd : (if ((0x2E : UInt8) :: (fraction wall ++ [0x5A])).take 1 = "." then
        (((0x2E : UInt8) :: (fraction wall ++ [0x5A])).drop 1).takeWhile isDigit else []) = fraction wall := by
      rw [hdot, List.take_succ_cons, List.take_zero, if_pos rfl, List.drop_succ_cons, List.drop_zero, hdigits]
    have ho : parseOffset (if fraction wall = [] then (0x2E : UInt8) :: (fraction wall ++ [0x5A])
        else ((0x2E : UInt8) :: (fraction wall ++ [0x5A])).drop (1 + (fraction wall).length)) = some none := by
      rw [if_neg hne, Nat.add_comm, List.drop_succ_cons, List.drop_left, hoffset]
    rw [if_neg hzero, hdot, hzulu, List.singleton_append, List.cons_append, ofRest_eq seconds hd ho]
    simp only [hvalue, Nat.mod_eq_of_lt wall.isLt, Option.getD_none, sub_zero]

/-- **A time is read back from its text**, to the nanosecond, if its year has four digits. -/
theorem parseRFC3339_format {t : Time} (h0 : 0 ≤ t.year) (h9 : t.year ≤ 9999) :
    parseRFC3339 (formatRFC3339Nano t) = some ⟨t.wall, t.ext, none⟩ := by
  obtain ⟨hday, hM1, hM12, hD1, hD⟩ := dayOf_civil (t.ext / 86400)
  replace hD := hD h0
  unfold year at h0 h9
  unfold formatRFC3339Nano
  dsimp only
  generalize civil (t.ext / 86400) = date at *
  obtain ⟨year, month, day⟩ := date
  dsimp only at *
  obtain ⟨Y, rfl⟩ := Int.eq_ofNat_of_zero_le h0
  have hsec : t.ext % 86400 = ((t.ext % 86400).toNat : ℤ) ∧ (t.ext % 86400).toNat < 86400 := by omega
  generalize (t.ext % 86400).toNat = sec at *
  have hday31 : day < 100 := by
    have h31 : daysIn month (Y : ℤ).toNat ≤ 31 := by
      unfold daysIn
      split_ifs <;> decide
    omega
  have hdayRead : parseUint (pad 2 day) 1 (daysIn month Y) = some day := parseUint_pad 2 hD1 hD
  have hsign : (if (Y : ℤ) < 0 then ("-" : GoString) else "") = [] := if_neg (by omega)
  rw [hsign, List.nil_append, List.append_assoc _ _ ("Z" : GoString), Int.natAbs_natCast,
    parseRFC3339_fields (length_pad (by decide) (by omega)) (length_pad (by decide) (by omega))
      (length_pad (by decide) (by omega)) (length_pad (by decide) (by omega)) (length_pad (by decide) (by omega))
      (length_pad (by decide) (by omega))]
  rw [parseUint_pad 4 (Nat.zero_le Y) (by omega), Option.bind_some, parseUint_pad 2 hM1 hM12, Option.bind_some,
    hdayRead, Option.bind_some, parseUint_pad 2 (Nat.zero_le _) (by omega), Option.bind_some,
    parseUint_pad 2 (Nat.zero_le _) (by omega), Option.bind_some,
    parseUint_pad 2 (Nat.zero_le _) (by omega), Option.bind_some, ofRest_fraction]
  have hseconds : dayOf Y month day * 86400 + ((sec / 3600 * 3600 + sec / 60 % 60 * 60 + sec % 60 : ℕ) : ℤ) =
      t.ext := by
    rw [hday]
    omega
  rw [hseconds]

end Idryx.Time
