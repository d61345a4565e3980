import Idryx.Go.Rfc3339
import Mathlib

/-!
# The order of times written out

Times written with a fixed width for each field are ordered as text as they are in time.

* `monthStart`, `monthStart_succ`: the first days of the months; **`dayOf_lt_iff`**: dates are ordered as their days;
* `append_lt_append_iff`, **`pad_lt_pad_iff`**: fields of one width;
* `formatSeconds`; **`formatSeconds_lt_iff`**: texts of the years 0 to 9999 are ordered as their seconds.
-/

namespace Idryx.Time

/-! ## Months -/

/-- The first day of the month, months counted from January of year 0. -/
def monthStart (k : ℕ) : ℤ := dayOf (k / 12 : ℕ) (k % 12 + 1) 1

/-- The day a year begins on that starts in March. -/
def marchStart (y : ℤ) : ℤ :=
  y / 400 * 146097 + ((365 * (y % 400).toNat + (y % 400).toNat / 4 - (y % 400).toNat / 100 : ℕ) : ℤ) - 306

theorem marchStart_succ (y : ℤ) : marchStart y = marchStart (y - 1) +
    if y % 4 = 0 ∧ (y % 100 ≠ 0 ∨ y % 400 = 0) then 366 else 365 := by
  unfold marchStart
  by_cases hcycle : y % 400 = 0
  · have hbefore : (y - 1) / 400 = y / 400 - 1 ∧ (y - 1) % 400 = 399 := by omega
    have hlast : (399 : ℤ).toNat = 399 := rfl
    rw [hbefore.1, hbefore.2, hcycle, if_pos (by omega), hlast]
    omega
  · have hbefore : (y - 1) / 400 = y / 400 ∧ (y - 1) % 400 = y % 400 - 1 := by omega
    rw [hbefore.1, hbefore.2]
    split_ifs <;> omega

theorem dayOf_eq (y : ℤ) (m d : ℕ) : dayOf y m d =
    marchStart (if m ≤ 2 then y - 1 else y) + (((153 * ((m + 9) % 12) + 2) / 5 + d - 1 : ℕ) : ℤ) := by
  unfold dayOf marchStart
  dsimp only
  split_ifs <;> omega

theorem dayOf_one (y : ℤ) (m : ℕ) {d : ℕ} (hd : 1 ≤ d) : dayOf y m d = dayOf y m 1 + (d - 1 : ℕ) := by
  rw [dayOf_eq, dayOf_eq]
  omega

/-- **A month is followed by the next one.** -/
theorem monthStart_succ (k : ℕ) : monthStart (k + 1) = monthStart k + daysIn (k % 12 + 1) (k / 12) := by
  have hm : k % 12 < 12 := Nat.mod_lt k (by decide)
  unfold monthStart
  by_cases hlast : k % 12 = 11
  · have hnext : (k + 1) / 12 = k / 12 + 1 ∧ (k + 1) % 12 = 0 := by omega
    rw [hnext.1, hnext.2, hlast, dayOf_eq, dayOf_eq, if_pos (by decide), if_neg (by decide)]
    simp [daysIn]
    omega
  · have hnext : (k + 1) / 12 = k / 12 ∧ (k + 1) % 12 = k % 12 + 1 := by omega
    rw [hnext.1, hnext.2, dayOf_eq, dayOf_eq]
    generalize k / 12 = y
    have hyear := marchStart_succ y
    generalize k % 12 = m at *
    by_cases hfeb : m = 1
    · subst hfeb
      rw [if_neg (by decide), if_pos (by decide), hyear, daysIn, if_pos rfl]
      split_ifs <;> omega
    · interval_cases m <;> simp [daysIn] at * <;> omega

theorem strictMono_monthStart : StrictMono monthStart := by
  refine strictMono_nat_of_lt_succ fun k => ?_
  have hdays : 0 < daysIn (k % 12 + 1) (k / 12) := by
    unfold daysIn
    split_ifs <;> decide
  rw [monthStart_succ]
  omega

/-- A date of the calendar. -/
structure Date where
  year : ℕ
  month : ℕ
  day : ℕ
  one_le_month : 1 ≤ month
  month_le : month ≤ 12
  one_le_day : 1 ≤ day
  day_le : day ≤ daysIn month year

namespace Date

/-- The number of the month, counted from January of year 0. -/
def index (d : Date) : ℕ := 12 * d.year + (d.month - 1)

theorem index_div (d : Date) : d.index / 12 = d.year ∧ d.index % 12 + 1 = d.month := by
  have h1 := d.one_le_month
  have h12 := d.month_le
  unfold index
  omega

theorem dayOf_eq_monthStart (d : Date) : dayOf d.year d.month d.day = monthStart d.index + (d.day - 1 : ℕ) := by
  rw [dayOf_one _ _ d.one_le_day, monthStart, d.index_div.1, d.index_div.2]

theorem dayOf_lt_monthStart (d : Date) : dayOf d.year d.month d.day < monthStart (d.index + 1) := by
  have h1 := d.one_le_day
  have hle := d.day_le
  rw [d.dayOf_eq_monthStart, monthStart_succ, d.index_div.1, d.index_div.2]
  omega

/-- **Dates are ordered as their days**: by month, and within a month by day. -/
theorem dayOf_lt_iff (d d' : Date) : dayOf d.year d.month d.day < dayOf d'.year d'.month d'.day ↔
    d.index < d'.index ∨ d.index = d'.index ∧ d.day < d'.day := by
  have h1 := d.one_le_day
  have h1' := d'.one_le_day
  rcases lt_trichotomy d.index d'.index with hlt | heq | hgt
  · have hnext := strictMono_monthStart.monotone (Nat.succ_le_of_lt hlt)
    have hday := d.dayOf_lt_monthStart
    have hday' := d'.dayOf_eq_monthStart
    rw [Nat.succ_eq_add_one] at hnext
    omega
  · rw [d.dayOf_eq_monthStart, d'.dayOf_eq_monthStart, heq]
    omega
  · have hnext := strictMono_monthStart.monotone (Nat.succ_le_of_lt hgt)
    have hday := d.dayOf_eq_monthStart
    have hday' := d'.dayOf_lt_monthStart
    rw [Nat.succ_eq_add_one] at hnext
    omega

end Date

/-! ## Fields of one width -/

theorem append_lt_append_iff : ∀ {a b x y : GoString}, a.length = b.length →
    (a ++ x < b ++ y ↔ a < b ∨ a = b ∧ x < y)
  | [], [], x, y, _ => by simp
  | c :: a, c' :: b, x, y, h => by
    have ih := append_lt_append_iff (x := x) (y := y) (Nat.succ.inj h)
    rw [List.cons_append, List.cons_append, List.cons_lt_cons_iff, List.cons_lt_cons_iff, ih, List.cons.injEq]
    tauto

theorem foldl_digits (s : GoString) (x : ℕ) :
    s.foldl (fun x c => x * 10 + (c.toNat - 0x30)) x = x * 10 ^ s.length + digitsValue s := by
  unfold digitsValue
  induction s generalizing x with
  | nil => simp
  | cons b s ih =>
    rw [List.foldl_cons, List.foldl_cons, ih, ih (0 * 10 + _), List.length_cons, pow_succ]
    ring

theorem digitsValue_cons (b : UInt8) (s : GoString) :
    digitsValue (b :: s) = (b.toNat - 0x30) * 10 ^ s.length + digitsValue s := by
  rw [digitsValue, List.foldl_cons, foldl_digits, Nat.zero_mul, Nat.zero_add]

theorem digitsValue_lt {s : GoString} (h : ∀ b ∈ s, isDigit b = true) : digitsValue s < 10 ^ s.length := by
  induction s with
  | nil => exact Nat.one_pos
  | cons b s ih =>
    have hb := isDigit_iff.mp (h b List.mem_cons_self)
    have hs := ih fun c hc => h c (List.mem_cons_of_mem b hc)
    have hlead : (b.toNat - 0x30) * 10 ^ s.length ≤ 9 * 10 ^ s.length := Nat.mul_le_mul_right _ (by omega)
    rw [digitsValue_cons, List.length_cons, pow_succ]
    omega

theorem digits_lt_iff : ∀ {s t : GoString}, s.length = t.length → (∀ b ∈ s, isDigit b = true) →
    (∀ b ∈ t, isDigit b = true) → (s < t ↔ digitsValue s < digitsValue t)
  | [], [], _, _, _ => by simp
  | b :: s, c :: t, h, hs, ht => by
    have hlen : s.length = t.length := Nat.succ.inj h
    have hs' : ∀ x ∈ s, isDigit x = true := fun x hx => hs x (List.mem_cons_of_mem b hx)
    have ht' : ∀ x ∈ t, isDigit x = true := fun x hx => ht x (List.mem_cons_of_mem c hx)
    have hb := isDigit_iff.mp (hs b List.mem_cons_self)
    have hc := isDigit_iff.mp (ht c List.mem_cons_self)
    have hslt := digitsValue_lt hs'
    have htlt := digitsValue_lt ht'
    rw [List.cons_lt_cons_iff, digits_lt_iff hlen hs' ht', digitsValue_cons, digitsValue_cons, ← hlen,
      UInt8.lt_iff_toNat_lt, ← UInt8.toNat_inj]
    rw [← hlen] at htlt
    generalize 10 ^ s.length = w at *
    rcases lt_trichotomy b.toNat c.toNat with hlt | heq | hgt
    · have hlead : (b.toNat - 0x30 + 1) * w ≤ (c.toNat - 0x30) * w := Nat.mul_le_mul_right w (by omega)
      rw [Nat.succ_mul] at hlead
      omega
    · rw [heq]
      omega
    · have hlead : (c.toNat - 0x30 + 1) * w ≤ (b.toNat - 0x30) * w := Nat.mul_le_mul_right w (by omega)
      rw [Nat.succ_mul] at hlead
      omega

/-- **Padded numerals are ordered as their numbers**, while they fit. -/
theorem pad_lt_pad_iff {w n m : ℕ} (hw : 0 < w) (hn : n < 10 ^ w) (hm : m < 10 ^ w) : pad w n < pad w m ↔ n < m := by
  have hlen : (pad w n).length = (pad w m).length := by rw [length_pad hw hn, length_pad hw hm]
  rw [digits_lt_iff hlen (fun _ => isDigit_of_mem_pad) (fun _ => isDigit_of_mem_pad), digitsValue_pad, digitsValue_pad]

theorem pad_inj {w n m : ℕ} (h : pad w n = pad w m) : n = m := by
  rw [← digitsValue_pad w n, h, digitsValue_pad]

theorem pad_append_lt_iff {w n m : ℕ} (hw : 0 < w) (hn : n < 10 ^ w) (hm : m < 10 ^ w) {x y : GoString} :
    pad w n ++ x < pad w m ++ y ↔ n < m ∨ n = m ∧ x < y := by
  have hlen : (pad w n).length = (pad w m).length := by rw [length_pad hw hn, length_pad hw hm]
  have heq : pad w n = pad w m ↔ n = m := ⟨pad_inj, fun h => h ▸ rfl⟩
  rw [append_lt_append_iff hlen, pad_lt_pad_iff hw hn hm, heq]

theorem append_left_lt_iff (s : GoString) {x y : GoString} : s ++ x < s ++ y ↔ x < y := by
  induction s with
  | nil => rfl
  | cons b s ih => rw [List.cons_append, List.cons_append, List.cons_lt_cons_iff, ih]; simp

/-! ## Times -/

/-- `t.UTC().Format("2006-01-02T15:04:05Z")`. -/
def formatSeconds (t : Time) : GoString :=
  let (year, month, day) := civil (t.ext / 86400)
  let sec := (t.ext % 86400).toNat
  (if year < 0 then ("-" : GoString) else "") ++ pad 4 year.natAbs ++ "-" ++ pad 2 month ++ "-" ++
    pad 2 day ++ "T" ++ pad 2 (sec / 3600) ++ ":" ++ pad 2 (sec / 60 % 60) ++ ":" ++ pad 2 (sec % 60) ++ "Z"

theorem ascii_formatSeconds (t : Time) : ∀ b ∈ t.formatSeconds, b < 0x80 := by
  have hsign : ∀ year : ℤ, ∀ b ∈ (if year < 0 then ("-" : GoString) else ""), b < 0x80 := by
    intro year
    split_ifs <;> exact forall_mem_of_all (by decide)
  have hdash : ∀ b ∈ ("-" : GoString), b < 0x80 := forall_mem_of_all (by decide)
  have hcolon : ∀ b ∈ (":" : GoString), b < 0x80 := forall_mem_of_all (by decide)
  unfold formatSeconds
  dsimp only
  simp only [List.forall_mem_append, and_assoc]
  exact ⟨hsign _, ascii_pad, hdash, ascii_pad, hdash, ascii_pad, forall_mem_of_all (by decide), ascii_pad, hcolon,
    ascii_pad, hcolon, ascii_pad, forall_mem_of_all (by decide)⟩

/-- A year that four digits hold. -/
def Plain (t : Time) : Prop := 0 ≤ t.year ∧ t.year ≤ 9999

instance (t : Time) : Decidable (Plain t) := inferInstanceAs (Decidable (_ ∧ _))

theorem exists_date {t : Time} (h : Plain t) : ∃ d : Date, civil (t.ext / 86400) = ((d.year : ℤ), d.month, d.day) ∧
    d.year < 10000 ∧ d.day < 100 ∧ dayOf d.year d.month d.day = t.ext / 86400 := by
  obtain ⟨hday, hM1, hM12, hD1, hD⟩ := dayOf_civil (t.ext / 86400)
  obtain ⟨h0, h9⟩ := h
  unfold year at h0 h9
  generalize civil (t.ext / 86400) = date at *
  obtain ⟨year, month, day⟩ := date
  dsimp only at *
  obtain ⟨y, rfl⟩ := Int.eq_ofNat_of_zero_le h0
  have hle : day ≤ daysIn month y := hD h0
  have h31 : daysIn month y ≤ 31 := by
    unfold daysIn
    split_ifs <;> decide
  refine ⟨⟨y, month, day, hM1, hM12, hD1, hle⟩, rfl, ?_, ?_, hday⟩
  · show y < 10000
    omega
  · show day < 100
    omega

/-- **Texts are ordered as their times**, to the second. -/
theorem formatSeconds_lt_iff {t u : Time} (ht : Plain t) (hu : Plain u) :
    formatSeconds t < formatSeconds u ↔ t.ext < u.ext := by
  obtain ⟨d, hd, hy, hday, hdayOf⟩ := exists_date ht
  obtain ⟨d', hd', hy', hday', hdayOf'⟩ := exists_date hu
  have hm := d.month_le
  have hm' := d'.month_le
  have h1 := d.one_le_month
  have h1' := d'.one_le_month
  have hiff := Date.dayOf_lt_iff d d'
  have hiff' := Date.dayOf_lt_iff d' d
  have hsign : ∀ n : ℕ, (if (n : ℤ) < 0 then ("-" : GoString) else "") = [] := fun n => if_neg (by omega)
  unfold formatSeconds
  rw [hd, hd']
  dsimp only
  rw [hsign, hsign, Int.natAbs_natCast, Int.natAbs_natCast]
  simp only [List.nil_append, List.append_assoc]
  have hs : (t.ext % 86400).toNat < 86400 ∧ (u.ext % 86400).toNat < 86400 := by omega
  have hsec : t.ext = t.ext / 86400 * 86400 + (t.ext % 86400).toNat ∧
      u.ext = u.ext / 86400 * 86400 + (u.ext % 86400).toNat := by omega
  rw [← hdayOf, ← hdayOf'] at hsec
  rw [pad_append_lt_iff (by decide) hy hy', append_left_lt_iff, pad_append_lt_iff (by decide) (by omega) (by omega),
    append_left_lt_iff, pad_append_lt_iff (by decide) hday hday', append_left_lt_iff,
    pad_append_lt_iff (by decide) (by omega) (by omega), append_left_lt_iff,
    pad_append_lt_iff (by decide) (by omega) (by omega), append_left_lt_iff,
    pad_append_lt_iff (by decide) (by omega) (by omega)]
  have hend : ¬ ("Z" : GoString) < "Z" := by decide
  unfold Date.index at hiff hiff'
  generalize dayOf d.year d.month d.day = day at *
  generalize dayOf d'.year d'.month d'.day = day' at *
  generalize (t.ext % 86400).toNat = sec at *
  generalize (u.ext % 86400).toNat = sec' at *
  simp only [hend, and_false, or_false]
  omega

end Idryx.Time
