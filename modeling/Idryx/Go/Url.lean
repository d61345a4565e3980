import Idryx.Go.Strings

/-!
# Package `net/url`

* `unhex`, `queryUnescape`: a plus sign is a blank, and an escape without two digits is an error;
* `PercentEncoded`: the texts in which each byte is kept or escaped, and a percent or plus sign is
  escaped; **`queryUnescape_of_encoded`**; `percentEncode`: one that keeps the unreserved characters
  only;
* **`queryUnescape_eq_none`**, `queryUnescape_eq_self`: what is an error, and what is left as it is;
  `Changed`: what is neither.
-/

namespace Idryx.Url

/-- The value of a hexadecimal digit. -/
def unhex (c : UInt8) : Option Nat :=
  if 0x30 ≤ c ∧ c ≤ 0x39 then some (c.toNat - 0x30)
  else if 0x61 ≤ c ∧ c ≤ 0x66 then some (c.toNat - 0x57)
  else if 0x41 ≤ c ∧ c ≤ 0x46 then some (c.toNat - 0x37)
  else none

/-- `url.QueryUnescape`; `none` is an `EscapeError`. -/
def queryUnescape : GoString → Option GoString
  | [] => some []
  | c :: s =>
    if c = 0x25 then
      match s with
      | h :: l :: s =>
        match unhex h, unhex l with
        | some x, some y => (queryUnescape s).map (UInt8.ofNat (16 * x + y) :: ·)
        | _, _ => none
      | _ => none
    else (queryUnescape s).map ((if c = 0x2B then 0x20 else c) :: ·)

theorem queryUnescape_cons {c : UInt8} (hc : c ≠ 0x25) (s : GoString) :
    queryUnescape (c :: s) = (queryUnescape s).map ((if c = 0x2B then 0x20 else c) :: ·) := by
  rw [queryUnescape.eq_def]
  exact if_neg hc

theorem queryUnescape_escaped {hi lo : UInt8} {x y : Nat} (hx : unhex hi = some x)
    (hy : unhex lo = some y) (s : GoString) : queryUnescape (0x25 :: hi :: lo :: s) =
      (queryUnescape s).map (UInt8.ofNat (16 * x + y) :: ·) := by
  rw [queryUnescape, if_pos rfl]
  simp only [hx, hy]

/-- The first text is the second in percent-encoding: a byte is escaped, in either case of the digits,
or kept unless it is a percent or a plus sign. -/
inductive PercentEncoded : GoString → GoString → Prop
  | nil : PercentEncoded [] []
  | kept {c : UInt8} {u t : GoString} (hpercent : c ≠ 0x25) (hplus : c ≠ 0x2B)
      (h : PercentEncoded u t) : PercentEncoded (c :: u) (c :: t)
  | escaped {hi lo : UInt8} {x y : Nat} {u t : GoString} (hx : unhex hi = some x)
      (hy : unhex lo = some y) (h : PercentEncoded u t) :
      PercentEncoded (0x25 :: hi :: lo :: u) (UInt8.ofNat (16 * x + y) :: t)

/-- **Percent-encoding is undone.** -/
theorem queryUnescape_of_encoded {u t : GoString} (h : PercentEncoded u t) :
    queryUnescape u = some t := by
  induction h with
  | nil => rfl
  | kept hpercent hplus _ ih =>
    rw [queryUnescape_cons hpercent, if_neg hplus, ih, Option.map_some]
  | escaped hx hy _ ih => rw [queryUnescape_escaped hx hy, ih, Option.map_some]

/-- A letter, a digit, or one of `-._~`. -/
def unreserved (c : UInt8) : Bool :=
  (0x41 ≤ c && c ≤ 0x5A) || (0x61 ≤ c && c ≤ 0x7A) || (0x30 ≤ c && c ≤ 0x39) ||
    c == 0x2D || c == 0x2E || c == 0x5F || c == 0x7E

/-- The digit of a number below 16. -/
def upperHex (n : Nat) : UInt8 := UInt8.ofNat (if n < 10 then 0x30 + n else 0x37 + n)

/-- A byte in percent-encoding. -/
def percentEncodeByte (c : UInt8) : GoString :=
  if unreserved c then [c] else [0x25, upperHex (c.toNat / 16), upperHex (c.toNat % 16)]

/-- The percent-encoding of a text, with every character escaped that is reserved. -/
def percentEncode (s : GoString) : GoString := s.flatMap percentEncodeByte

theorem unhex_upperHex : ∀ n < 16, unhex (upperHex n) = some n := by decide +kernel

theorem percentEncoded_percentEncode (s : GoString) : PercentEncoded (percentEncode s) s := by
  induction s with
  | nil => exact PercentEncoded.nil
  | cons c s ih =>
    rw [percentEncode, List.flatMap_cons, percentEncodeByte]
    split_ifs with hc
    · have hsign : ∀ c : UInt8, unreserved c = true → c ≠ 0x25 ∧ c ≠ 0x2B :=
        forall_byte (by decide +kernel)
      exact PercentEncoded.kept (hsign c hc).1 (hsign c hc).2 ih
    · have hlt := c.toNat_lt
      have hc' : UInt8.ofNat (16 * (c.toNat / 16) + c.toNat % 16) = c := by
        rw [Nat.div_add_mod, UInt8.ofNat_toNat]
      have h := PercentEncoded.escaped (unhex_upperHex (c.toNat / 16) (by omega))
        (unhex_upperHex (c.toNat % 16) (by omega)) ih
      rw [hc'] at h
      exact h

theorem percentEncode_ascii {s : GoString} : ∀ b ∈ percentEncode s, b < 0x80 := by
  have hall : ∀ c : UInt8, (percentEncodeByte c).all (· < 0x80) = true :=
    forall_byte (by decide +kernel)
  intro b hb
  obtain ⟨c, -, hb⟩ := List.mem_flatMap.mp hb
  exact of_decide_eq_true (List.all_eq_true.mp (hall c) b hb)

/-- A percent sign with no two digits behind it. -/
def Malformed (s : GoString) : Prop :=
  ∃ x y, s = x ++ 0x25 :: y ∧ ∀ h l z, y = h :: l :: z → unhex h = none ∨ unhex l = none

theorem malformed_cons {c : UInt8} {s : GoString} (h : Malformed s) : Malformed (c :: s) := by
  obtain ⟨x, y, rfl, hy⟩ := h
  exact ⟨c :: x, y, rfl, hy⟩

theorem malformed_of_cons {c : UInt8} {s : GoString} (hc : c ≠ 0x25) (h : Malformed (c :: s)) :
    Malformed s := by
  obtain ⟨x, y, hs, hy⟩ := h
  cases x with
  | nil => exact absurd (List.cons.inj hs).1 hc
  | cons b x => exact ⟨x, y, (List.cons.inj hs).2, hy⟩

/-- **The texts that cannot be unescaped.** -/
theorem queryUnescape_eq_none {s : GoString} : queryUnescape s = none ↔ Malformed s := by
  have hdigit : ∀ {c : UInt8} {x : Nat}, unhex c = some x → c ≠ 0x25 := by
    rintro c x hx rfl
    cases hx
  fun_induction queryUnescape s with
  | case1 =>
    refine iff_of_false (by simp) ?_
    rintro ⟨x, y, hs, -⟩
    simp at hs
  | case2 hi lo s x y hy hx ih =>
    refine Option.map_eq_none_iff.trans (ih.trans ⟨fun h => ?_, fun h => ?_⟩)
    · exact malformed_cons (malformed_cons (malformed_cons h))
    obtain ⟨u, v, hs, hv⟩ := h
    cases u with
    | nil =>
      obtain rfl := (List.cons.inj hs).2
      rcases hv hi lo s rfl with h | h
      · rw [hx] at h
        cases h
      · rw [hy] at h
        cases h
    | cons b u =>
      have htail : Malformed (hi :: lo :: s) := ⟨u, v, (List.cons.inj hs).2, hv⟩
      exact malformed_of_cons (hdigit hy) (malformed_of_cons (hdigit hx) htail)
  | case3 hi lo s hno =>
    refine iff_of_true rfl ⟨[], _, rfl, fun h l z heq => ?_⟩
    cases heq
    by_contra hsome
    rw [not_or] at hsome
    obtain ⟨x, hx⟩ := Option.ne_none_iff_exists'.mp hsome.1
    obtain ⟨y, hy⟩ := Option.ne_none_iff_exists'.mp hsome.2
    exact hno x y hx hy
  | case4 s hno => exact iff_of_true rfl ⟨[], _, rfl, fun h l z heq => (hno h l z heq).elim⟩
  | case5 c s hc ih =>
    exact Option.map_eq_none_iff.trans (ih.trans ⟨malformed_cons, malformed_of_cons hc⟩)

/-- **A text with neither sign is left as it is.** -/
theorem queryUnescape_eq_self {s : GoString} (hpercent : 0x25 ∉ s) (hplus : 0x2B ∉ s) :
    queryUnescape s = some s := by
  induction s with
  | nil => rfl
  | cons c s ih =>
    rw [List.mem_cons, not_or] at hpercent hplus
    rw [queryUnescape_cons (Ne.symm hpercent.1), if_neg (Ne.symm hplus.1),
      ih hpercent.2 hplus.2, Option.map_some]

/-- The text can be unescaped, and has a sign that is changed by that. -/
def Changed (s : GoString) : Prop := ¬ Malformed s ∧ (0x25 ∈ s ∨ 0x2B ∈ s)

theorem getD_queryUnescape {s : GoString} (h : ¬ Changed s) : (queryUnescape s).getD s = s := by
  by_cases hmalformed : Malformed s
  · rw [queryUnescape_eq_none.mpr hmalformed, Option.getD_none]
  · have hsigns : ¬ (0x25 ∈ s ∨ 0x2B ∈ s) := fun hs => h ⟨hmalformed, hs⟩
    rw [not_or] at hsigns
    rw [queryUnescape_eq_self hsigns.1 hsigns.2, Option.getD_some]

end Idryx.Url
