import Idryx.Go.Url
import Mathlib.Tactic.Ring

/-!
# Numerals

* `decimal`: the number of a text of digits; `itoa_eq`: the decimal numeral by its last digit;
  **`decimal_itoa`**, `head_itoa`: it is read back, and has no leading zero;
* `hexadecimal`: the number of a text of hexadecimal digits; **`hexadecimal_hex`**, `hexadecimal_hexPad`.
-/

namespace Idryx.Strconv

open Url (unhex)

/-! ## Decimal -/

/-- The byte of a digit. -/
def digit (d : ℕ) : UInt8 := UInt8.ofNat (0x30 + d)

/-- A text of digits read from the left. -/
def decimal (s : GoString) : ℕ := s.foldl (fun v b => 10 * v + (b.toNat - 0x30)) 0

theorem toNat_digit {d : ℕ} (hd : d < 10) : (digit d).toNat = 0x30 + d := by
  rw [digit, UInt8.toNat_ofNat']
  omega

/-- **A numeral by its last digit.** -/
theorem itoa_eq (n : ℕ) : itoa n = if n < 10 then [digit n] else itoa (n / 10) ++ [digit (n % 10)] := by
  have hdigit : ∀ d < 10, String.utf8EncodeChar (Nat.digitChar d) = [digit d] := by decide
  have htext : ∀ n, itoa n = (Nat.toDigits 10 n).flatMap String.utf8EncodeChar := fun n =>
    (GoString.ofString_eq _).trans (congrArg (List.flatMap String.utf8EncodeChar) Nat.toList_repr)
  rw [htext, htext, Nat.toDigits_eq_if (by decide)]
  split_ifs with h
  · rw [List.flatMap_cons, hdigit n h]
    rfl
  · rw [List.flatMap_append, List.flatMap_cons, hdigit _ (Nat.mod_lt n (by decide))]
    rfl

theorem digit_of_mem_itoa {n : ℕ} {b : UInt8} (hb : b ∈ itoa n) : 0x30 ≤ b.toNat ∧ b.toNat ≤ 0x39 := by
  induction n using Nat.strongRecOn with
  | _ n ih =>
    rw [itoa_eq] at hb
    split_ifs at hb with h
    · rw [List.mem_singleton.mp hb, toNat_digit h]
      omega
    · rcases List.mem_append.mp hb with hb | hb
      · exact ih (n / 10) (by omega) hb
      · rw [List.mem_singleton.mp hb, toNat_digit (Nat.mod_lt n (by decide))]
        omega

theorem ascii_itoa (n : ℕ) : ∀ b ∈ itoa n, b < 0x80 := by
  intro b hb
  rw [UInt8.lt_iff_toNat_lt]
  exact Nat.lt_of_le_of_lt (digit_of_mem_itoa hb).2 (by decide)

theorem itoa_ne_nil (n : ℕ) : itoa n ≠ [] := by
  rw [itoa_eq]
  split_ifs
  · exact List.cons_ne_nil _ _
  · simp

theorem length_itoa_le {n k : ℕ} (hk : 0 < k) (hn : n < 10 ^ k) : (itoa n).length ≤ k := by
  induction k generalizing n with
  | zero => omega
  | succ k ih =>
    rw [itoa_eq]
    split_ifs with h
    · exact hk
    · have hdiv : n / 10 < 10 ^ k := by
        rw [pow_succ] at hn
        omega
      have hpos : 0 < k := by
        by_contra hzero
        have hk0 : k = 0 := by omega
        rw [hk0, pow_zero] at hdiv
        omega
      rw [List.length_append, List.length_singleton]
      exact Nat.succ_le_succ (ih hpos hdiv)

/-- **A numeral is read back.** -/
theorem decimal_itoa (n : ℕ) : decimal (itoa n) = n := by
  induction n using Nat.strongRecOn with
  | _ n ih =>
    rw [itoa_eq, decimal]
    split_ifs with h
    · rw [List.foldl_cons, List.foldl_nil, toNat_digit h]
      omega
    · have hrec : (itoa (n / 10)).foldl (fun v b => 10 * v + (b.toNat - 0x30)) 0 = n / 10 :=
        ih (n / 10) (by omega)
      rw [List.foldl_append, hrec, List.foldl_cons, List.foldl_nil,
        toNat_digit (Nat.mod_lt n (by decide))]
      omega

/-- **No numeral but zero starts with a zero.** -/
theorem head_itoa {n : ℕ} (hn : 0 < n) : (itoa n).head? ≠ some 0x30 := by
  induction n using Nat.strongRecOn with
  | _ n ih =>
    rw [itoa_eq]
    split_ifs with h
    · intro hhead
      have hzero : (digit n).toNat = 0x30 := congrArg UInt8.toNat (Option.some.inj hhead)
      rw [toNat_digit h] at hzero
      omega
    · obtain ⟨c, s, hs⟩ := List.exists_cons_of_ne_nil (itoa_ne_nil (n / 10))
      have hrec := ih (n / 10) (by omega) (by omega)
      rw [hs] at hrec ⊢
      exact hrec

/-! ## Hexadecimal -/

/-- A text of hexadecimal digits read from the left. -/
def hexadecimal (s : GoString) : ℕ := s.foldl (fun v b => 16 * v + (unhex b).getD 0) 0

@[simp] theorem length_hex (w n : ℕ) : (hex w n).length = w := by
  induction w with
  | zero => rfl
  | succ w ih => rw [hex, List.length_cons, ih]

theorem unhex_digit : ∀ d < 16, unhex (UInt8.ofNat (if d < 10 then 0x30 + d else 0x57 + d)) = some d := by
  decide

theorem unhex_of_mem_hex {w n : ℕ} {b : UInt8} (hb : b ∈ hex w n) : ∃ d < 16,
    b = UInt8.ofNat (if d < 10 then 0x30 + d else 0x57 + d) := by
  induction w with
  | zero => cases hb
  | succ w ih =>
    rcases List.mem_cons.mp hb with hb | hb
    · exact ⟨_, Nat.mod_lt _ (by decide), hb⟩
    · exact ih hb

theorem foldl_hex (w n v : ℕ) :
    (hex w n).foldl (fun v b => 16 * v + (unhex b).getD 0) v = 16 ^ w * v + n % 16 ^ w := by
  induction w generalizing v with
  | zero => simp [hex, Nat.mod_one]
  | succ w ih =>
    have hd : (unhex (UInt8.ofNat (if n / 16 ^ w % 16 < 10 then 0x30 + n / 16 ^ w % 16
        else 0x57 + n / 16 ^ w % 16))).getD 0 = n / 16 ^ w % 16 := by
      rw [unhex_digit _ (Nat.mod_lt _ (by decide)), Option.getD_some]
    have hsplit : n % 16 ^ (w + 1) = n % 16 ^ w + 16 ^ w * (n / 16 ^ w % 16) := by
      rw [pow_succ, Nat.mod_mul]
    rw [hex, List.foldl_cons, ih, hd, hsplit]
    ring

/-- **Hexadecimal digits are read back.** -/
theorem hexadecimal_hex {w n : ℕ} (h : n < 16 ^ w) : hexadecimal (hex w n) = n := by
  rw [hexadecimal, foldl_hex, Nat.mul_zero, Nat.zero_add, Nat.mod_eq_of_lt h]

theorem hexadecimal_hexPad (w n : ℕ) : hexadecimal (hexPad w n) = n := by
  refine hexadecimal_hex ?_
  have hpow : (2 : ℕ) ^ (4 * (n.log2 / 4 + 1)) = 16 ^ (n.log2 / 4 + 1) := by rw [pow_mul]; rfl
  calc n < 2 ^ (n.log2 + 1) := Nat.lt_log2_self
    _ ≤ 2 ^ (4 * (n.log2 / 4 + 1)) := Nat.pow_le_pow_right (by decide) (by omega)
    _ = 16 ^ (n.log2 / 4 + 1) := hpow
    _ ≤ 16 ^ max w (n.log2 / 4 + 1) := Nat.pow_le_pow_right (by decide) (le_max_right _ _)

end Idryx.Strconv
