import Idryx.Go.Strings

/-!
# Text that was not written here

`internal/aiusage/sanitize.go`: names from files somebody else could have edited, as printable text.

* `escape`; **`escape_printable`**: printable ASCII text that fits is left as it is.
-/

namespace Idryx.AiUsage

/-- `unicode.IsControl`. -/
def isControl (r : Nat) : Bool := r < 0x20 || (0x7F ≤ r && r < 0xA0)

/-- What `escape` writes for the rune `r` of width `w` that `s` starts with. -/
def escapePiece (U : Unicode) (s : GoString) (r w : Nat) : GoString :=
  if r = Utf8.runeError ∧ w = 1 then ("\\x" : GoString) ++ Strconv.hexPad 2 (s.headD 0).toNat
  else if isControl r = true ∨ U.isCf r = true ∨ r = 0x2028 ∨ r = 0x2029 then
    if r < 0x100 then ("\\x" : GoString) ++ Strconv.hexPad 2 r
    else ("\\u" : GoString) ++ Strconv.hexPad 4 r
  else s.take w

/-- The loop of `escape`, over the runes of what is left; `n` runes are written. -/
def escapeFrom (U : Unicode) (max : Int) : List (Nat × Nat) → GoString → Nat → GoString
  | [], _, _ => []
  | (r, w) :: rs, s, n =>
    let piece := escapePiece U s r w
    let pr := (Utf8.runes piece).length
    -- room for the ellipsis when more text follows
    let limit := if s.drop w ≠ [] then max - 1 else max
    if limit < (n + pr : Nat) then "…"
    else piece ++ escapeFrom U max rs (s.drop w) (n + pr)

/-- `s` as printable text of at most `max` runes. -/
def escape (U : Unicode) (s : GoString) (max : Int) : GoString :=
  escapeFrom U max (Utf8.runes s) s 0

/-- **Printable ASCII text that fits is shown as it is.** -/
theorem escape_printable (U : Unicode) {s : GoString} (hs : ∀ b ∈ s, 0x20 ≤ b ∧ b < 0x7F) {max : Int}
    (hmax : s.length ≤ max) : escape U s max = s := by
  have hrun : ∀ (s : GoString) (n : Nat), (∀ b ∈ s, 0x20 ≤ b ∧ b < 0x7F) →
      ((n + s.length : Nat) : Int) ≤ max → escapeFrom U max (Utf8.runes s) s n = s := by
    intro s
    induction s with
    | nil => exact fun _ _ _ => rfl
    | cons b s ih =>
      intro n hs hn
      obtain ⟨hlo, hhi⟩ := hs b List.mem_cons_self
      have hlo' : 0x20 ≤ b.toNat := UInt8.le_iff_toNat_le.mp hlo
      have hhi' : b.toNat < 0x7F := UInt8.lt_iff_toNat_lt.mp hhi
      have hb : b < 0x80 := UInt8.lt_trans hhi (by decide)
      have hpiece : escapePiece U (b :: s) b.toNat 1 = [b] := by
        have hcontrol : isControl b.toNat = false := by
          unfold isControl
          simp only [Bool.or_eq_false_iff, Bool.and_eq_false_iff, decide_eq_false_iff_not]
          omega
        unfold escapePiece
        rw [if_neg, if_neg]
        · rfl
        · rw [hcontrol, U.isCf_ascii _ (by omega)]
          simp only [Bool.false_eq_true, false_or]
          omega
        · rintro ⟨h, -⟩
          have : Utf8.runeError = 0xFFFD := rfl
          omega
      have hone : (Utf8.runes [b]).length = 1 := by rw [Utf8.runes_ascii_cons hb]; rfl
      rw [List.length_cons] at hn
      rw [Utf8.runes_ascii_cons hb, escapeFrom]
      simp only [hpiece, hone, List.drop_one, List.tail_cons]
      rw [if_neg, ih (n + 1) (fun c hc => hs c (List.mem_cons_of_mem b hc)) (by omega)]
      · rfl
      · cases s with
        | nil =>
          simp only [ne_eq, not_true_eq_false, if_false]
          rw [List.length_nil] at hn
          omega
        | cons c s =>
          simp only [ne_eq, List.cons_ne_nil, not_false_eq_true, if_true]
          rw [List.length_cons] at hn
          omega
  exact hrun s 0 hs (by omega)

end Idryx.AiUsage
