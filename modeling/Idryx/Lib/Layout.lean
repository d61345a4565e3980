import Mathlib.Algebra.Order.Ring.Nat
import Mathlib.Data.List.Basic
import Mathlib.Data.Nat.ModEq

/-!
# Records as bytes

The bytes of numbers, lowest first, and a record as a compiler lays it out: each member at a multiple of
its alignment, the whole a multiple of the largest, and anything at all in the gaps.

* `le`, `ofLE`: a number as bytes and back, `ofLE_le`;
* `Member`, `Image`: the bytes a record may have; `Packed`: there are no gaps;
* **`image_iff`**: a packed record has one image, its members one after the other;
* `slice`; **`slice_member`**: a member is found at its offset.
-/

namespace Layout

/-! ## Numbers -/

/-- The `w` lowest bytes of a number, the lowest first. -/
def le : ℕ → ℕ → List UInt8
  | 0, _ => []
  | w + 1, n => UInt8.ofNat n :: le w (n / 256)

/-- The number of bytes that stand the lowest first. -/
def ofLE : List UInt8 → ℕ
  | [] => 0
  | b :: bs => b.toNat + 256 * ofLE bs

@[simp] theorem length_le (w n : ℕ) : (le w n).length = w := by
  induction w generalizing n with
  | zero => rfl
  | succ w ih => rw [le, List.length_cons, ih]

theorem ofLE_le (w n : ℕ) : ofLE (le w n) = n % 256 ^ w := by
  induction w generalizing n with
  | zero => rw [pow_zero, Nat.mod_one]; rfl
  | succ w ih =>
    have hbyte : (UInt8.ofNat n).toNat = n % 256 := UInt8.toNat_ofNat'
    rw [le, ofLE, ih, hbyte, pow_succ', Nat.mod_mul]

theorem ofLE_le_of_lt {w n : ℕ} (h : n < 256 ^ w) : ofLE (le w n) = n := by
  rw [ofLE_le, Nat.mod_eq_of_lt h]

/-! ## Layout -/

/-- A member of a record: what its address is a multiple of, and its bytes. -/
structure Member where
  align : ℕ
  bytes : List UInt8

/-- How many bytes there are up to the next multiple. -/
def gap (align off : ℕ) : ℕ := (align - off % align) % align

/-- The bytes a record may have from an offset on. -/
inductive Image (whole : ℕ) : ℕ → List Member → List UInt8 → Prop
  | tail {off : ℕ} (fill : List UInt8) (hfill : fill.length = gap whole off) : Image whole off [] fill
  | member {off : ℕ} {m : Member} {ms : List Member} {rest : List UInt8} (fill : List UInt8)
      (hfill : fill.length = gap m.align off)
      (hrest : Image whole (off + gap m.align off + m.bytes.length) ms rest) :
      Image whole off (m :: ms) (fill ++ (m.bytes ++ rest))

/-- Every member stands at a multiple of its alignment as it is. -/
def Packed (whole : ℕ) : ℕ → List Member → Prop
  | off, [] => gap whole off = 0
  | off, m :: ms => gap m.align off = 0 ∧ Packed whole (off + m.bytes.length) ms

/-- **A packed record has one image.** -/
theorem image_iff {whole off : ℕ} {ms : List Member} {out : List UInt8} (h : Packed whole off ms) :
    Image whole off ms out ↔ out = ms.flatMap Member.bytes := by
  induction ms generalizing off out with
  | nil =>
    constructor
    · rintro ⟨_, hfill⟩
      exact List.length_eq_zero_iff.mp (hfill.trans h)
    · rintro rfl
      exact .tail [] (Eq.symm h)
  | cons m ms ih =>
    obtain ⟨hgap, hrest⟩ := h
    constructor
    · intro himage
      cases himage with
      | member fill hfill himage =>
        rw [hgap, Nat.add_zero] at himage
        rw [List.length_eq_zero_iff.mp (hfill.trans hgap), (ih hrest).mp himage]
        rfl
    · rintro rfl
      have himage : Image whole (off + gap m.align off + m.bytes.length) ms (ms.flatMap Member.bytes) := by
        rw [hgap, Nat.add_zero]
        exact (ih hrest).mpr rfl
      exact .member [] hgap.symm himage

/-! ## Slices -/

section Slice

variable {α : Type*} {xs ys : List α} {a b : ℕ}

/-- The entries from `a` up to `b`. -/
def slice (a b : ℕ) (xs : List α) : List α := (xs.drop a).take (b - a)

theorem slice_head (h : xs.length = b) : slice 0 b (xs ++ ys) = xs := by
  subst h
  exact List.take_left

theorem slice_skip {n : ℕ} (h : xs.length = n) (ha : n ≤ a) :
    slice a b (xs ++ ys) = slice (a - n) (b - n) ys := by
  subst h
  have hlen : b - xs.length - (a - xs.length) = b - a := by omega
  rw [slice, slice, List.drop_append, List.drop_eq_nil_of_le ha, List.nil_append, hlen]

theorem getD_of_slice {x d : α} (h : slice a (a + 1) xs = [x]) : xs.getD a d = x := by
  rw [slice, Nat.add_sub_cancel_left, List.take_one, List.head?_drop] at h
  rw [List.getD_eq_getElem?_getD]
  cases hx : xs[a]? with
  | none => rw [hx] at h; cases h
  | some y => rw [hx] at h; exact List.head_eq_of_cons_eq h

end Slice

/-- **A member is found at its offset.** -/
theorem slice_member {ms : List Member} {lens : List ℕ} {rest : List UInt8} {m : Member} {i a b : ℕ}
    (hlens : ms.map (fun m => m.bytes.length) = lens) (hm : ms[i]? = some m)
    (ha : (lens.take i).sum = a) (hb : (lens.take (i + 1)).sum = b) :
    slice a b (ms.flatMap Member.bytes ++ rest) = m.bytes := by
  obtain ⟨hi, hget⟩ := List.getElem?_eq_some_iff.mp hm
  have hsplit : ms.flatMap Member.bytes ++ rest = (ms.take i).flatMap Member.bytes ++
      (m.bytes ++ ((ms.drop (i + 1)).flatMap Member.bytes ++ rest)) := by
    conv_lhs => rw [← List.take_append_drop i ms, List.drop_eq_getElem_cons hi, hget]
    simp only [List.flatMap_append, List.flatMap_cons, List.append_assoc]
  have hstart : ((ms.take i).flatMap Member.bytes).length = a := by
    rw [List.length_flatMap, List.map_take, hlens, ha]
  have hend : a + m.bytes.length = b := by
    rw [← ha, ← hb, ← hlens, ← List.map_take, ← List.map_take, List.take_add_one, hm]
    simp
  rw [hsplit, slice_skip hstart le_rfl, Nat.sub_self]
  exact slice_head (by omega)

end Layout
