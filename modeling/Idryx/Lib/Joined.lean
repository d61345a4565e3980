import Mathlib.Data.List.Basic
import Mathlib.Data.List.Forall2

/-!
# Lists joined by a separator

Fields that may hold the separator themselves.

* `append_sep_inj`: cut where the separator occurs last;
* `parts`: the fields, each cut at its separators and laid end to end;
* **`intercalate_eq_iff`**: two joins are one list exactly if their parts are;
* `parts_inj`: parts that are cut at the same places come from the same fields.
-/

namespace Idryx.Joined

variable {α : Type*}

theorem append_sep_inj {sep : α} {a b u v : List α} (hu : sep ∉ u) (hv : sep ∉ v) :
    a ++ sep :: u = b ++ sep :: v ↔ a = b ∧ u = v := by
  constructor
  · intro h
    rcases List.append_eq_append_iff.mp h with ⟨c, rfl, hc⟩ | ⟨c, rfl, hc⟩
    · cases c with
      | nil =>
        rw [List.nil_append, List.cons.injEq] at hc
        exact ⟨(List.append_nil a).symm, hc.2⟩
      | cons x c =>
        rw [List.cons_append, List.cons.injEq] at hc
        exact absurd (hc.2 ▸ List.mem_append_right c List.mem_cons_self) hu
    · cases c with
      | nil =>
        rw [List.nil_append, List.cons.injEq] at hc
        exact ⟨List.append_nil b, hc.2.symm⟩
      | cons x c =>
        rw [List.cons_append, List.cons.injEq] at hc
        exact absurd (hc.2 ▸ List.mem_append_right c List.mem_cons_self) hv
  · rintro ⟨rfl, rfl⟩
    rfl

variable [DecidableEq α] (sep : α)

/-- The fields, each cut at its separators and laid end to end. -/
def parts (fields : List (List α)) : List (List α) := fields.flatMap (·.splitOn sep)

@[simp] theorem parts_nil : parts sep [] = [] := rfl

@[simp] theorem parts_cons (x : List α) (xs : List (List α)) :
    parts sep (x :: xs) = x.splitOn sep ++ parts sep xs := List.flatMap_cons

theorem splitOn_intercalate : ∀ {fields : List (List α)}, fields ≠ [] →
    ([sep].intercalate fields).splitOn sep = parts sep fields
  | [], h => absurd rfl h
  | [x], _ => by rw [List.intercalate_singleton, parts_cons, parts_nil, List.append_nil]
  | x :: y :: ys, _ => by
    have ih := splitOn_intercalate (List.cons_ne_nil y ys)
    rw [List.intercalate_cons_cons, List.append_assoc, List.singleton_append, List.splitOn_append_cons_self, ih,
      parts_cons sep x]

/-- **Two joins are one list** exactly if their parts are. -/
theorem intercalate_eq_iff {xs ys : List (List α)} (hx : xs ≠ []) (hy : ys ≠ []) :
    [sep].intercalate xs = [sep].intercalate ys ↔ parts sep xs = parts sep ys := by
  constructor
  · intro h
    rw [← splitOn_intercalate sep hx, h, splitOn_intercalate sep hy]
  · intro h
    have hjoin : [sep].intercalate (([sep].intercalate xs).splitOn sep) = [sep].intercalate xs :=
      List.intercalate_splitOn sep
    rw [← hjoin, splitOn_intercalate sep hx, h, ← splitOn_intercalate sep hy, List.intercalate_splitOn]

theorem length_splitOn (x : List α) : (x.splitOn sep).length = x.count sep + 1 := by
  induction x with
  | nil => rfl
  | cons a x ih =>
    rw [List.splitOn_cons_eq_if_modifyHead, List.count_cons]
    split_ifs
    · rw [List.length_cons, ih]
    · rw [List.length_modifyHead, ih, Nat.add_zero]

theorem splitOn_inj {x y : List α} : x.splitOn sep = y.splitOn sep ↔ x = y := by
  constructor
  · intro h
    have hjoin : [sep].intercalate (x.splitOn sep) = x := List.intercalate_splitOn sep
    rw [← hjoin, h, List.intercalate_splitOn]
  · rintro rfl
    rfl

/-- **Parts that are cut at the same places** come from the same fields. -/
theorem parts_inj {xs ys : List (List α)} (h : List.Forall₂ (fun x y => x.count sep = y.count sep) xs ys) :
    parts sep xs = parts sep ys ↔ xs = ys := by
  induction h with
  | nil => simp
  | @cons x y xs ys hxy _ ih =>
    have hlen : (x.splitOn sep).length = (y.splitOn sep).length := by
      rw [length_splitOn, length_splitOn, hxy]
    rw [parts_cons, parts_cons, List.cons.injEq, ← splitOn_inj sep, ← ih]
    constructor
    · exact fun heq => List.append_inj heq hlen
    · rintro ⟨hhead, htail⟩
      rw [hhead, htail]

end Idryx.Joined
