import Mathlib.Algebra.GroupWithZero.Nat
import Mathlib.Data.List.Basic

/-!
# Loops

A loop over a list is a left fold, and what each turn does to a part of the state the loop does to it.
For invariants there is `List.foldlRecOn`.

* `foldl_fixed`: what no turn changes;
* `foldl_append`, `foldl_sum`, `foldl_countP`: what each turn appends to, adds to and counts in;
  `foldl_append_take`: what each turn appends to while there is room;
* **`foldl_iff`**: what each turn makes true on a condition of its own.
-/

namespace Loop

variable {σ β γ : Type*} {step : σ → β → σ}

theorem foldl_fixed {f : σ → γ} {bs : List β} (h : ∀ s, ∀ b ∈ bs, f (step s b) = f s) (s : σ) :
    f (bs.foldl step s) = f s := by
  induction bs generalizing s with
  | nil => rfl
  | cons b bs ih =>
    rw [List.foldl_cons, ih fun s c hc => h s c (List.mem_cons_of_mem b hc)]
    exact h s b List.mem_cons_self

theorem foldl_append {f : σ → List γ} {g : β → List γ} (h : ∀ s b, f (step s b) = f s ++ g b)
    (bs : List β) (s : σ) : f (bs.foldl step s) = f s ++ bs.flatMap g := by
  induction bs generalizing s with
  | nil => exact (List.append_nil _).symm
  | cons b bs ih => rw [List.foldl_cons, ih, h, List.append_assoc, List.flatMap_cons]

theorem foldl_sum {f : σ → ℕ} {g : β → ℕ} (h : ∀ s b, f (step s b) = f s + g b) (bs : List β) (s : σ) :
    f (bs.foldl step s) = f s + (bs.map g).sum := by
  induction bs generalizing s with
  | nil => rfl
  | cons b bs ih => rw [List.foldl_cons, ih, h, List.map_cons, List.sum_cons, Nat.add_assoc]

theorem foldl_countP {f : σ → ℕ} {p : β → Bool} (h : ∀ s b, f (step s b) = f s + if p b then 1 else 0)
    (bs : List β) (s : σ) : f (bs.foldl step s) = f s + bs.countP p := by
  have hsum : (bs.map fun b => if p b then 1 else 0).sum = bs.countP p := by
    induction bs with
    | nil => rfl
    | cons b bs ih => rw [List.map_cons, List.sum_cons, ih, List.countP_cons, Nat.add_comm]
  rw [foldl_sum h, hsum]

theorem take_take_append (n : ℕ) (l m : List γ) : (l.take n ++ m).take n = (l ++ m).take n := by
  rw [List.take_append, List.take_append, List.take_take, Nat.min_self, List.length_take]
  congr 2
  omega

/-- A list that each turn appends to while it is shorter than `n` holds the first `n` of what they would
have appended. -/
theorem foldl_append_take {f : σ → List γ} {g : β → List γ} {n : ℕ}
    (h : ∀ s b, f (step s b) = f s ++ (g b).take (n - (f s).length)) (bs : List β) {s : σ}
    (hs : (f s).length ≤ n) : f (bs.foldl step s) = (f s ++ bs.flatMap g).take n := by
  induction bs generalizing s with
  | nil =>
    rw [List.flatMap_nil, List.append_nil]
    exact (List.take_of_length_le hs).symm
  | cons b bs ih =>
    have hstep : f (step s b) = (f s ++ g b).take n := by
      rw [h, List.take_append, List.take_of_length_le hs]
    have hlen : (f (step s b)).length ≤ n := by
      rw [hstep]
      exact List.length_take_le _ _
    rw [List.foldl_cons, ih hlen, hstep, take_take_append, List.flatMap_cons, List.append_assoc]

/-- **A property that each turn makes true on its own condition**, and else leaves as it is, holds after
the loop if it held before or the condition of some turn did. -/
theorem foldl_iff {P : σ → Prop} {Q : β → Prop} (h : ∀ s b, P (step s b) ↔ P s ∨ Q b)
    (bs : List β) (s : σ) : P (bs.foldl step s) ↔ P s ∨ ∃ b ∈ bs, Q b := by
  induction bs generalizing s with
  | nil => simp
  | cons b bs ih =>
    rw [List.foldl_cons, ih, h, or_assoc]
    simp only [List.mem_cons, exists_eq_or_imp]

end Loop
