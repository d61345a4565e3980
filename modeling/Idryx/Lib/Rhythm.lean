import Mathlib.Algebra.BigOperators.Group.List.Basic
import Mathlib.Algebra.BigOperators.Ring.List
import Mathlib.Algebra.Order.BigOperators.Group.List
import Mathlib.Algebra.Order.Group.Basic
import Mathlib.Algebra.Order.Field.Basic
import Mathlib.Data.List.Sort
import Mathlib.Tactic.Ring

/-!
# The rhythm of a series

Moments in any order, the gaps between them once they are sorted, and how much the gaps vary.

* `gaps`, `rhythm`: the gaps of a list, and of the sorted list;
* `rhythm_perm`, `rhythm_add`, **`rhythm_mirror`**, `rhythm_series`: what other orders, shifts and mirrors of
  a series do to it, and the rhythm of an exactly periodic one;
* `mean`, `spread`: the mean, and the squared coefficient of variation; **`spread_perm`**,
  **`spread_smul`**: the spread knows neither an order nor a unit.
-/

namespace Rhythm

/-! ## Gaps -/

section Gaps

variable {G : Type*} [AddCommGroup G]

/-- The differences of neighbours. -/
def gaps : List G → List G
  | [] => []
  | [_] => []
  | a :: b :: xs => (b - a) :: gaps (b :: xs)

theorem length_gaps : ∀ xs : List G, (gaps xs).length = xs.length - 1
  | [] => rfl
  | [_] => rfl
  | a :: b :: xs => by
    rw [gaps, List.length_cons, length_gaps (b :: xs)]
    simp

theorem gaps_map_add (c : G) : ∀ xs : List G, gaps (xs.map (· + c)) = gaps xs
  | [] => rfl
  | [_] => rfl
  | a :: b :: xs => by
    have ih := gaps_map_add c (b :: xs)
    rw [List.map_cons] at ih
    rw [List.map_cons, List.map_cons, gaps, ih, gaps, add_sub_add_right_eq_sub]

theorem gaps_snoc (a b : G) : ∀ xs : List G, gaps (xs ++ [a, b]) = gaps (xs ++ [a]) ++ [b - a]
  | [] => rfl
  | [_] => rfl
  | c :: d :: xs => by
    have ih := gaps_snoc a b (d :: xs)
    simp only [List.cons_append] at ih ⊢
    rw [gaps, ih, gaps, List.cons_append]

theorem gaps_mirror (c : G) : ∀ xs : List G, gaps (xs.map (c - ·)).reverse = (gaps xs).reverse
  | [] => rfl
  | [_] => rfl
  | a :: b :: xs => by
    have ih := gaps_mirror c (b :: xs)
    simp only [List.map_cons, List.reverse_cons, List.append_assoc, List.singleton_append] at ih ⊢
    rw [gaps_snoc, ih, gaps, List.reverse_cons, sub_sub_sub_cancel_left]

/-- `n` moments from `a` on, `p` apart. -/
def series (a p : G) (n : ℕ) : List G := List.iterate (· + p) a n

theorem gaps_series (p : G) : ∀ (a : G) (n : ℕ), gaps (series a p (n + 1)) = List.replicate n p
  | _, 0 => rfl
  | a, n + 1 => by
    have ih := gaps_series p (a + p) n
    simp only [series, List.iterate] at ih ⊢
    rw [gaps, ih, add_sub_cancel_left, List.replicate_succ]

end Gaps

/-! ## The rhythm -/

theorem insertionSort_eq {α : Type*} [LinearOrder α] {xs ys : List α} (h : ys.Perm xs) (hs : ys.Pairwise (· ≤ ·)) :
    xs.insertionSort (· ≤ ·) = ys :=
  ((List.perm_insertionSort _ xs).trans h.symm).eq_of_pairwise' (List.pairwise_insertionSort _ xs) hs

section Rhythm

variable {G : Type*} [AddCommGroup G] [LinearOrder G]

/-- The gaps of a series, which need not come in order. -/
def rhythm (xs : List G) : List G := gaps (xs.insertionSort (· ≤ ·))

theorem length_rhythm (xs : List G) : (rhythm xs).length = xs.length - 1 := by
  rw [rhythm, length_gaps, List.length_insertionSort]

theorem rhythm_perm {xs ys : List G} (h : xs.Perm ys) : rhythm xs = rhythm ys := by
  have hsort := insertionSort_eq (h.symm.trans (List.perm_insertionSort _ xs).symm).symm
    (List.pairwise_insertionSort _ xs)
  rw [rhythm, rhythm, hsort]

variable [IsOrderedAddMonoid G]

theorem rhythm_add (c : G) (xs : List G) : rhythm (xs.map (· + c)) = rhythm xs := by
  have hperm : ((xs.insertionSort (· ≤ ·)).map (· + c)).Perm (xs.map (· + c)) :=
    (List.perm_insertionSort _ xs).map _
  have hsorted : ((xs.insertionSort (· ≤ ·)).map (· + c)).Pairwise (· ≤ ·) :=
    List.pairwise_map.mpr
      ((List.pairwise_insertionSort (· ≤ ·) xs).imp fun h => add_le_add_left h c)
  rw [rhythm, insertionSort_eq hperm hsorted, gaps_map_add, rhythm]

/-- **A mirrored series** has the same gaps, the last of them first. -/
theorem rhythm_mirror (c : G) (xs : List G) : rhythm (xs.map (c - ·)) = (rhythm xs).reverse := by
  have hperm : ((xs.insertionSort (· ≤ ·)).map (c - ·)).reverse.Perm (xs.map (c - ·)) :=
    (List.reverse_perm _).trans ((List.perm_insertionSort _ xs).map _)
  have hsorted : ((xs.insertionSort (· ≤ ·)).map (c - ·)).reverse.Pairwise (· ≤ ·) := by
    rw [List.pairwise_reverse, List.pairwise_map]
    exact (List.pairwise_insertionSort (· ≤ ·) xs).imp fun h => sub_le_sub_left h c
  rw [rhythm, insertionSort_eq hperm hsorted, gaps_mirror, rhythm]

theorem pairwise_series {p : G} (hp : 0 ≤ p) : ∀ (a : G) (n : ℕ),
    (series a p n).Pairwise (· ≤ ·) ∧ ∀ x ∈ series a p n, a ≤ x
  | _, 0 => ⟨List.Pairwise.nil, fun _ h => absurd h List.not_mem_nil⟩
  | a, n + 1 => by
    obtain ⟨hpair, hle⟩ := pairwise_series hp (a + p) n
    have hge : ∀ x ∈ series (a + p) p n, a ≤ x := fun x hx => le_trans (le_add_of_nonneg_right hp) (hle x hx)
    exact ⟨List.pairwise_cons.mpr ⟨hge, hpair⟩, List.forall_mem_cons.mpr ⟨le_refl a, hge⟩⟩

theorem rhythm_series {p : G} (hp : 0 ≤ p) (a : G) (n : ℕ) : rhythm (series a p (n + 1)) = List.replicate n p := by
  rw [rhythm, insertionSort_eq (List.Perm.refl _) (pairwise_series hp a (n + 1)).1, gaps_series]

end Rhythm

/-! ## The spread -/

section Spread

variable {K : Type*} [Field K]

/-- The mean. -/
def mean (xs : List K) : K := xs.sum / xs.length

/-- The sum of the squared distances from `m`. -/
def deviation (m : K) (xs : List K) : K := (xs.map fun x => (x - m) * (x - m)).sum

/-- The squared coefficient of variation: the variance over the squared mean. -/
def spread (xs : List K) : K := deviation (mean xs) xs / xs.length / (mean xs * mean xs)

theorem mean_perm {xs ys : List K} (h : xs.Perm ys) : mean xs = mean ys := by
  rw [mean, mean, h.sum_eq, h.length_eq]

/-- **In any order** a list has one spread. -/
theorem spread_perm {xs ys : List K} (h : xs.Perm ys) : spread xs = spread ys := by
  rw [spread, spread, mean_perm h, h.length_eq, deviation, deviation, (h.map _).sum_eq]

theorem mean_smul (c : K) (xs : List K) : mean (xs.map (c * ·)) = c * mean xs := by
  have hsum : (xs.map (c * ·)).sum = c * xs.sum := by
    rw [List.sum_map_mul_left, List.map_id']
  rw [mean, hsum, List.length_map, mul_div_assoc, mean]

theorem deviation_smul (c m : K) (xs : List K) :
    deviation (c * m) (xs.map (c * ·)) = c * c * deviation m xs := by
  have hterm : ∀ x, (c * x - c * m) * (c * x - c * m) = c * c * ((x - m) * (x - m)) := fun x => by ring
  simp only [deviation, List.map_map, Function.comp_def, hterm]
  exact List.sum_map_mul_left ..

/-- **In any unit** a list has one spread. -/
theorem spread_smul {c : K} (hc : c ≠ 0) (xs : List K) : spread (xs.map (c * ·)) = spread xs := by
  have hmul : c * mean xs * (c * mean xs) = c * c * (mean xs * mean xs) := by ring
  rw [spread, mean_smul, deviation_smul, List.length_map, hmul, mul_div_assoc,
    mul_div_mul_left _ _ (mul_ne_zero hc hc), spread]

theorem spread_replicate [CharZero K] (n : ℕ) (a : K) : spread (List.replicate n a) = 0 := by
  cases n with
  | zero => simp [spread, deviation]
  | succ n =>
    have hn : ((n + 1 : ℕ) : K) ≠ 0 := Nat.cast_ne_zero.mpr n.succ_ne_zero
    have hmean : mean (List.replicate (n + 1) a) = a := by
      rw [mean, List.sum_replicate, List.length_replicate, nsmul_eq_mul, mul_div_cancel_left₀ a hn]
    rw [spread, hmean, deviation, List.map_replicate, List.sum_replicate, sub_self, mul_zero, nsmul_zero, zero_div,
      zero_div]

theorem mean_pos [LinearOrder K] [IsStrictOrderedRing K] {xs : List K} (hne : xs ≠ []) (h : ∀ x ∈ xs, 0 < x) :
    0 < mean xs := by
  have hlen : 0 < (xs.length : K) := Nat.cast_pos.mpr (List.length_pos_iff.mpr hne)
  exact div_pos (List.sum_pos xs h hne) hlen

end Spread

end Rhythm
