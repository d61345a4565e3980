import Idryx.Lib.Keyed
import Mathlib.Algebra.BigOperators.Group.List.Basic

/-!
# Totals under keys

A map whose values are added to, each key once, and merged with others of its kind.

* `put`: add to the value of a key; `merge`: add each entry of another map;
* `amount f m k`: a count `f` of the value at `k`, none where there is no entry;
* **`amount_merge`**: counts of a merge are sums; `nodup_merge`: a merge has each key once;
* `counts`; **`counts_perm`**: counting forgets the order of a list.
-/

namespace Totals

variable {κ V : Type*} [DecidableEq κ]

/-- Add `v` to the value of `k`. -/
def put (add : V → V → V) (m : List (κ × V)) (k : κ) (v : V) : List (κ × V) :=
  Keyed.upsert Prod.fst k (k, v) (fun p => (p.1, add p.2 v)) m

/-- Add each entry of `o`. -/
def merge (add : V → V → V) (m o : List (κ × V)) : List (κ × V) :=
  o.foldl (fun m p => put add m p.1 p.2) m

/-- A count of the value at `k`. -/
def amount (f : V → ℕ) (m : List (κ × V)) (k : κ) : ℕ :=
  ((Keyed.lookup Prod.fst k m).map fun p => f p.2).getD 0

variable {add : V → V → V} {m o : List (κ × V)} {k j : κ} {v : V}

theorem nodup_put (h : (m.map Prod.fst).Nodup) : ((put add m k v).map Prod.fst).Nodup :=
  Keyed.nodup_upsert (by rfl) (by exact fun _ h => h) h

theorem nodup_merge (h : (m.map Prod.fst).Nodup) (o : List (κ × V)) :
    ((merge add m o).map Prod.fst).Nodup :=
  List.foldlRecOn (motive := fun m : List (κ × V) => (m.map Prod.fst).Nodup) o _ h
    fun _ h _ _ => nodup_put h

theorem mem_keys_put : j ∈ (put add m k v).map Prod.fst ↔ j ∈ m.map Prod.fst ∨ j = k :=
  Keyed.mem_keys_upsert (by rfl) (by exact fun _ h => h)

theorem sum_put (m : List (κ × ℕ)) (k : κ) (n : ℕ) :
    ((put (· + ·) m k n).map Prod.snd).sum = (m.map Prod.snd).sum + n := by
  unfold put
  induction m with
  | nil => simp [Keyed.upsert]
  | cons row m ih =>
    rw [Keyed.upsert]
    split_ifs
    · simp only [List.map_cons, List.sum_cons]
      omega
    · simp only [List.map_cons, List.sum_cons, ih]
      omega

theorem perm_of_amount {m o : List (κ × ℕ)} (hm : (m.map Prod.fst).Nodup) (ho : (o.map Prod.fst).Nodup)
    (hkeys : ∀ k, k ∈ m.map Prod.fst ↔ k ∈ o.map Prod.fst)
    (hamount : ∀ k, amount (fun n => n) m k = amount (fun n => n) o k) : m.Perm o := by
  refine Keyed.perm_of_lookup hm ho fun k => ?_
  have hk := hkeys k
  have ha := hamount k
  unfold amount at ha
  rw [← not_iff_not, ← Keyed.lookup_eq_none, ← Keyed.lookup_eq_none] at hk
  cases hlm : Keyed.lookup Prod.fst k m with
  | none => exact (hk.mp hlm).symm
  | some row =>
    cases hlo : Keyed.lookup Prod.fst k o with
    | none =>
      rw [hk.mpr hlo] at hlm
      cases hlm
    | some row' =>
      rw [hlm, hlo] at ha
      have hkey : row.1 = row'.1 := (Keyed.lookup_key hlm).trans (Keyed.lookup_key hlo).symm
      exact congrArg some (Prod.ext hkey ha)

section Amount

variable {f : V → ℕ} (hf : ∀ a b, f (add a b) = f a + f b)

include hf

theorem amount_put (m : List (κ × V)) (k : κ) (v : V) (j : κ) :
    amount f (put add m k v) j = amount f m j + if k = j then f v else 0 := by
  unfold amount put
  by_cases h : k = j
  · subst h
    rw [Keyed.lookup_upsert_self (by rfl) (by exact fun _ h => h), if_pos rfl]
    cases Keyed.lookup Prod.fst k m with
    | none => simp
    | some p => simp [hf]
  · rw [Keyed.lookup_upsert_ne (by rfl) (by exact fun _ h => h) (Ne.symm h), if_neg h,
      Nat.add_zero]

/-- **The counts of a merge are sums.** -/
theorem amount_merge (m : List (κ × V)) (ho : (o.map Prod.fst).Nodup) (j : κ) :
    amount f (merge add m o) j = amount f m j + amount f o j := by
  induction o generalizing m with
  | nil => rfl
  | cons p o ih =>
    rw [List.map_cons, List.nodup_cons] at ho
    have hp : amount f (p :: o) j = (if p.1 = j then f p.2 else 0) + amount f o j := by
      unfold amount
      rw [Keyed.lookup_cons]
      by_cases h : p.1 = j
      · have hnone : Keyed.lookup Prod.fst j o = none := Keyed.lookup_eq_none.mpr (h ▸ ho.1)
        rw [if_pos h, if_pos h, hnone]
        rfl
      · rw [if_neg h, if_neg h, Nat.zero_add]
    rw [hp, ← Nat.add_assoc, ← amount_put hf]
    exact ih _ ho.2

theorem amount_foldl_merge {os : List (List (κ × V))} (hos : ∀ o ∈ os, (o.map Prod.fst).Nodup)
    (m : List (κ × V)) (j : κ) :
    amount f (os.foldl (merge add) m) j = amount f m j + (os.map fun o => amount f o j).sum := by
  induction os generalizing m with
  | nil => rfl
  | cons o os ih =>
    rw [List.forall_mem_cons] at hos
    rw [List.foldl_cons, ih hos.2, amount_merge hf m hos.1, List.map_cons, List.sum_cons,
      Nat.add_assoc]

end Amount

/-! ## Counting -/

/-- How often each key occurs in a list. -/
def counts (ks : List κ) : List (κ × ℕ) := ks.foldl (fun m k => put (· + ·) m k 1) []

theorem nodup_counts (ks : List κ) : ((counts ks).map Prod.fst).Nodup :=
  List.foldlRecOn (motive := fun m : List (κ × ℕ) => (m.map Prod.fst).Nodup) ks _ List.nodup_nil
    fun _ h _ _ => nodup_put h

theorem mem_keys_counts {ks : List κ} {k : κ} : k ∈ (counts ks).map Prod.fst ↔ k ∈ ks := by
  have hput : ∀ (m : List (κ × ℕ)) (j : κ),
      k ∈ (put (· + ·) m j 1).map Prod.fst ↔ k ∈ m.map Prod.fst ∨ k = j := fun _ _ => mem_keys_put
  refine (Loop.foldl_iff (P := fun m : List (κ × ℕ) => k ∈ m.map Prod.fst) hput ks []).trans ?_
  simp

theorem amount_counts (ks : List κ) (k : κ) : amount (fun n => n) (counts ks) k = ks.count k := by
  have hput : ∀ (m : List (κ × ℕ)) (j : κ), amount (fun n => n) (put (· + ·) m j 1) k =
      amount (fun n => n) m k + if j = k then 1 else 0 := fun m j => amount_put (fun _ _ => rfl) m j 1 k
  refine (Loop.foldl_sum (f := fun m : List (κ × ℕ) => amount (fun n => n) m k) hput ks []).trans ?_
  clear hput
  induction ks with
  | nil => rfl
  | cons j ks ih =>
    rw [List.map_cons, List.sum_cons, Nat.add_left_comm, ih, List.count_cons, Nat.add_comm]
    simp

theorem amount_counts_eq_countP (ks : List κ) (k : κ) :
    amount (fun n => n) (counts ks) k = ks.countP fun j => j = k := by
  rw [amount_counts, List.count]
  exact List.countP_congr fun j _ => by rw [beq_iff_eq, decide_eq_true_iff]

theorem sum_countP {ks js : List κ} (hn : ks.Nodup) (h : ∀ j ∈ js, j ∈ ks) :
    (ks.map fun k => js.countP fun j => j = k).sum = js.length := by
  induction js with
  | nil => simp
  | cons j js ih =>
    have hone : (ks.map fun k => if j = k then 1 else 0).sum = 1 := by
      have hcount : ∀ ks : List κ, (ks.map fun k => if j = k then 1 else 0).sum = ks.count j := by
        intro ks
        induction ks with
        | nil => rfl
        | cons k ks ih =>
          rw [List.map_cons, List.sum_cons, ih, List.count_cons, Nat.add_comm]
          simp only [beq_iff_eq, @eq_comm κ k j]
      rw [hcount, List.count_eq_one_of_mem hn (h j List.mem_cons_self)]
    simp only [List.countP_cons, decide_eq_true_eq, List.sum_map_add, hone,
      ih fun k hk => h k (List.mem_cons_of_mem j hk), List.length_cons]

/-- **Counting forgets the order of a list.** -/
theorem counts_perm {ks js : List κ} (h : ks.Perm js) : (counts ks).Perm (counts js) := by
  refine perm_of_amount (nodup_counts ks) (nodup_counts js) (fun k => ?_) fun k => ?_
  · rw [mem_keys_counts, mem_keys_counts, h.mem_iff]
  · rw [amount_counts, amount_counts, h.count_eq]

end Totals
