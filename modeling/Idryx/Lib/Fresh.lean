import Mathlib.Data.List.Basic
import Mathlib.Data.List.Nodup
import Mathlib.Data.List.Perm.Subperm
import Mathlib.Data.Nat.Find

/-!
# Fresh names

One candidate after the other until one is not used.

* `search`, with the number of tries; `first`: the name found;
* `exists_free`: among distinct candidates, one of the first `used.length + 1` is free;
* **`search_first`**: the search ends, and `first` is what it finds;
* `assign`: a name for each of a list, every one used from then on; `nodup_assign`.
-/

namespace Idryx.Fresh

variable {α β : Type*} [DecidableEq α]

/-- The first candidate from the `k`-th on that is not used, within so many tries. -/
def search (used : List α) (candidates : ℕ → α) : ℕ → ℕ → Option α
  | 0, _ => none
  | tries + 1, k =>
    if candidates k ∈ used then search used candidates tries (k + 1) else some (candidates k)

/-- The first candidate that is not used. The search finds it within these tries, so the default is never taken. -/
def first (used : List α) (candidates : ℕ → α) : α :=
  (search used candidates (used.length + 1) 0).getD (candidates 0)

variable {used : List α} {candidates : ℕ → α}

theorem search_of_free {n : ℕ} (hn : candidates n ∉ used) : ∀ (tries k : ℕ), k ≤ n → n < k + tries →
    (∀ j, k ≤ j → j < n → candidates j ∈ used) → search used candidates tries k = some (candidates n)
  | 0, k, hk, hlt, _ => absurd hlt (by omega)
  | tries + 1, k, hk, hlt, hbelow => by
    rw [search]
    rcases Nat.eq_or_lt_of_le hk with rfl | hkn
    · rw [if_neg hn]
    · rw [if_pos (hbelow k le_rfl hkn)]
      exact search_of_free hn tries (k + 1) hkn (by omega) fun j hj => hbelow j (by omega)

theorem exists_free (hinj : Function.Injective candidates) (used : List α) :
    ∃ n ≤ used.length, candidates n ∉ used ∧ ∀ j < n, candidates j ∈ used := by
  have hfree : ∃ n, n ≤ used.length ∧ candidates n ∉ used := by
    by_contra hall
    push Not at hall
    have hsub : (List.range (used.length + 1)).map candidates ⊆ used := by
      intro x hx
      obtain ⟨n, hn, rfl⟩ := List.mem_map.mp hx
      exact hall n (Nat.lt_succ_iff.mp (List.mem_range.mp hn))
    have hlen := (List.subperm_of_subset (List.Nodup.map hinj List.nodup_range) hsub).length_le
    rw [List.length_map, List.length_range] at hlen
    omega
  obtain ⟨hle, hnot⟩ := Nat.find_spec hfree
  refine ⟨Nat.find hfree, hle, hnot, fun j hj => ?_⟩
  by_contra hj'
  exact Nat.find_min hfree hj ⟨by omega, hj'⟩

/-- **The search ends** as soon as it has one try more than there are used names. -/
theorem search_first (hinj : Function.Injective candidates) {tries : ℕ} (h : used.length < tries) :
    search used candidates tries 0 = some (first used candidates) := by
  obtain ⟨n, hn, hfree, hbelow⟩ := exists_free hinj used
  have hfound : ∀ tries, n < tries → search used candidates tries 0 = some (candidates n) := fun tries hlt =>
    search_of_free hfree tries 0 (Nat.zero_le n) (by omega) fun j _ => hbelow j
  rw [first, hfound tries (by omega), hfound (used.length + 1) (by omega), Option.getD_some]

theorem first_spec (hinj : Function.Injective candidates) (used : List α) :
    first used candidates ∉ used ∧ ∃ n, first used candidates = candidates n := by
  obtain ⟨n, hn, hfree, hbelow⟩ := exists_free hinj used
  have hfound : search used candidates (used.length + 1) 0 = some (candidates n) :=
    search_of_free hfree _ 0 (Nat.zero_le n) (by omega) fun j _ => hbelow j
  rw [search_first hinj (Nat.lt_succ_self _), Option.some.injEq] at hfound
  exact ⟨hfound ▸ hfree, n, hfound⟩

/-- A name for each, none of them used before. -/
def assign (candidates : β → ℕ → α) : List α → List β → List α
  | _, [] => []
  | used, b :: bs =>
    let name := first used (candidates b)
    name :: assign candidates (name :: used) bs

variable {candidates : β → ℕ → α}

@[simp] theorem length_assign : ∀ (used : List α) (bs : List β), (assign candidates used bs).length = bs.length
  | _, [] => rfl
  | used, b :: bs => by rw [assign, List.length_cons, length_assign, List.length_cons]

/-- **Assigned names are distinct**, also from those used before. -/
theorem nodup_assign (hinj : ∀ b, Function.Injective (candidates b)) : ∀ (used : List α) (bs : List β),
    (assign candidates used bs).Nodup ∧ ∀ name ∈ assign candidates used bs, name ∉ used
  | _, [] => ⟨List.nodup_nil, fun _ h => absurd h List.not_mem_nil⟩
  | used, b :: bs => by
    obtain ⟨hnodup, hfresh⟩ := nodup_assign hinj (first used (candidates b) :: used) bs
    rw [assign]
    refine ⟨List.nodup_cons.mpr ⟨fun hmem => hfresh _ hmem List.mem_cons_self, hnodup⟩, ?_⟩
    rintro name (_ | ⟨_, hmem⟩)
    · exact (first_spec (hinj b) used).1
    · exact fun hused => hfresh name hmem (List.mem_cons_of_mem _ hused)

theorem candidate_of_mem_assign (hinj : ∀ b, Function.Injective (candidates b)) {name : α} :
    ∀ {used : List α} {bs : List β}, name ∈ assign candidates used bs → ∃ b ∈ bs, ∃ n, name = candidates b n
  | _, [], h => absurd h List.not_mem_nil
  | used, b :: bs, h => by
    rw [assign] at h
    rcases List.mem_cons.mp h with rfl | hmem
    · exact ⟨b, List.mem_cons_self, (first_spec (hinj b) used).2⟩
    · obtain ⟨c, hc, n, hn⟩ := candidate_of_mem_assign hinj hmem
      exact ⟨c, List.mem_cons_of_mem b hc, n, hn⟩

end Idryx.Fresh
