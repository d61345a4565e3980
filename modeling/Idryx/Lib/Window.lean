import Mathlib.Data.List.Basic
import Mathlib.Data.List.TakeWhile
import Mathlib.Data.Int.Order.Basic

/-!
# Windows over a sorted list

Entries with an integer key, in order of it, and the entries not more than `width` before one of them.

* `near`: what is in the window that ends at an entry; `HasGroup`: there are `n` entries whose first and
  last are not more than `width` apart;
* `filter_near`, `drop_takeWhile_near`: in a sorted list the window is a final segment;
* `near_of_slide`, **`filter_of_slide`**: a start that slides over what the window leaves out is its start;
* **`hasGroup_concat`**: an entry more completes a group exactly when the window that ends at it has
  `n` entries.
-/

namespace Window

variable {α : Type*} (key : α → ℤ) (width : ℤ)

/-- `a` is in the window that ends at `c`. -/
def near (c a : α) : Bool := key c - key a ≤ width

/-- `n` entries whose first and last are not more than `width` apart. -/
def HasGroup (n : ℕ) (xs : List α) : Prop :=
  ∃ first mid last, (first :: mid ++ [last]).Sublist xs ∧ mid.length + 2 = n ∧
    key last - key first ≤ width

variable {key width} {xs ys : List α} {c : α}

theorem near_self (h : 0 ≤ width) (c : α) : near key width c c = true := by
  simp [near, h]

theorem HasGroup.mono {n : ℕ} (h : HasGroup key width n xs) (hs : xs.Sublist ys) :
    HasGroup key width n ys := by
  obtain ⟨first, mid, last, hg, hn, hw⟩ := h
  exact ⟨first, mid, last, hg.trans hs, hn, hw⟩

/-- **The window is a final segment** of a sorted list. -/
theorem filter_near (hsort : xs.Pairwise fun a b => key a ≤ key b) :
    xs.filter (near key width c) = xs.dropWhile fun a => !near key width c a := by
  induction xs with
  | nil => rfl
  | cons a xs ih =>
    rw [List.pairwise_cons] at hsort
    by_cases ha : near key width c a = true
    · have hall : ∀ b ∈ xs, near key width c b = true := by
        intro b hb
        have := hsort.1 b hb
        simp only [near, decide_eq_true_eq] at ha ⊢
        omega
      rw [List.dropWhile_cons_of_neg (by simp [ha]), List.filter_cons_of_pos ha,
        List.filter_eq_self.mpr hall]
    · rw [List.dropWhile_cons_of_pos (by simp [ha]), List.filter_cons_of_neg ha]
      exact ih hsort.2

theorem drop_takeWhile_near (hsort : xs.Pairwise fun a b => key a ≤ key b) :
    xs.drop (xs.takeWhile fun a => !near key width c a).length = xs.filter (near key width c) := by
  have hsplit := List.takeWhile_append_dropWhile (p := fun a => !near key width c a) (l := xs)
  calc xs.drop (xs.takeWhile fun a => !near key width c a).length
      = ((xs.takeWhile fun a => !near key width c a) ++ xs.dropWhile fun a => !near key width c a).drop
          (xs.takeWhile fun a => !near key width c a).length := by rw [hsplit]
    _ = xs.dropWhile fun a => !near key width c a := List.drop_left
    _ = xs.filter (near key width c) := (filter_near hsort).symm

theorem near_take_takeWhile (xs : List α) :
    ∀ a ∈ xs.take (xs.takeWhile fun a => !near key width c a).length, near key width c a = false := by
  intro a ha
  rw [← List.prefix_iff_eq_take.mp (List.takeWhile_prefix _)] at ha
  simpa using List.mem_takeWhile_imp ha

theorem near_eq_false_of_le {c c' a : α} (h : near key width c a = false) (hle : key c ≤ key c') :
    near key width c' a = false := by
  simp only [near, decide_eq_false_iff_not, not_le] at h ⊢
  omega

/-- A start with nothing of the window before it, moved over what the window leaves out, has nothing of it
before it. -/
theorem near_of_slide {start : ℕ} (hout : ∀ a ∈ xs.take start, near key width c a = false) :
    ∀ a ∈ xs.take (start + ((xs.drop start).takeWhile fun a => !near key width c a).length),
      near key width c a = false := by
  intro a ha
  rw [List.take_add, List.mem_append] at ha
  rcases ha with ha | ha
  · exact hout a ha
  · exact near_take_takeWhile _ a ha

/-- **The window of one entry more** starts where the start slides to. -/
theorem filter_of_slide (hw : 0 ≤ width) (hsort : xs.Pairwise fun a b => key a ≤ key b) {start : ℕ}
    (hout : ∀ a ∈ xs.take start, near key width c a = false) :
    (xs ++ [c]).filter (near key width c) =
      xs.drop (start + ((xs.drop start).takeWhile fun a => !near key width c a).length) ++ [c] := by
  have hskip : (xs.take start).filter (near key width c) = [] := by
    rw [List.filter_eq_nil_iff]
    intro a ha
    rw [hout a ha]
    exact Bool.noConfusion
  calc (xs ++ [c]).filter (near key width c)
      = (xs.take start).filter (near key width c) ++ (xs.drop start).filter (near key width c) ++ [c] := by
        rw [← List.filter_append, List.take_append_drop, List.filter_append, List.filter_cons_of_pos (near_self hw c),
          List.filter_nil]
    _ = (xs.drop start).drop ((xs.drop start).takeWhile fun a => !near key width c a).length ++ [c] := by
        rw [hskip, List.nil_append, drop_takeWhile_near (hsort.sublist (List.drop_sublist start xs))]
    _ = xs.drop (start + ((xs.drop start).takeWhile fun a => !near key width c a).length) ++ [c] := by
        rw [List.drop_drop]

/-- **An entry more completes a group** exactly when its window has `n` entries. -/
theorem hasGroup_concat {n : ℕ} (hn : 2 ≤ n) (hw : 0 ≤ width)
    (hsort : (xs ++ [c]).Pairwise fun a b => key a ≤ key b) :
    HasGroup key width n (xs ++ [c]) ↔
      HasGroup key width n xs ∨ n ≤ ((xs ++ [c]).filter (near key width c)).length := by
  have hc : (xs ++ [c]).filter (near key width c) = xs.filter (near key width c) ++ [c] := by
    simp [near_self hw]
  constructor
  · rintro ⟨first, mid, last, hg, hlen, hgap⟩
    obtain ⟨l₁, l₂, heq, h₁, h₂⟩ := List.sublist_append_iff.mp hg
    rcases List.sublist_singleton.mp h₂ with rfl | rfl
    · rw [List.append_nil] at heq
      exact Or.inl ⟨first, mid, last, heq ▸ h₁, hlen, hgap⟩
    · obtain ⟨rfl, hlast⟩ := List.append_inj' heq rfl
      obtain rfl : last = c := List.singleton_inj.mp hlast
      -- all of the group is near the last, as its first is
      have hsort' := (hsort.sublist (List.sublist_append_left xs [last])).sublist h₁
      have hall : ∀ a ∈ first :: mid, near key width last a = true := by
        intro a ha
        have hle : key first ≤ key a := by
          rcases List.mem_cons.mp ha with rfl | ha
          · exact le_refl _
          · exact (List.pairwise_cons.mp hsort').1 a ha
        simp only [near, decide_eq_true_eq]
        omega
      have hsub := h₁.filter (near key width last)
      rw [List.filter_eq_self.mpr hall] at hsub
      have hle := hsub.length_le
      rw [List.length_cons] at hle
      right
      rw [hc, List.length_append, List.length_singleton]
      omega
  · rintro (h | h)
    · exact h.mono (List.sublist_append_left xs [c])
    · -- the last `n - 1` entries of the window, and `c`
      rw [hc, List.length_append, List.length_singleton] at h
      obtain ⟨first, mid, hg⟩ := List.exists_cons_of_length_pos (l := (xs.filter (near key width c)).drop
        ((xs.filter (near key width c)).length - (n - 1))) (by rw [List.length_drop]; omega)
      have hlen := congrArg List.length hg
      rw [List.length_drop, List.length_cons] at hlen
      have hsub : (first :: mid).Sublist (xs.filter (near key width c)) := hg ▸ List.drop_sublist _ _
      have hfirst := (List.mem_filter.mp (hsub.subset List.mem_cons_self)).2
      refine ⟨first, mid, c, (hsub.trans List.filter_sublist).append (List.Sublist.refl [c]), ?_, ?_⟩
      · omega
      · simpa [near] using hfirst

theorem not_hasGroup_nil (n : ℕ) : ¬ HasGroup key width n ([] : List α) := by
  rintro ⟨first, mid, last, hg, -⟩
  simpa using hg.length_le

end Window
