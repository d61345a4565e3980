import Mathlib.Data.List.Basic
import Mathlib.Data.List.Pairwise
import Mathlib.Data.List.Induction

/-!
# Keeping first occurrences

`keepFirst r acc xs` appends to `acc` each element of `xs` that nothing kept before it is related to:
a set of keys consulted before an insert, or a unique index with conflicts ignored.

* `exists_keepFirst`, `mem_of_mem_keepFirst`, `keepFirst_pairwise`, `keepFirst_eq_self`;
* `filter_keepFirst_class`: of a class of related elements the first is kept;
* `keepFirst_sublist`: a coarser relation keeps a sublist;
* **`keepFirst_eq_iff`**: two relations, one inside the other, keep the same elements exactly when
  no two elements are related by the coarser one alone.
-/

namespace KeepFirst

variable {α : Type*}

/-- Append to `acc` each element of `xs` to which nothing kept so far is related. -/
def keepFirst (r : α → α → Bool) (acc xs : List α) : List α :=
  xs.foldl (fun acc x => if acc.any (r · x) then acc else acc ++ [x]) acc

variable (r : α → α → Bool)

theorem keepFirst_append (acc xs ys : List α) :
    keepFirst r acc (xs ++ ys) = keepFirst r (keepFirst r acc xs) ys := List.foldl_append ..

theorem keepFirst_concat (acc xs : List α) (x : α) : keepFirst r acc (xs ++ [x]) =
    if (keepFirst r acc xs).any (r · x) then keepFirst r acc xs else keepFirst r acc xs ++ [x] :=
  keepFirst_append r acc xs [x]

variable {r}

theorem mem_keepFirst_of_mem {acc : List α} {k : α} (hk : k ∈ acc) (xs : List α) :
    k ∈ keepFirst r acc xs := by
  induction xs generalizing acc with
  | nil => exact hk
  | cons x xs ih =>
    rw [keepFirst, List.foldl_cons]
    split_ifs
    · exact ih hk
    · exact ih (List.mem_append_left _ hk)

theorem exists_keepFirst (acc : List α) {xs : List α} {x : α} (hx : x ∈ xs) :
    ∃ k ∈ keepFirst r acc xs, k = x ∨ r k x = true := by
  induction xs generalizing acc with
  | nil => cases hx
  | cons y xs ih =>
    rw [keepFirst, List.foldl_cons]
    rcases List.mem_cons.mp hx with rfl | hx
    · split_ifs with h
      · obtain ⟨k, hk, hr⟩ := List.any_eq_true.mp h
        exact ⟨k, mem_keepFirst_of_mem hk xs, Or.inr hr⟩
      · exact ⟨x, mem_keepFirst_of_mem (by simp) xs, Or.inl rfl⟩
    · exact ih _ hx

theorem mem_of_mem_keepFirst {acc xs : List α} {k : α} (hk : k ∈ keepFirst r acc xs) :
    k ∈ acc ∨ k ∈ xs := by
  induction xs generalizing acc with
  | nil => exact Or.inl hk
  | cons x xs ih =>
    rw [keepFirst, List.foldl_cons] at hk
    rcases ih hk with h | h
    · split_ifs at h
      · exact Or.inl h
      · rw [List.mem_append, List.mem_singleton] at h
        exact h.imp id fun h => by rw [h]; exact List.mem_cons_self
    · exact Or.inr (List.mem_cons_of_mem _ h)

theorem keepFirst_sublist_append (acc xs : List α) : (keepFirst r acc xs).Sublist (acc ++ xs) := by
  induction xs generalizing acc with
  | nil => exact List.sublist_append_left acc []
  | cons x xs ih =>
    rw [keepFirst, List.foldl_cons]
    split_ifs
    · exact (ih acc).trans (List.Sublist.append_left (List.sublist_cons_self x xs) acc)
    · have hrest := ih (acc ++ [x])
      rwa [← List.append_cons] at hrest

theorem keepFirst_pairwise {acc : List α} (hacc : acc.Pairwise fun a b => r a b = false)
    (xs : List α) : (keepFirst r acc xs).Pairwise fun a b => r a b = false := by
  induction xs generalizing acc with
  | nil => exact hacc
  | cons x xs ih =>
    rw [keepFirst, List.foldl_cons]
    split_ifs with h
    · exact ih hacc
    · refine ih (List.pairwise_append.mpr ⟨hacc, List.pairwise_singleton _ _, fun a ha b hb => ?_⟩)
      rw [List.mem_singleton.mp hb]
      rw [List.any_eq_true] at h
      exact Bool.eq_false_iff.mpr fun hr => h ⟨a, ha, hr⟩

theorem keepFirst_eq_self {acc xs : List α} (h : (acc ++ xs).Pairwise fun a b => r a b = false) :
    keepFirst r acc xs = acc ++ xs := by
  induction xs generalizing acc with
  | nil => simp [keepFirst]
  | cons x xs ih =>
    have hx : acc.any (r · x) = false := by
      rw [List.any_eq_false]
      intro a ha
      rw [(List.pairwise_append.mp h).2.2 a ha x List.mem_cons_self]
      exact Bool.false_ne_true
    rw [keepFirst, List.foldl_cons, hx]
    rw [List.append_cons] at h
    exact (ih h).trans (by simp)

theorem keepFirst_of_covered {acc xs : List α} (h : ∀ x ∈ xs, acc.any (r · x) = true) :
    keepFirst r acc xs = acc := by
  induction xs with
  | nil => rfl
  | cons x xs ih =>
    rw [keepFirst, List.foldl_cons, if_pos (h x List.mem_cons_self)]
    exact ih fun y hy => h y (List.mem_cons_of_mem _ hy)

theorem filter_keepFirst {p : α → Bool} (hp : ∀ a b, r a b = true → p a = p b) (acc xs : List α) :
    (keepFirst r acc xs).filter p = keepFirst r (acc.filter p) (xs.filter p) := by
  induction xs generalizing acc with
  | nil => rfl
  | cons x xs ih =>
    rw [keepFirst, List.foldl_cons]
    refine (ih _).trans ?_
    rw [List.filter_cons]
    by_cases hx : p x = true
    · have hany : (acc.filter p).any (r · x) = acc.any (r · x) := by
        rw [List.any_filter]
        congr 1
        funext a
        cases h : r a x
        · simp
        · simp [hp a x h, hx]
      rw [if_pos hx, keepFirst, keepFirst, List.foldl_cons, hany]
      split_ifs
      · rfl
      · simp [hx]
    · rw [if_neg hx]
      split_ifs
      · rfl
      · simp [hx]

theorem filter_keepFirst_class {p : α → Bool} (hp : ∀ a b, r a b = true → p a = p b)
    (hclass : ∀ a b, p a = true → p b = true → r a b = true) (xs : List α) :
    (keepFirst r [] xs).filter p = (xs.find? p).toList := by
  rw [filter_keepFirst hp, ← List.head?_filter]
  cases hxs : xs.filter p with
  | nil => rfl
  | cons a l =>
    have hmem : ∀ b ∈ a :: l, p b = true := fun b hb => (List.mem_filter.mp (hxs ▸ hb)).2
    have hcovered : ∀ b ∈ l, [a].any (r · b) = true := by
      intro b hb
      have hab := hclass a b (hmem a List.mem_cons_self) (hmem b (List.mem_cons_of_mem _ hb))
      simp [hab]
    exact keepFirst_of_covered hcovered

theorem map_keepFirst {β : Type*} (f : α → β) (s : β → β → Bool) (acc xs : List α) :
    (keepFirst (fun a b => s (f a) (f b)) acc xs).map f = keepFirst s (acc.map f) (xs.map f) := by
  induction xs generalizing acc with
  | nil => rfl
  | cons x xs ih =>
    rw [keepFirst, List.foldl_cons, List.map_cons, keepFirst, List.foldl_cons, List.any_map]
    refine (ih _).trans ?_
    change keepFirst s ((if acc.any (fun a => s (f a) (f x)) then acc else acc ++ [x]).map f) _ = _
    rw [apply_ite (List.map f), List.map_append]
    rfl

theorem eq_of_sublist_of_length {κ : Type*} [DecidableEq κ] (key : α → κ) {l m : List α}
    (h : l.Sublist m)
    (hlen : ∀ k, (m.filter (key · = k)).length ≤ (l.filter (key · = k)).length) : l = m := by
  induction h with
  | slnil => rfl
  | cons a h ih =>
    have hk := hlen (key a)
    have hle := (h.filter (key · = key a)).length_le
    rw [List.filter_cons_of_pos (by simp), List.length_cons] at hk
    omega
  | cons_cons a h ih =>
    congr 1
    refine ih fun k => ?_
    have hk := hlen k
    simp only [List.filter_cons] at hk
    split_ifs at hk
    · simpa using hk
    · exact hk

theorem eq_of_mem_keepFirst (hsym : ∀ a b, r a b = true → r b a = true) {xs : List α} {a b : α}
    (ha : a ∈ keepFirst r [] xs) (hb : b ∈ keepFirst r [] xs) (h : r a b = true) : a = b := by
  by_contra hne
  have : Std.Symm fun a b => r a b = false := ⟨fun a b hab => by
    rw [Bool.eq_false_iff] at hab ⊢
    exact fun hba => hab (hsym _ _ hba)⟩
  have hpair := keepFirst_pairwise (r := r) List.Pairwise.nil xs
  rw [hpair.forall ha hb hne] at h
  exact Bool.noConfusion h

section Coarser

variable {s : α → α → Bool} (hrs : ∀ a b, r a b = true → s a b = true)
  (str : ∀ a b c, s a b = true → s b c = true → s a c = true)

include hrs str in
theorem any_keepFirst_of_any {xs : List α} {x : α} (hx : (keepFirst r [] xs).any (r · x) = true) :
    (keepFirst s [] xs).any (s · x) = true := by
  obtain ⟨k, hk, hkx⟩ := List.any_eq_true.mp hx
  have hks := (mem_of_mem_keepFirst hk).resolve_left List.not_mem_nil
  obtain ⟨k', hk', hk'k⟩ := exists_keepFirst (r := s) [] hks
  refine List.any_eq_true.mpr ⟨k', hk', ?_⟩
  rcases hk'k with rfl | h
  · exact hrs _ _ hkx
  · exact str _ _ _ h (hrs _ _ hkx)

include hrs str in
theorem keepFirst_sublist (xs : List α) :
    (keepFirst s [] xs).Sublist (keepFirst r [] xs) := by
  induction xs using List.reverseRecOn with
  | nil => exact List.Sublist.slnil
  | append_singleton xs x ih =>
    rw [keepFirst_concat, keepFirst_concat]
    by_cases hx : (keepFirst r [] xs).any (r · x) = true
    · rw [if_pos hx, if_pos (any_keepFirst_of_any hrs str hx)]
      exact ih
    · rw [if_neg hx]
      split_ifs
      · exact ih.trans (List.sublist_append_left _ _)
      · exact ih.append (List.Sublist.refl _)

variable (hsym : ∀ a b, r a b = true → r b a = true)
  (htr : ∀ a b c, r a b = true → r b c = true → r a c = true)
  (sref : ∀ a, s a a = true) (ssym : ∀ a b, s a b = true → s b a = true)

include hrs str hsym htr sref ssym in
/-- **Two keys keep the same elements exactly when no two elements share the coarser one alone.** -/
theorem keepFirst_eq_iff (xs : List α) : keepFirst s [] xs = keepFirst r [] xs ↔
    xs.Pairwise fun a b => s a b = true → r a b = true := by
  induction xs using List.reverseRecOn with
  | nil => simp [keepFirst]
  | append_singleton xs x ih =>
    rw [keepFirst_concat, keepFirst_concat, List.pairwise_append]
    simp only [List.pairwise_singleton, List.mem_singleton, forall_eq, true_and]
    constructor
    · intro h
      -- the two keys agree on `xs` and on whether `x` is new
      have hagree : keepFirst s [] xs = keepFirst r [] xs ∧
          ((keepFirst s [] xs).any (s · x) = true → (keepFirst r [] xs).any (r · x) = true) := by
        by_cases hr : (keepFirst r [] xs).any (r · x) = true
        · rw [if_pos hr, if_pos (any_keepFirst_of_any hrs str hr)] at h
          exact ⟨h, fun _ => hr⟩
        · have hlen := congrArg List.length h
          have hle := (keepFirst_sublist hrs str xs).length_le
          rw [if_neg hr] at h hlen
          split_ifs at h hlen with hs
          · rw [List.length_append, List.length_singleton] at hlen; omega
          · exact ⟨List.append_cancel_right h, fun h' => absurd h' hs⟩
      obtain ⟨heq, hx⟩ := hagree
      refine ⟨ih.mp heq, fun a ha hax => ?_⟩
      obtain ⟨k, hk, hka⟩ := exists_keepFirst (r := r) [] ha
      have hska : s k a = true := hka.elim (fun h => h ▸ sref k) (hrs k a)
      have hskx : s k x = true := str _ _ _ hska hax
      obtain ⟨k', hk', hk'x⟩ := List.any_eq_true.mp
        (hx (List.any_eq_true.mpr ⟨k, heq ▸ hk, hskx⟩))
      -- the two kept elements share the coarser key, so they are one
      have hkk' : k = k' := eq_of_mem_keepFirst ssym (heq ▸ hk) (heq ▸ hk')
        (str _ _ _ hskx (ssym _ _ (hrs _ _ hk'x)))
      subst hkk'
      rcases hka with rfl | hka
      · exact hk'x
      · exact htr _ _ _ (hsym _ _ hka) hk'x
    · rintro ⟨hpw, hx⟩
      have heq := ih.mpr hpw
      have hany : (keepFirst s [] xs).any (s · x) = (keepFirst r [] xs).any (r · x) := by
        rw [heq, Bool.eq_iff_iff, List.any_eq_true, List.any_eq_true]
        constructor
        · rintro ⟨k, hk, hkx⟩
          exact ⟨k, hk, hx k ((mem_of_mem_keepFirst hk).resolve_left List.not_mem_nil) hkx⟩
        · rintro ⟨k, hk, hkx⟩
          exact ⟨k, hk, hrs _ _ hkx⟩
      rw [hany, heq]

end Coarser

end KeepFirst
