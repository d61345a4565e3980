import Mathlib.Data.List.Sort

/-!
# Stable sorting

`List.insertionSort` is stable. Here: it commutes with filtering (`filter_insertionSort`), so each
part of a list is sorted where the whole is; orders that agree on each element and the later ones
sort alike (`insertionSort_congr`), so a tie broken by position needs no tie-breaking; a list that is
sorted by a key is determined by its parts of one key each (`eq_of_filter_eq`); without ties the order
before sorting is forgotten (`insertionSort_perm`); and a search of a sorted list stops at the least
element it can stop at (`findSome?_eq_some_iff`).
-/

namespace StableSort

variable {α : Type*} (r : α → α → Prop) [DecidableRel r] [IsTrans α r] [Std.Total r]

omit [IsTrans α r] [Std.Total r] in
theorem orderedInsert_of_forall {a : α} {l : List α} (h : ∀ b ∈ l, r a b) :
    l.orderedInsert r a = a :: l := by
  cases l with
  | nil => rfl
  | cons b l => exact List.orderedInsert_cons_of_le r l (h b List.mem_cons_self)

omit [Std.Total r] in
theorem filter_orderedInsert (p : α → Bool) (a : α) {l : List α} (hl : l.Pairwise r) :
    (l.orderedInsert r a).filter p =
      if p a then (l.filter p).orderedInsert r a else l.filter p := by
  induction l with
  | nil => simp [List.filter_cons]
  | cons b l ih =>
    rw [List.pairwise_cons] at hl
    rw [List.orderedInsert_cons]
    by_cases hab : r a b
    · have hall : ∀ c ∈ (b :: l).filter p, r a c := by
        intro c hc
        rcases List.mem_cons.mp (List.mem_filter.mp hc).1 with rfl | hc
        · exact hab
        · exact trans_of r hab (hl.1 c hc)
      rw [if_pos hab, List.filter_cons, orderedInsert_of_forall r hall]
    · rw [if_neg hab, List.filter_cons, ih hl.2, List.filter_cons]
      split_ifs with hb ha
      · rw [List.orderedInsert_cons, if_neg hab]
      · rfl
      · rfl
      · rfl

/-- **Sorting commutes with filtering.** -/
theorem filter_insertionSort (p : α → Bool) (l : List α) :
    (l.insertionSort r).filter p = (l.filter p).insertionSort r := by
  induction l with
  | nil => rfl
  | cons a l ih =>
    rw [List.insertionSort_cons, filter_orderedInsert r p a (List.pairwise_insertionSort r l), ih,
      List.filter_cons]
    split_ifs <;> rfl

theorem filter_insertionSort_of_pairwise {p : α → Bool} {l : List α} (h : (l.filter p).Pairwise r) :
    (l.insertionSort r).filter p = l.filter p := by
  rw [filter_insertionSort, List.Pairwise.insertionSort_eq h]

theorem sublist_insertionSort_append (l m : List α) : (l.insertionSort r).Sublist ((l ++ m).insertionSort r) := by
  induction l with
  | nil => exact List.nil_sublist _
  | cons a l ih => exact ih.orderedInsert_sublist a (List.pairwise_insertionSort r (l ++ m))

/-! ## Orders by several keys -/

section OrderBy

variable {κ : Type*} [LT κ] (key : α → κ)

/-- In the order of `key`, and where it agrees in the order of `r`. -/
def orderBy (a b : α) : Prop := key a < key b ∨ key a = key b ∧ r a b

instance [DecidableEq κ] [DecidableLT κ] : DecidableRel (orderBy r key) :=
  fun _ _ => inferInstanceAs (Decidable (_ ∨ _))

instance [IsTrans κ (· < ·)] : IsTrans α (orderBy r key) where
  trans a b c hab hbc := by
    rcases hab with hab | ⟨hab, rab⟩
    · rcases hbc with hbc | ⟨hbc, -⟩
      · exact Or.inl (IsTrans.trans (r := (· < ·)) _ _ _ hab hbc)
      · exact Or.inl (hbc ▸ hab)
    · rcases hbc with hbc | ⟨hbc, rbc⟩
      · exact Or.inl (hab ▸ hbc)
      · exact Or.inr ⟨hab.trans hbc, trans_of r rab rbc⟩

instance [Std.Trichotomous (α := κ) (· < ·)] : Std.Total (orderBy r key) where
  total a b := by
    by_cases hab : key a < key b
    · exact Or.inl (Or.inl hab)
    · by_cases hba : key b < key a
      · exact Or.inr (Or.inl hba)
      · have heq := Std.Trichotomous.trichotomous (r := (· < ·)) _ _ hab hba
        exact (Std.Total.total (r := r) a b).imp (fun h => Or.inr ⟨heq, h⟩)
          fun h => Or.inr ⟨heq.symm, h⟩

end OrderBy

/-! ## Two orders that agree -/

section Congr

variable {r} {s : α → α → Prop} [DecidableRel s]

omit [IsTrans α r] [Std.Total r] in
theorem orderedInsert_congr {a : α} {l : List α} (h : ∀ b ∈ l, r a b ↔ s a b) :
    l.orderedInsert r a = l.orderedInsert s a := by
  induction l with
  | nil => rfl
  | cons b l ih =>
    rw [List.orderedInsert_cons, List.orderedInsert_cons, ih fun c hc => h c (List.mem_cons_of_mem _ hc)]
    exact if_congr (h b List.mem_cons_self) rfl rfl

omit [IsTrans α r] [Std.Total r] in
theorem insertionSort_congr {l : List α} (h : l.Pairwise fun a b => r a b ↔ s a b) :
    l.insertionSort r = l.insertionSort s := by
  induction l with
  | nil => rfl
  | cons a l ih =>
    rw [List.pairwise_cons] at h
    rw [List.insertionSort_cons, List.insertionSort_cons, ih h.2]
    refine orderedInsert_congr fun b hb => h.1 b ?_
    rwa [List.mem_insertionSort] at hb

end Congr

/-! ## Sorted by a key -/

/-- **A list sorted by a key is determined by its parts of one key each.** -/
theorem eq_of_filter_eq {κ : Type*} [DecidableEq κ] [LE κ] [Std.Refl (α := κ) (· ≤ ·)]
    [Std.Antisymm (α := κ) (· ≤ ·)] (key : α → κ) {l m : List α}
    (hl : l.Pairwise fun a b => key a ≤ key b) (hm : m.Pairwise fun a b => key a ≤ key b)
    (h : ∀ k, l.filter (fun a => key a = k) = m.filter fun a => key a = k) : l = m := by
  have hmem : ∀ a, a ∈ l ↔ a ∈ m := by
    intro a
    have ha := congrArg (a ∈ ·) (h (key a))
    simpa [List.mem_filter] using ha
  induction l generalizing m with
  | nil =>
    rw [eq_comm, List.eq_nil_iff_forall_not_mem]
    exact fun a ha => List.not_mem_nil ((hmem a).mpr ha)
  | cons a l ih =>
    cases m with
    | nil => exact absurd ((hmem a).mp List.mem_cons_self) List.not_mem_nil
    | cons b m =>
      rw [List.pairwise_cons] at hl hm
      -- both heads carry the least key
      have hab : key a = key b := by
        apply Std.Antisymm.antisymm (r := ((· ≤ ·) : κ → κ → Prop))
        · rcases List.mem_cons.mp ((hmem b).mpr List.mem_cons_self) with rfl | hb
          · exact Std.Refl.refl (r := ((· ≤ ·) : κ → κ → Prop)) _
          · exact hl.1 b hb
        · rcases List.mem_cons.mp ((hmem a).mp List.mem_cons_self) with rfl | ha
          · exact Std.Refl.refl (r := ((· ≤ ·) : κ → κ → Prop)) _
          · exact hm.1 a ha
      have hhead := h (key a)
      rw [List.filter_cons_of_pos (by simp), List.filter_cons_of_pos (by simp [hab]),
        List.cons.injEq] at hhead
      obtain ⟨rfl, -⟩ := hhead
      have htail : ∀ k, l.filter (fun c => key c = k) = m.filter fun c => key c = k := by
        intro k
        have hk := h k
        rw [List.filter_cons, List.filter_cons] at hk
        split_ifs at hk
        · exact (List.cons.injEq .. ▸ hk).2
        · exact hk
      congr 1
      refine ih hl.2 hm.2 htail fun c => ?_
      have hc := congrArg (c ∈ ·) (htail (key c))
      simpa [List.mem_filter] using hc

/-- **Sorting forgets the order of a list** without ties. -/
theorem insertionSort_perm {l m : List α} (h : l.Perm m)
    (hties : ∀ a ∈ l, ∀ b ∈ l, r a b → r b a → a = b) : l.insertionSort r = m.insertionSort r := by
  have hperm : (l.insertionSort r).Perm (m.insertionSort r) :=
    (List.perm_insertionSort r l).trans (h.trans (List.perm_insertionSort r m).symm)
  refine hperm.eq_of_pairwise ?_ (List.pairwise_insertionSort r l) (List.pairwise_insertionSort r m)
  intro a b ha hb
  rw [List.mem_insertionSort] at ha hb
  exact hties a ha b (h.mem_iff.mpr hb)

omit [DecidableRel r] [IsTrans α r] [Std.Total r] in
theorem insertionSort_perm_key {κ : Type*} [LE κ] [DecidableLE κ] [Std.Total (α := κ) (· ≤ ·)]
    [IsTrans κ (· ≤ ·)] [Std.Antisymm (α := κ) (· ≤ ·)] (key : α → κ) {l m : List α} (h : l.Perm m)
    (hn : (l.map key).Nodup) : l.insertionSort (fun a b => key a ≤ key b) =
      m.insertionSort fun a b => key a ≤ key b := by
  have htotal : Std.Total fun a b => key a ≤ key b := ⟨fun a b => Std.Total.total (key a) (key b)⟩
  have htrans : IsTrans α fun a b => key a ≤ key b := ⟨fun _ _ _ => trans_of (· ≤ ·)⟩
  refine insertionSort_perm _ h fun a ha b hb hab hba => ?_
  exact List.inj_on_of_nodup_map hn ha hb (antisymm_of (· ≤ ·) hab hba)

omit [DecidableRel r] [IsTrans α r] in
theorem findSome?_eq_some_iff [Std.Antisymm r] {β : Type*} {f : α → Option β} {b : β} {l : List α}
    (hl : l.Pairwise r) : l.findSome? f = some b ↔
      ∃ a ∈ l, f a = some b ∧ ∀ a' ∈ l, (f a').isSome = true → r a a' := by
  have hfirst : ∀ {b}, l.findSome? f = some b →
      ∃ a ∈ l, f a = some b ∧ ∀ a' ∈ l, (f a').isSome = true → r a a' := by
    intro b h
    obtain ⟨l₁, a, l₂, rfl, ha, hnone⟩ := List.findSome?_eq_some_iff.mp h
    refine ⟨a, by simp, ha, fun a' ha' hsome => ?_⟩
    rcases List.mem_append.mp ha' with hbefore | hafter
    · rw [hnone a' hbefore] at hsome
      cases hsome
    · rcases List.mem_cons.mp hafter with rfl | hlater
      · exact refl_of r a'
      · exact List.rel_of_pairwise_cons (List.pairwise_append.mp hl).2.1 hlater
  refine ⟨hfirst, ?_⟩
  rintro ⟨a, ha, hfa, hleast⟩
  have hsome : (l.findSome? f).isSome = true :=
    List.findSome?_isSome_iff.mpr ⟨a, ha, by rw [hfa]; rfl⟩
  obtain ⟨b', hb'⟩ := Option.isSome_iff_exists.mp hsome
  obtain ⟨c, hc, hfc, hleast'⟩ := hfirst hb'
  have hac : a = c := antisymm_of r (hleast c hc (by rw [hfc]; rfl)) (hleast' a ha (by rw [hfa]; rfl))
  rw [hb', ← hfc, ← hac, hfa]

end StableSort
