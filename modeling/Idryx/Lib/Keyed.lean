import Idryx.Lib.Loop
import Mathlib.Data.List.Nodup

/-!
# Keyed lists

Lists whose elements carry a key, updated by *upserts*: merge into the first element of the key, or
append a new one.

* `upsert`, `lookup`, with `lookup_upsert`, `keys_upsert`, `nodup_upsert`;
* `upserts`: a fold of upserts; **`lookup_upserts`**: the element at `k` is the fold of the merges of
  the reports of `k`, over the element before them or a fresh one;
* `forall₂_of_lookup`, `ext_of_lookup`: a list without repeated keys is its keys and what they look up.
-/

namespace Keyed

variable {α β κ : Type*} [DecidableEq κ] (key : α → κ)

/-- The first element of key `k`. -/
def lookup (k : κ) (xs : List α) : Option α := xs.find? fun a => key a = k

/-- Update the first element of key `k`, or append `ins`. -/
def upsert (k : κ) (ins : α) (upd : α → α) : List α → List α
  | [] => [ins]
  | a :: as => if key a = k then upd a :: as else a :: upsert k ins upd as

variable {key}

theorem lookup_key {k : κ} {xs : List α} {a : α} (h : lookup key k xs = some a) : key a = k := by
  simpa using List.find?_some h

theorem mem_of_lookup {k : κ} {xs : List α} {a : α} (h : lookup key k xs = some a) : a ∈ xs :=
  List.mem_of_find?_eq_some h

theorem lookup_eq_none {k : κ} {xs : List α} : lookup key k xs = none ↔ k ∉ xs.map key := by
  simp [lookup, List.find?_eq_none]

theorem lookup_cons (k : κ) (a : α) (xs : List α) :
    lookup key k (a :: xs) = if key a = k then some a else lookup key k xs := by
  simp only [lookup, List.find?_cons]
  split_ifs with h <;> simp [h]

theorem lookup_map (f : α → α) (hf : ∀ a, key (f a) = key a) (k : κ) (xs : List α) :
    lookup key k (xs.map f) = (lookup key k xs).map f := by
  unfold lookup
  rw [List.find?_map]
  congr 2
  funext a
  simp only [Function.comp, hf]

theorem lookup_graph {β : Type*} {k : κ} {ks : List κ} (h : k ∈ ks) (f : κ → β) :
    lookup Prod.fst k (ks.map fun j => (j, f j)) = some (k, f k) := by
  induction ks with
  | nil => cases h
  | cons j ks ih =>
    rw [List.map_cons, lookup_cons]
    by_cases hj : j = k
    · rw [if_pos hj, hj]
    · rw [if_neg hj, ih ((List.mem_cons.mp h).resolve_left (Ne.symm hj))]

theorem lookup_of_mem {xs : List α} (hn : (xs.map key).Nodup) {a : α} (ha : a ∈ xs) :
    lookup key (key a) xs = some a := by
  induction xs with
  | nil => cases ha
  | cons b xs ih =>
    rw [List.map_cons, List.nodup_cons] at hn
    rw [lookup_cons]
    rcases List.mem_cons.mp ha with rfl | ha
    · rw [if_pos rfl]
    · have hne : key b ≠ key a := fun e => hn.1 (e ▸ List.mem_map_of_mem ha)
      rw [if_neg hne, ih hn.2 ha]

omit [DecidableEq κ] in
theorem filter_filter_of_imp {p q : α → Bool} (h : ∀ a, p a = true → q a = true) (xs : List α) :
    (xs.filter q).filter p = xs.filter p := by
  rw [List.filter_filter]
  refine List.filter_congr fun a _ => ?_
  cases hp : p a with
  | false => rfl
  | true => rw [h a hp, Bool.and_self]

theorem filter_key_eq_nil {k : κ} {xs : List α} (h : lookup key k xs = none) :
    xs.filter (key · = k) = [] := by
  rw [lookup_eq_none] at h
  rw [List.filter_eq_nil_iff]
  intro a ha hk
  exact h (of_decide_eq_true hk ▸ List.mem_map_of_mem ha)

theorem filter_key_eq_singleton {k : κ} {xs : List α} (hn : (xs.map key).Nodup) {a : α}
    (h : lookup key k xs = some a) : xs.filter (key · = k) = [a] := by
  induction xs with
  | nil => cases h
  | cons b xs ih =>
    rw [List.map_cons, List.nodup_cons] at hn
    rw [lookup_cons] at h
    by_cases hb : key b = k
    · rw [if_pos hb, Option.some.injEq] at h
      subst h
      have hnil : xs.filter (key · = k) = [] := filter_key_eq_nil (lookup_eq_none.mpr (hb ▸ hn.1))
      rw [List.filter_cons, if_pos (decide_eq_true hb), hnil]
    · rw [if_neg hb] at h
      rw [List.filter_cons, if_neg (by simpa using hb), ih hn.2 h]

theorem lookup_perm {xs ys : List α} (h : xs.Perm ys) (hn : (xs.map key).Nodup) (k : κ) :
    lookup key k xs = lookup key k ys := by
  cases hl : lookup key k xs with
  | none =>
    rw [lookup_eq_none] at hl
    rw [eq_comm, lookup_eq_none, ← (h.map key).mem_iff]
    exact hl
  | some a =>
    have hn' : (ys.map key).Nodup := (h.map key).nodup_iff.mp hn
    rw [← lookup_key hl, lookup_of_mem hn' (h.mem_iff.mp (mem_of_lookup hl))]

/-- **Lists with distinct keys that look up alike** are the same up to order. -/
theorem perm_of_lookup {xs ys : List α} (hx : (xs.map key).Nodup) (hy : (ys.map key).Nodup)
    (h : ∀ k, lookup key k xs = lookup key k ys) : xs.Perm ys := by
  refine (List.perm_ext_iff_of_nodup hx.of_map hy.of_map).mpr fun a => ?_
  constructor
  · intro ha
    exact mem_of_lookup ((h (key a)).symm.trans (lookup_of_mem hx ha))
  · intro ha
    exact mem_of_lookup ((h (key a)).trans (lookup_of_mem hy ha))

section Upsert

variable {k : κ} {ins : α} {upd : α → α}

theorem upsert_of_not_mem {xs : List α} (h : ∀ a ∈ xs, key a ≠ k) :
    upsert key k ins upd xs = xs ++ [ins] := by
  induction xs with
  | nil => rfl
  | cons a xs ih =>
    rw [List.forall_mem_cons] at h
    rw [upsert, if_neg h.1, ih h.2, List.cons_append]

theorem upsert_append {xs ys : List α} {a : α} (h : ∀ b ∈ xs, key b ≠ k) (ha : key a = k) :
    upsert key k ins upd (xs ++ a :: ys) = xs ++ upd a :: ys := by
  induction xs with
  | nil => rw [List.nil_append, upsert, if_pos ha, List.nil_append]
  | cons b xs ih =>
    rw [List.forall_mem_cons] at h
    rw [List.cons_append, upsert, if_neg h.1, ih h.2, List.cons_append]

theorem lookup_upsert_self (hi : key ins = k) (hu : ∀ a, key a = k → key (upd a) = k) (xs : List α) :
    lookup key k (upsert key k ins upd xs) = some ((lookup key k xs).elim ins upd) := by
  induction xs with
  | nil => simp [upsert, hi, lookup]
  | cons a xs ih =>
    by_cases h : key a = k
    · simp [upsert, lookup_cons, h, hu a h]
    · simp only [upsert, if_neg h, lookup_cons, ih]

theorem lookup_upsert_ne (hi : key ins = k) (hu : ∀ a, key a = k → key (upd a) = k) {j : κ}
    (hj : j ≠ k) (xs : List α) : lookup key j (upsert key k ins upd xs) = lookup key j xs := by
  induction xs with
  | nil => simp [upsert, lookup_cons, hi, Ne.symm hj]
  | cons a xs ih =>
    by_cases h : key a = k
    · simp [upsert, lookup_cons, h, hu a h, Ne.symm hj]
    · simp only [upsert, if_neg h, lookup_cons, ih]

theorem lookup_put (hi : key ins = k) (xs : List α) :
    lookup key k (upsert key k ins (fun _ => ins) xs) = some ins := by
  rw [lookup_upsert_self hi fun _ _ => hi]
  cases lookup key k xs <;> rfl

theorem keys_upsert (hi : key ins = k) (hu : ∀ a, key a = k → key (upd a) = k) (xs : List α) :
    (upsert key k ins upd xs).map key =
      if k ∈ xs.map key then xs.map key else xs.map key ++ [k] := by
  induction xs with
  | nil => simp [upsert, hi]
  | cons a xs ih =>
    by_cases h : key a = k
    · simp [upsert, h, hu a h]
    · simp only [upsert, if_neg h, List.map_cons, ih, List.mem_cons, Ne.symm h, false_or]
      split_ifs <;> rfl

theorem mem_keys_upsert (hi : key ins = k) (hu : ∀ a, key a = k → key (upd a) = k) {j : κ}
    {xs : List α} : j ∈ (upsert key k ins upd xs).map key ↔ j ∈ xs.map key ∨ j = k := by
  rw [keys_upsert hi hu]
  split_ifs with h
  · constructor
    · exact Or.inl
    · rintro (hj | rfl)
      · exact hj
      · exact h
  · rw [List.mem_append, List.mem_singleton]

theorem forall_mem_upsert {P : α → Prop} (hins : P ins) (hupd : ∀ a, P a → P (upd a))
    {xs : List α} (h : ∀ a ∈ xs, P a) : ∀ a ∈ upsert key k ins upd xs, P a := by
  induction xs with
  | nil =>
    intro a ha
    rw [List.mem_singleton.mp ha]
    exact hins
  | cons b xs ih =>
    have hb : P b := h b List.mem_cons_self
    have hxs : ∀ a ∈ xs, P a := fun a ha => h a (List.mem_cons_of_mem _ ha)
    intro a ha
    rw [upsert] at ha
    split_ifs at ha with hk
    · rcases List.mem_cons.mp ha with rfl | ha
      · exact hupd b hb
      · exact hxs a ha
    · rcases List.mem_cons.mp ha with rfl | ha
      · exact hb
      · exact ih hxs a ha

theorem nodup_upsert (hi : key ins = k) (hu : ∀ a, key a = k → key (upd a) = k) {xs : List α}
    (hn : (xs.map key).Nodup) : ((upsert key k ins upd xs).map key).Nodup := by
  rw [keys_upsert hi hu]
  split_ifs with h
  · exact hn
  · rw [List.nodup_append]
    refine ⟨hn, List.nodup_singleton _, fun a ha b hb => ?_⟩
    rw [List.mem_singleton.mp hb]
    exact fun e => h (e ▸ ha)

theorem map_upsert {g : α → α} {ins' : α} {upd' : α → α} (hg : ∀ a, key (g a) = key a)
    (hi : g ins = ins') (hu : ∀ a, g (upd a) = upd' (g a)) (xs : List α) :
    (upsert key k ins upd xs).map g = upsert key k ins' upd' (xs.map g) := by
  induction xs with
  | nil => rw [upsert, List.map_cons, hi]; rfl
  | cons a xs ih =>
    rw [upsert, List.map_cons, upsert, hg]
    split_ifs
    · rw [List.map_cons, hu]
    · rw [List.map_cons, ih]

theorem upsert_of_mem {xs : List α} (hn : (xs.map key).Nodup) (hk : k ∈ xs.map key) :
    upsert key k ins upd xs = xs.map fun a => if key a = k then upd a else a := by
  induction xs with
  | nil => cases hk
  | cons a xs ih =>
    rw [List.map_cons, List.nodup_cons] at hn
    rw [upsert, List.map_cons]
    split_ifs with h
    · have hrest : ∀ b ∈ xs, (if key b = k then upd b else b) = b := by
        intro b hb
        refine if_neg fun hkey => hn.1 ?_
        rw [h, ← hkey]
        exact List.mem_map_of_mem hb
      rw [List.map_congr_left hrest, List.map_id']
    · rw [ih hn.2 ((List.mem_cons.mp hk).resolve_left fun hkey => h hkey.symm)]

theorem filter_upsert {p : α → Bool} (hp : p ins = true)
    (hk : ∀ a, key a = k → p a = true ∧ p (upd a) = true) (xs : List α) :
    (upsert key k ins upd xs).filter p = upsert key k ins upd (xs.filter p) := by
  induction xs with
  | nil => simp [upsert, hp]
  | cons a xs ih =>
    by_cases h : key a = k
    · simp [upsert, h, (hk a h).1, (hk a h).2]
    · rw [upsert, if_neg h, List.filter_cons, List.filter_cons, ih]
      split_ifs
      · rw [upsert, if_neg h]
      · rfl

theorem filter_upsert_not {p : α → Bool} (hp : p ins = false)
    (hk : ∀ a, key a = k → p a = false ∧ p (upd a) = false) (xs : List α) :
    (upsert key k ins upd xs).filter p = xs.filter p := by
  induction xs with
  | nil => simp [upsert, hp]
  | cons a xs ih =>
    by_cases h : key a = k
    · simp [upsert, h, (hk a h).1, (hk a h).2]
    · rw [upsert, if_neg h, List.filter_cons, List.filter_cons, ih]

end Upsert

theorem forall₂_upsert {γ : Type*} {key' : γ → κ} {R : α → γ → Prop} {k : κ} {ins : α} {ins' : γ}
    {upd : α → α} {upd' : γ → γ} (hk : ∀ a b, R a b → key a = key' b) (hi : R ins ins')
    (hu : ∀ a b, R a b → R (upd a) (upd' b)) {xs : List α} {ys : List γ}
    (h : List.Forall₂ R xs ys) :
    List.Forall₂ R (upsert key k ins upd xs) (upsert key' k ins' upd' ys) := by
  induction h with
  | nil => exact List.Forall₂.cons hi List.Forall₂.nil
  | @cons a b xs ys hab hxs ih =>
    rw [upsert, upsert, hk a b hab]
    split_ifs
    · exact List.Forall₂.cons (hu a b hab) hxs
    · exact List.Forall₂.cons hab ih

theorem lookup_forall₂ {γ : Type*} {key' : γ → κ} {R : α → γ → Prop} (k : κ)
    (hk : ∀ a b, R a b → key a = key' b) {xs : List α} {ys : List γ} (h : List.Forall₂ R xs ys) :
    Option.Rel R (lookup key k xs) (lookup key' k ys) := by
  induction h with
  | nil => exact Option.Rel.none
  | @cons a b xs ys hab hxs ih =>
    rw [lookup_cons, lookup_cons, hk a b hab]
    split_ifs
    · exact Option.Rel.some hab
    · exact ih

theorem forall₂_of_lookup {γ : Type*} {key' : γ → κ} {R : α → γ → Prop} {xs : List α} {ys : List γ}
    (hn : (xs.map key).Nodup) (hk : xs.map key = ys.map key')
    (h : ∀ k a b, lookup key k xs = some a → lookup key' k ys = some b → R a b) :
    List.Forall₂ R xs ys := by
  induction xs generalizing ys with
  | nil =>
    cases ys with
    | nil => exact List.Forall₂.nil
    | cons b ys => cases hk
  | cons a xs ih =>
    cases ys with
    | nil => cases hk
    | cons b ys =>
      rw [List.map_cons, List.map_cons, List.cons.injEq] at hk
      rw [List.map_cons, List.nodup_cons] at hn
      refine List.Forall₂.cons (h (key a) a b ?_ ?_) (ih hn.2 hk.2 fun k a' b' ha hb => ?_)
      · rw [lookup_cons, if_pos rfl]
      · rw [lookup_cons, if_pos hk.1.symm]
      · have hmem : k ∈ xs.map key := by
          rw [← lookup_key ha]
          exact List.mem_map_of_mem (mem_of_lookup ha)
        have hne : key a ≠ k := fun e => hn.1 (e ▸ hmem)
        refine h k a' b' ?_ ?_
        · rw [lookup_cons, if_neg hne]
          exact ha
        · rw [lookup_cons, if_neg (hk.1 ▸ hne)]
          exact hb

/-- **Distinct keys and what they look up determine the list.** -/
theorem ext_of_lookup {xs ys : List α} (hn : (xs.map key).Nodup) (hk : xs.map key = ys.map key)
    (h : ∀ k ∈ xs.map key, lookup key k xs = lookup key k ys) : xs = ys := by
  rw [← List.forall₂_eq_eq_eq]
  refine forall₂_of_lookup hn hk fun k a b ha hb => ?_
  have hmem : k ∈ xs.map key := by
    rw [← lookup_key ha]
    exact List.mem_map_of_mem (mem_of_lookup ha)
  rw [h k hmem, hb, Option.some.injEq] at ha
  exact ha.symm

/-! ## Folds of upserts -/

section Fold

variable (key) (kb : β → κ) (ins : β → α) (upd : α → β → α)

/-- Upsert every report of `bs` in order. -/
def upserts (xs : List α) (bs : List β) : List α :=
  bs.foldl (fun xs b => upsert key (kb b) (ins b) (upd · b) xs) xs

/-- The reports of key `k`, in order. -/
def reports (k : κ) (bs : List β) : List β := bs.filter fun b => kb b = k

variable {kb ins upd}

theorem mem_reports {k : κ} {bs : List β} {b : β} : b ∈ reports kb k bs ↔ b ∈ bs ∧ kb b = k := by
  simp [reports]

theorem reports_cons (k : κ) (b : β) (bs : List β) :
    reports kb k (b :: bs) = if kb b = k then b :: reports kb k bs else reports kb k bs := by
  simp [reports, List.filter_cons]

variable {key}

variable (hi : ∀ b, key (ins b) = kb b) (hu : ∀ a b, key a = kb b → key (upd a b) = kb b)

include hi hu in
theorem keys_upserts_of_subset {xs : List α} {bs : List β} (h : ∀ b ∈ bs, kb b ∈ xs.map key) :
    (upserts key kb ins upd xs bs).map key = xs.map key := by
  induction bs generalizing xs with
  | nil => rfl
  | cons b bs ih =>
    have hk : (upsert key (kb b) (ins b) (upd · b) xs).map key = xs.map key := by
      rw [keys_upsert (hi b) (fun a ha => hu a b ha), if_pos (h b List.mem_cons_self)]
    rw [upserts, List.foldl_cons]
    exact (ih (fun b' hb' => hk ▸ h b' (List.mem_cons_of_mem _ hb'))).trans hk

include hi hu in
theorem nodup_upserts {xs : List α} (hn : (xs.map key).Nodup) (bs : List β) :
    ((upserts key kb ins upd xs bs).map key).Nodup :=
  List.foldlRecOn (motive := fun xs : List α => (xs.map key).Nodup) bs _ hn
    fun _ h b _ => nodup_upsert (hi b) (fun a ha => hu a b ha) h

include hi hu in
/-- **What a fold of upserts stores under `k`** depends on the reports of `k` alone. -/
theorem lookup_upserts (k : κ) (xs : List α) (bs : List β) :
    lookup key k (upserts key kb ins upd xs bs) =
      (reports kb k bs).foldl (fun o b => some (o.elim (ins b) (upd · b))) (lookup key k xs) := by
  induction bs generalizing xs with
  | nil => rfl
  | cons b bs ih =>
    have hu' : ∀ a, key a = kb b → key (upd a b) = kb b := fun a ha => hu a b ha
    rw [upserts, List.foldl_cons]
    refine (ih _).trans ?_
    rw [reports_cons]
    by_cases hb : kb b = k
    · subst hb
      rw [if_pos rfl, lookup_upsert_self (hi b) hu', List.foldl_cons]
    · rw [if_neg hb, lookup_upsert_ne (hi b) hu' (Ne.symm hb)]

theorem foldl_some (bs : List β) (a : α) :
    bs.foldl (fun o b => some (o.elim (ins b) (upd · b))) (some a) = some (bs.foldl upd a) := by
  induction bs generalizing a with
  | nil => rfl
  | cons b bs ih => rw [List.foldl_cons, List.foldl_cons, Option.elim_some, ih]

include hi hu in
theorem lookup_upserts_some {k : κ} {xs : List α} {a : α} (h : lookup key k xs = some a)
    (bs : List β) : lookup key k (upserts key kb ins upd xs bs) =
      some ((reports kb k bs).foldl upd a) := by
  rw [lookup_upserts hi hu, h, foldl_some]

include hi hu in
theorem lookup_upserts_fresh {k : κ} {fresh : α} (hf : ∀ b, kb b = k → ins b = upd fresh b)
    (xs : List α) {bs : List β} (hb : reports kb k bs ≠ []) :
    lookup key k (upserts key kb ins upd xs bs) =
      some ((reports kb k bs).foldl upd ((lookup key k xs).getD fresh)) := by
  rw [lookup_upserts hi hu]
  cases hl : lookup key k xs with
  | some a => rw [foldl_some]; rfl
  | none =>
    obtain ⟨b, rest, hr⟩ := List.exists_cons_of_ne_nil hb
    have hbk : kb b = k := (mem_reports.mp (hr ▸ List.mem_cons_self)).2
    rw [hr, List.foldl_cons, Option.elim_none, foldl_some, Option.getD_none, List.foldl_cons,
      hf b hbk]

end Fold

end Keyed
