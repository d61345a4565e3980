import Idryx.Lib.Keyed

/-!
# Replaying a fold

`Replays m bs`: folding `bs` with `m` a second time changes nothing. One merge rule at a time:

* `replays_overwrite`: the last report wins;
* `replays_absorb`: a report once folded in is absorbed from then on;
* `replays_or`, `replays_fixed`, and `Replays.project` for the fields of a record;
* **`replays_upserts`**: a keyed list replays where the reports of each key do.
-/

namespace Replay

variable {σ τ β : Type*}

/-- Folding `bs` twice is folding it once. -/
def Replays (m : σ → β → σ) (bs : List β) : Prop :=
  ∀ x, bs.foldl m (bs.foldl m x) = bs.foldl m x

theorem foldl_overwrite (p : β → Prop) [DecidablePred p] (f : β → σ) (bs : List β) :
    (∀ x, bs.foldl (fun x b => if p b then f b else x) x = x) ∨
      ∃ y, ∀ x, bs.foldl (fun x b => if p b then f b else x) x = y := by
  induction bs with
  | nil => exact Or.inl fun _ => rfl
  | cons b bs ih =>
    rcases ih with ih | ⟨y, ih⟩
    · by_cases hb : p b
      · exact Or.inr ⟨f b, fun x => by rw [List.foldl_cons, if_pos hb, ih]⟩
      · exact Or.inl fun x => by rw [List.foldl_cons, if_neg hb, ih]
    · exact Or.inr ⟨y, fun x => ih _⟩

theorem overwrite_comm {p : β → Prop} [DecidablePred p] {f : β → σ} {b c : β} (h : p b → p c → f b = f c) (x : σ) :
    (if p c then f c else if p b then f b else x) = if p b then f b else if p c then f c else x := by
  by_cases hb : p b
  · by_cases hc : p c
    · rw [if_pos hc, if_pos hb, h hb hc]
    · rw [if_neg hc, if_pos hb, if_pos hb]
  · rw [if_neg hb, if_neg hb]

theorem replays_overwrite (p : β → Prop) [DecidablePred p] (f : β → σ) (bs : List β) :
    Replays (fun x b => if p b then f b else x) bs := by
  intro x
  rcases foldl_overwrite p f bs with h | ⟨y, h⟩
  · rw [h, h]
  · rw [h, h]

section Absorb

variable {m : σ → β → σ} {A : σ → β → Prop}

theorem absorbed_foldl (hk : ∀ x b c, A x b → A (m x c) b) {b : β} :
    ∀ (bs : List β) {x : σ}, A x b → A (bs.foldl m x) b
  | [], _, h => h
  | c :: bs, _, h => absorbed_foldl hk bs (hk _ _ c h)

theorem absorbed_of_mem (ha : ∀ x b, A (m x b) b) (hk : ∀ x b c, A x b → A (m x c) b) {b : β} :
    ∀ {bs : List β} (x : σ), b ∈ bs → A (bs.foldl m x) b
  | c :: bs, x, h => by
    rcases List.mem_cons.mp h with rfl | hb
    · exact absorbed_foldl hk bs (ha x b)
    · exact absorbed_of_mem ha hk (m x c) hb

theorem foldl_of_absorbed (hi : ∀ x b, A x b → m x b = x) :
    ∀ {bs : List β} {x : σ}, (∀ b ∈ bs, A x b) → bs.foldl m x = x
  | [], _, _ => rfl
  | b :: bs, x, h => by
    rw [List.foldl_cons, hi x b (h b List.mem_cons_self)]
    exact foldl_of_absorbed hi fun c hc => h c (List.mem_cons_of_mem _ hc)

/-- A fold replays when `A x b`, that `x` holds all `b` reports, is reached by folding `b` in, is
kept, and makes folding `b` in again do nothing. -/
theorem replays_absorb (ha : ∀ x b, A (m x b) b) (hk : ∀ x b c, A x b → A (m x c) b)
    (hi : ∀ x b, A x b → m x b = x) (bs : List β) : Replays m bs :=
  fun x => foldl_of_absorbed hi fun _ hb => absorbed_of_mem ha hk x hb

end Absorb

theorem Replays.project {m' : τ → β → τ} {bs : List β} (h : Replays m' bs) (m : σ → β → σ)
    (π : σ → τ) (hπ : ∀ x b, m' (π x) b = π (m x b)) (x : σ) :
    π (bs.foldl m (bs.foldl m x)) = π (bs.foldl m x) := by
  rw [← List.foldl_hom π hπ, ← List.foldl_hom π hπ]
  exact h (π x)

theorem Replays.comap {γ : Type*} {m : σ → γ → σ} (f : β → γ) {bs : List β}
    (h : Replays m (bs.map f)) : Replays (fun x b => m x (f b)) bs := by
  intro x
  have hx := h x
  rw [List.foldl_map, List.foldl_map] at hx
  exact hx

theorem replays_fixed (bs : List β) : Replays (fun (x : σ) _ => x) bs := by
  intro x
  rw [List.foldl_fixed, List.foldl_fixed]

theorem replays_or (bs : List Bool) : Replays or bs := by
  refine replays_absorb (A := fun x b => b = true → x = true) ?_ ?_ ?_ bs
  · intro x b hb
    rw [hb, Bool.or_true]
  · intro x b c h hb
    rw [h hb, Bool.true_or]
  · intro x b h
    cases b with
    | false => exact Bool.or_false x
    | true => rw [h rfl, Bool.or_true]

/-! ## Keyed lists -/

section Upserts

open Keyed

variable {α κ : Type*} [DecidableEq κ] {key : α → κ} {kb : β → κ} {ins : β → α} {upd : α → β → α}

theorem reports_filter_ne (k j : κ) (bs : List β) :
    reports kb k (bs.filter fun b => ¬ kb b = j) = if k = j then [] else reports kb k bs := by
  rw [reports, List.filter_filter]
  split_ifs with h
  · rw [List.filter_eq_nil_iff]
    simp [h]
  · rw [reports]
    congr 1
    funext b
    by_cases hb : kb b = k
    · simp [hb, h]
    · simp [hb]

theorem replays_filter_ne (h : ∀ k, Replays upd (reports kb k bs)) (j k : κ) :
    Replays upd (reports kb k (bs.filter fun b => ¬ kb b = j)) := by
  rw [reports_filter_ne]
  split_ifs
  · exact fun _ => rfl
  · exact h k

variable (hu : ∀ a b, key (upd a b) = key a)

omit [DecidableEq κ] in
include hu in
theorem key_foldl (a : α) (bs : List β) : key (bs.foldl upd a) = key a := by
  induction bs generalizing a with
  | nil => rfl
  | cons b bs ih => rw [List.foldl_cons, ih, hu]

include hu in
theorem upserts_cons (a : α) (xs : List α) (bs : List β) :
    upserts key kb ins upd (a :: xs) bs = (reports kb (key a) bs).foldl upd a ::
      upserts key kb ins upd xs (bs.filter fun b => ¬ kb b = key a) := by
  induction bs generalizing a xs with
  | nil => rfl
  | cons b bs ih =>
    rw [upserts, List.foldl_cons, upsert, reports_cons, List.filter_cons]
    by_cases h : key a = kb b
    · have hb : ¬ (decide (¬ kb b = key a)) = true := by simp [h]
      rw [if_pos h, if_pos h.symm, if_neg hb, List.foldl_cons]
      refine (ih _ xs).trans ?_
      rw [hu]
    · have hb : decide (¬ kb b = key a) = true := by simp [Ne.symm h]
      rw [if_neg h, if_neg (Ne.symm h), if_pos hb]
      exact ih a _

variable (hi : ∀ b, key (ins b) = kb b) {f : κ → α} (hf : ∀ b, ins b = upd (f (kb b)) b)

include hu hi hf in
theorem replays_upserts_nil : ∀ bs : List β, (∀ k, Replays upd (reports kb k bs)) →
    upserts key kb ins upd (upserts key kb ins upd [] bs) bs = upserts key kb ins upd [] bs
  | [], _ => rfl
  | b :: bs, h => by
    -- the first report opens its element, and the others of its key are folded into it
    have hfirst : upserts key kb ins upd [] (b :: bs) = (reports kb (kb b) bs).foldl upd (ins b) ::
        upserts key kb ins upd [] (bs.filter fun c => ¬ kb c = kb b) := by
      refine (upserts_cons hu (ins b) [] bs).trans ?_
      rw [hi]
    have hfilter : (b :: bs).filter (fun c => ¬ kb c = kb b) = bs.filter fun c => ¬ kb c = kb b := by
      simp
    have hhead := h (kb b) (f (kb b))
    have hrest := replays_upserts_nil _ (hfilter ▸ replays_filter_ne h (kb b))
    rw [reports_cons, if_pos rfl, List.foldl_cons, List.foldl_cons, ← hf] at hhead
    rw [hfirst, upserts_cons hu, key_foldl hu, hi, hfilter, hrest, reports_cons, if_pos rfl,
      List.foldl_cons, hhead]
  termination_by bs => bs.length
  decreasing_by
    have := List.length_filter_le (fun c => decide ¬kb c = kb b) bs
    simp only [List.length_cons]
    omega

include hu hi hf in
/-- **A keyed list replays where the reports of each key do**, inserting being merging into a fresh
element. -/
theorem replays_upserts {bs : List β} (h : ∀ k, Replays upd (reports kb k bs)) :
    Replays (fun xs b => upsert key (kb b) (ins b) (upd · b) xs) bs := by
  intro xs
  change upserts key kb ins upd (upserts key kb ins upd xs bs) bs = upserts key kb ins upd xs bs
  induction xs generalizing bs with
  | nil => exact replays_upserts_nil hu hi hf bs h
  | cons a xs ih =>
    rw [upserts_cons hu, upserts_cons hu, key_foldl hu, h (key a) a,
      ih (replays_filter_ne h (key a))]

end Upserts

end Replay
