import Mathlib.Data.List.Induction
import Idryx.Lib.Keyed

/-!
# Maps built by stores

A map that a loop fills holds the last value stored under each key, and laid over another it hides what
the other holds there.

* `Dict κ ν`: a map, with `set`, `sets` and `over`;
* `Last`: the last element of a list that gives a value;
* **`sets_eq_some_iff`**: what a loop of stores leaves, in terms of `Last`;
* `First`: the first element a loop refuses;
* `index`, `stored`: the same map with its keys; **`stored_index_iff`**, where no key is given twice.
-/

namespace LastWrite

variable {α κ ν : Type*}

/-! ## The last that gives a value -/

/-- `v` is what the last element of `xs` that gives anything gives. -/
def Last (R : α → ν → Prop) (xs : List α) (v : ν) : Prop :=
  ∃ pre x post, xs = pre ++ x :: post ∧ R x v ∧ ∀ y ∈ post, ∀ w, ¬ R y w

theorem Last.mem {R : α → ν → Prop} {xs : List α} {v : ν} (h : Last R xs v) : ∃ x ∈ xs, R x v := by
  obtain ⟨pre, x, post, rfl, hx, -⟩ := h
  exact ⟨x, by simp, hx⟩

theorem last_congr {R S : α → ν → Prop} (h : ∀ x v, R x v ↔ S x v) (xs : List α) (v : ν) :
    Last R xs v ↔ Last S xs v := by
  simp only [Last, h]

theorem last_concat (R : α → ν → Prop) (xs : List α) (x : α) (v : ν) :
    Last R (xs ++ [x]) v ↔ R x v ∨ (∀ w, ¬ R x w) ∧ Last R xs v := by
  constructor
  · rintro ⟨pre, y, post, hsplit, hy, hpost⟩
    rcases List.eq_nil_or_concat post with rfl | ⟨post, z, rfl⟩
    · obtain ⟨-, hxy⟩ := List.append_inj' hsplit rfl
      obtain rfl := List.head_eq_of_cons_eq hxy
      exact Or.inl hy
    · rw [List.concat_eq_append, ← List.cons_append, ← List.append_assoc] at hsplit
      obtain ⟨hxs, hxz⟩ := List.append_inj' hsplit rfl
      obtain rfl := List.head_eq_of_cons_eq hxz
      refine Or.inr ⟨hpost x (by simp), pre, y, post, hxs, hy, fun z hz => hpost z (by simp [hz])⟩
  · rintro (hx | ⟨hx, pre, y, post, rfl, hy, hpost⟩)
    · exact ⟨xs, x, [], rfl, hx, fun y hy => absurd hy List.not_mem_nil⟩
    · refine ⟨pre, y, post ++ [x], by simp, hy, fun z hz => ?_⟩
      rcases List.mem_append.mp hz with hz | hz
      · exact hpost z hz
      · obtain rfl := List.mem_singleton.mp hz
        exact hx

theorem forall_not_last_iff (R : α → ν → Prop) (xs : List α) :
    (∀ v, ¬ Last R xs v) ↔ ∀ x ∈ xs, ∀ v, ¬ R x v := by
  induction xs using List.reverseRecOn with
  | nil => simp [Last]
  | append_singleton xs x ih =>
    simp only [last_concat, not_or, List.forall_mem_append, List.forall_mem_singleton, ← ih]
    constructor
    · intro h
      exact ⟨fun v hv => (h v).2 ⟨fun w => (h w).1, hv⟩, fun v => (h v).1⟩
    · rintro ⟨hxs, hx⟩ v
      exact ⟨hx v, fun h => hxs v h.2⟩

theorem last_iff_of_unique {R : α → ν → Prop} {xs : List α}
    (hu : ∀ x ∈ xs, ∀ y ∈ xs, ∀ v w, R x v → R y w → v = w) {v : ν} :
    Last R xs v ↔ ∃ x ∈ xs, R x v := by
  constructor
  · exact Last.mem
  · rintro ⟨x, hx, hxv⟩
    have hsome : ¬ ∀ w, ¬ Last R xs w := fun h => (forall_not_last_iff R xs).mp h x hx v hxv
    obtain ⟨w, hw⟩ := not_forall_not.mp hsome
    obtain ⟨y, hy, hyw⟩ := hw.mem
    exact hu x hx y hy v w hxv hyw ▸ hw

/-! ## Stores -/

/-- A map: what is stored under each key. -/
abbrev Dict (κ ν : Type*) := κ → Option ν

/-- Nothing stored. -/
def Dict.empty : Dict κ ν := fun _ => none

/-- `f[k] = v`. -/
def Dict.set [DecidableEq κ] (f : Dict κ ν) (k : κ) (v : ν) : Dict κ ν :=
  fun j => if j = k then some v else f j

/-- `f` with every entry of `g` stored over it. -/
def Dict.over (g f : Dict κ ν) : Dict κ ν := fun k => (g k).or (f k)

variable [DecidableEq κ]

/-- A loop that stores what the elements of a list give. -/
def Dict.sets (give : α → Option (κ × ν)) (f : Dict κ ν) (xs : List α) : Dict κ ν :=
  xs.foldl (fun f x => (give x).elim f fun p => f.set p.1 p.2) f

/-- `x` gives `v` under the key `k`. -/
def Gives (give : α → Option (κ × ν)) (k : κ) (x : α) (v : ν) : Prop := give x = some (k, v)

theorem Dict.set_self (f : Dict κ ν) (k : κ) (v : ν) : f.set k v k = some v := if_pos rfl

theorem Dict.set_ne (f : Dict κ ν) {j k : κ} (h : j ≠ k) (v : ν) : f.set k v j = f j := if_neg h

/-- **What the loop leaves under a key** is what the last element with the key gave, or what was there. -/
theorem sets_eq_some_iff (give : α → Option (κ × ν)) (f : Dict κ ν) (xs : List α) (k : κ) (v : ν) :
    f.sets give xs k = some v ↔ Last (Gives give k) xs v ∨
      (∀ x ∈ xs, ∀ w, ¬ Gives give k x w) ∧ f k = some v := by
  induction xs using List.reverseRecOn with
  | nil => simp [Dict.sets, Last]
  | append_singleton xs x ih =>
    have hstep : f.sets give (xs ++ [x]) =
        (give x).elim (f.sets give xs) fun p => (f.sets give xs).set p.1 p.2 := by
      rw [Dict.sets, List.foldl_append]
      rfl
    -- an element without the key leaves what the loop had there
    have hskip (hno : ∀ w, ¬ Gives give k x w) (hsame : f.sets give (xs ++ [x]) k = f.sets give xs k) :
        f.sets give (xs ++ [x]) k = some v ↔ Last (Gives give k) (xs ++ [x]) v ∨
          (∀ y ∈ xs ++ [x], ∀ w, ¬ Gives give k y w) ∧ f k = some v := by
      rw [hsame, ih, last_concat, List.forall_mem_append, List.forall_mem_singleton]
      simp only [hno, not_false_eq_true, implies_true, true_and, and_true, false_or]
    cases hx : give x with
    | none => exact hskip (by simp [Gives, hx]) (by simp [hstep, hx])
    | some p =>
      obtain ⟨j, u⟩ := p
      by_cases hk : k = j
      · subst hk
        have hgive (w : ν) : Gives give k x w ↔ u = w := by simp [Gives, hx]
        rw [hstep, hx, Option.elim_some, Dict.set_self, last_concat, List.forall_mem_append,
          List.forall_mem_singleton]
        simp only [hgive, Option.some.injEq]
        constructor
        · exact fun h => Or.inl (Or.inl h)
        · rintro ((h | ⟨h, -⟩) | ⟨⟨-, h⟩, -⟩)
          · exact h
          · exact absurd rfl (h u)
          · exact absurd rfl (h u)
      · refine hskip (fun w h => ?_) ?_
        · simp only [Gives, hx, Option.some.injEq, Prod.mk.injEq] at h
          exact hk h.1.symm
        · rw [hstep, hx, Option.elim_some, Dict.set_ne _ hk]

omit [DecidableEq κ] in
theorem Dict.over_eq_some_iff (g f : Dict κ ν) (k : κ) (v : ν) :
    g.over f k = some v ↔ g k = some v ∨ g k = none ∧ f k = some v := by
  rw [Dict.over, Option.or_eq_some_iff]

/-! ## Loops that refuse -/

/-- The first element the loop refuses, with the number of those before it. -/
def First (bad : α → Prop) (xs : List α) (n : ℕ) : Prop :=
  ∃ pre x post, xs = pre ++ x :: post ∧ (∀ y ∈ pre, ¬ bad y) ∧ bad x ∧ pre.length = n

theorem exists_first {bad : α → Prop} {xs : List α} (h : ¬ ∀ x ∈ xs, ¬ bad x) : ∃ n, First bad xs n := by
  induction xs with
  | nil => exact absurd (fun x hx => absurd hx List.not_mem_nil) h
  | cons x xs ih =>
    by_cases hx : bad x
    · exact ⟨0, [], x, xs, rfl, fun y hy => absurd hy List.not_mem_nil, hx, rfl⟩
    · have hxs : ¬ ∀ y ∈ xs, ¬ bad y := fun hxs => h (List.forall_mem_cons.mpr ⟨hx, hxs⟩)
      obtain ⟨n, pre, y, post, rfl, hpre, hy, rfl⟩ := ih hxs
      exact ⟨pre.length + 1, x :: pre, y, post, rfl, List.forall_mem_cons.mpr ⟨hx, hpre⟩, hy, rfl⟩

/-! ## With the keys -/

/-- What is stored under a key. -/
def stored (m : List (κ × ν)) : Dict κ ν := fun k => (Keyed.lookup Prod.fst k m).map Prod.snd

/-- `m[k] = v`. -/
def put (m : List (κ × ν)) (p : κ × ν) : List (κ × ν) := Keyed.upsert Prod.fst p.1 p (fun _ => p) m

/-- A loop that stores what the elements of a list give, in a map that can be ranged over. -/
def index (give : α → Option (κ × ν)) (xs : List α) : List (κ × ν) :=
  xs.foldl (fun m x => (give x).elim m (put m)) []

theorem stored_put (m : List (κ × ν)) (p : κ × ν) : stored (put m p) = (stored m).set p.1 p.2 := by
  funext j
  unfold stored put Dict.set
  split_ifs with hj
  · rw [hj, Keyed.lookup_put rfl, Option.map_some]
  · rw [Keyed.lookup_upsert_ne rfl (fun _ _ => rfl) hj]

theorem stored_index (give : α → Option (κ × ν)) (xs : List α) :
    stored (index give xs) = Dict.empty.sets give xs := by
  induction xs using List.reverseRecOn with
  | nil => rfl
  | append_singleton xs x ih =>
    rw [index, List.foldl_concat, Dict.sets, List.foldl_concat]
    change stored ((give x).elim (index give xs) (put (index give xs))) =
      (give x).elim (Dict.empty.sets give xs) fun p => (Dict.empty.sets give xs).set p.1 p.2
    cases give x with
    | none => exact ih
    | some p => rw [Option.elim_some, Option.elim_some, stored_put, ih]

theorem index_map_values {give give' : α → Option (κ × ν)} {f : ν → ν}
    (h : ∀ x, give' x = (give x).map (Prod.map id f)) (xs : List α) :
    index give' xs = (index give xs).map (Prod.map id f) := by
  induction xs using List.reverseRecOn with
  | nil => rfl
  | append_singleton xs x ih =>
    rw [index, index, List.foldl_concat, List.foldl_concat]
    change (give' x).elim (index give' xs) (put (index give' xs)) =
      ((give x).elim (index give xs) (put (index give xs))).map (Prod.map id f)
    rw [h, ih]
    cases give x with
    | none => rfl
    | some p =>
      let g : κ × ν → κ × ν := Prod.map id f
      have hkey : ∀ q : κ × ν, (g q).1 = q.1 := fun _ => rfl
      have hvalue : ∀ q : κ × ν, g ((fun _ => p) q) = (fun _ => g p) (g q) := fun _ => rfl
      exact (Keyed.map_upsert hkey rfl hvalue (index give xs)).symm

theorem stored_map_values (f : ν → ν) (m : List (κ × ν)) (k : κ) :
    stored (m.map (Prod.map id f)) k = (stored m k).map f := by
  unfold stored
  rw [Keyed.lookup_map (Prod.map id f) fun _ => rfl, Option.map_map, Option.map_map]
  rfl

theorem exists_gives_of_stored {give : α → Option (κ × ν)} {xs : List α} {k : κ} {v : ν}
    (h : stored (index give xs) k = some v) : ∃ x ∈ xs, give x = some (k, v) := by
  rw [stored_index, sets_eq_some_iff] at h
  rcases h with h | ⟨-, h⟩
  · exact h.mem
  · cases h

/-- **Where no key is given two values**, what is stored under a key is what some element gives. -/
theorem stored_index_iff {give : α → Option (κ × ν)} {xs : List α} {k : κ} {v : ν}
    (hu : ∀ x ∈ xs, ∀ y ∈ xs, ∀ v w, give x = some (k, v) → give y = some (k, w) → v = w) :
    stored (index give xs) k = some v ↔ ∃ x ∈ xs, give x = some (k, v) := by
  have hlast : Last (Gives give k) xs v ↔ ∃ x ∈ xs, Gives give k x v := last_iff_of_unique hu
  rw [stored_index, sets_eq_some_iff, hlast]
  simp [Dict.empty, Gives]

end LastWrite
