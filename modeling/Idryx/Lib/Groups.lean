import Idryx.Lib.Keyed
import Mathlib.Data.List.Induction

/-!
# Sets and groups

A set that grows one member at a time, and a map from keys to such sets, as lists.

* `insertMember`, `insert`, `members`; `ofPairs`: the groups of a list of pairs;
* **`mem_members_ofPairs`**: the members of a key are those it is paired with; `mem_keys_ofPairs`;
* `append`: one more entry of a key's list; **`members_appends`**: the lists after a loop.
-/

namespace Groups

variable {κ α : Type*} [DecidableEq κ] [DecidableEq α]

/-! ## Sets -/

/-- One more member of a set. -/
def insertMember (set : List α) (x : α) : List α := if x ∈ set then set else set ++ [x]

theorem mem_insertMember {set : List α} {x y : α} : y ∈ insertMember set x ↔ y ∈ set ∨ y = x := by
  unfold insertMember
  split_ifs with h
  · constructor
    · exact Or.inl
    · rintro (hy | rfl)
      · exact hy
      · exact h
  · rw [List.mem_append, List.mem_singleton]

theorem insertMember_ne_nil (set : List α) (x : α) : insertMember set x ≠ [] := by
  intro h
  have hx : x ∈ insertMember set x := mem_insertMember.mpr (Or.inr rfl)
  rw [h] at hx
  exact List.not_mem_nil hx

theorem mem_foldl_insertMember {β : Type*} (p : β → Prop) [DecidablePred p] (f : β → α) (bs : List β)
    (set : List α) {y : α} :
    y ∈ bs.foldl (fun set b => if p b then insertMember set (f b) else set) set ↔
      y ∈ set ∨ ∃ b ∈ bs, p b ∧ f b = y := by
  apply Loop.foldl_iff (P := fun set : List α => y ∈ set) (Q := fun b => p b ∧ f b = y)
  intro set b
  split_ifs with h
  · rw [mem_insertMember, eq_comm (a := y)]
    simp only [h, true_and]
  · simp only [h, false_and, or_false]

theorem nodup_insertMember {set : List α} (h : set.Nodup) (x : α) : (insertMember set x).Nodup := by
  unfold insertMember
  split_ifs with hx
  · exact h
  · refine List.nodup_append.mpr ⟨h, List.nodup_singleton x, ?_⟩
    rintro a ha b hb rfl
    exact hx (List.mem_singleton.mp hb ▸ ha)

theorem nodup_foldl_insertMember {set : List α} (h : set.Nodup) (xs : List α) :
    (xs.foldl insertMember set).Nodup :=
  List.foldlRecOn (motive := fun set : List α => set.Nodup) xs _ h fun _ h x _ =>
    nodup_insertMember h x

theorem mem_foldl_members {set xs : List α} {y : α} :
    y ∈ xs.foldl insertMember set ↔ y ∈ set ∨ y ∈ xs := by
  have h := Loop.foldl_iff (P := fun set : List α => y ∈ set) (Q := fun x => y = x)
    (fun _ _ => mem_insertMember) xs set
  rw [h]
  simp

/-! ## Groups -/

/-- One more member of the set of `k`. -/
def insert (k : κ) (x : α) (g : List (κ × List α)) : List (κ × List α) :=
  Keyed.upsert Prod.fst k (k, [x]) (fun row => (row.1, insertMember row.2 x)) g

/-- The set of `k`, empty if there is none. -/
def members (g : List (κ × List α)) (k : κ) : List α :=
  ((Keyed.lookup Prod.fst k g).map Prod.snd).getD []

theorem mem_members_insert {k j : κ} {x y : α} {g : List (κ × List α)} :
    y ∈ members (insert k x g) j ↔ y ∈ members g j ∨ j = k ∧ y = x := by
  unfold members insert
  by_cases h : j = k
  · subst h
    rw [Keyed.lookup_upsert_self (by rfl) (by exact fun _ h => h)]
    cases Keyed.lookup Prod.fst j g with
    | none => simp
    | some row => simp [mem_insertMember]
  · rw [Keyed.lookup_upsert_ne (by rfl) (by exact fun _ h => h) h]
    simp [h]

theorem mem_keys_insert {k j : κ} {x : α} {g : List (κ × List α)} :
    j ∈ (insert k x g).map Prod.fst ↔ j ∈ g.map Prod.fst ∨ j = k :=
  Keyed.mem_keys_upsert (by rfl) (by exact fun _ h => h)

theorem nodup_insert {k : κ} {x : α} {g : List (κ × List α)} (h : (g.map Prod.fst).Nodup) :
    ((insert k x g).map Prod.fst).Nodup :=
  Keyed.nodup_upsert (by rfl) (by exact fun _ h => h) h

theorem insert_ne_nil (k : κ) (x : α) (g : List (κ × List α)) : insert k x g ≠ [] := by
  intro h
  have hk : k ∈ (insert k x g).map Prod.fst := mem_keys_insert.mpr (Or.inr rfl)
  rw [h] at hk
  exact List.not_mem_nil hk

theorem forall_insert_ne_nil (k : κ) (x : α) {g : List (κ × List α)} (h : ∀ row ∈ g, row.2 ≠ []) :
    ∀ row ∈ insert k x g, row.2 ≠ [] :=
  Keyed.forall_mem_upsert (P := fun row : κ × List α => row.2 ≠ []) (List.cons_ne_nil x [])
    (fun row _ => insertMember_ne_nil row.2 x) h

/-- The groups of a list of pairs. -/
def ofPairs (ps : List (κ × α)) : List (κ × List α) := ps.foldl (fun g p => insert p.1 p.2 g) []

theorem ofPairs_concat (ps : List (κ × α)) (p : κ × α) :
    ofPairs (ps ++ [p]) = insert p.1 p.2 (ofPairs ps) := by
  unfold ofPairs
  rw [List.foldl_append]
  rfl

/-- **The members of a key** are those it is paired with. -/
theorem mem_members_ofPairs {ps : List (κ × α)} {k : κ} {x : α} :
    x ∈ members (ofPairs ps) k ↔ (k, x) ∈ ps := by
  induction ps using List.reverseRecOn with
  | nil => exact iff_of_false List.not_mem_nil List.not_mem_nil
  | append_singleton ps p ih =>
    rw [ofPairs_concat, mem_members_insert, ih, List.mem_append, List.mem_singleton]
    constructor
    · rintro (h | ⟨rfl, rfl⟩)
      · exact Or.inl h
      · exact Or.inr rfl
    · rintro (h | rfl)
      · exact Or.inl h
      · exact Or.inr ⟨rfl, rfl⟩

theorem nodup_members_ofPairs (ps : List (κ × α)) (k : κ) : (members (ofPairs ps) k).Nodup := by
  induction ps using List.reverseRecOn with
  | nil => exact List.nodup_nil
  | append_singleton ps p ih =>
    rw [ofPairs_concat]
    unfold members at ih
    unfold members insert
    by_cases h : k = p.1
    · subst h
      rw [Keyed.lookup_upsert_self (by rfl) (by exact fun _ h => h)]
      cases hl : Keyed.lookup Prod.fst p.1 (ofPairs ps) with
      | none => exact List.nodup_singleton p.2
      | some row =>
        rw [hl] at ih
        exact nodup_insertMember ih p.2
    · rw [Keyed.lookup_upsert_ne (by rfl) (by exact fun _ h => h) h]
      exact ih

theorem mem_keys_ofPairs {ps : List (κ × α)} {k : κ} :
    k ∈ (ofPairs ps).map Prod.fst ↔ ∃ x, (k, x) ∈ ps := by
  induction ps using List.reverseRecOn with
  | nil => simp [ofPairs]
  | append_singleton ps p ih =>
    rw [ofPairs_concat, mem_keys_insert, ih]
    constructor
    · rintro (⟨x, h⟩ | rfl)
      · exact ⟨x, List.mem_append_left _ h⟩
      · exact ⟨p.2, List.mem_append_right _ (List.mem_singleton.mpr rfl)⟩
    · rintro ⟨x, h⟩
      rcases List.mem_append.mp h with h | h
      · exact Or.inl ⟨x, h⟩
      · exact Or.inr (congrArg Prod.fst (List.mem_singleton.mp h))

/-! ## Lists by key -/

section Append

variable {κ α β : Type*} [DecidableEq κ]

/-- One more entry of the list of `k`. -/
def append (k : κ) (x : α) (g : List (κ × List α)) : List (κ × List α) :=
  Keyed.upsert Prod.fst k (k, [x]) (fun row => (row.1, row.2 ++ [x])) g

theorem members_append (k j : κ) (x : α) (g : List (κ × List α)) :
    members (append k x g) j = members g j ++ if j = k then [x] else [] := by
  unfold members append
  by_cases h : j = k
  · subst h
    rw [Keyed.lookup_upsert_self (by rfl) (by exact fun _ h => h), if_pos rfl]
    cases Keyed.lookup Prod.fst j g <;> rfl
  · rw [Keyed.lookup_upsert_ne (by rfl) (by exact fun _ h => h) h, if_neg h, List.append_nil]

/-- **The list of a key after a loop** that appends what passes a test. -/
theorem members_appends (p : β → Bool) (f : β → κ) (v : β → α) (bs : List β) (j : κ) :
    members (bs.foldl (fun g b => if p b then append (f b) (v b) g else g) []) j =
      (bs.filter fun b => p b && f b = j).map v := by
  have hstep (g : List (κ × List α)) (b : β) :
      members (if p b then append (f b) (v b) g else g) j =
        members g j ++ if p b && f b = j then [v b] else [] := by
    cases p b with
    | true =>
      rw [if_pos rfl, members_append]
      simp only [Bool.true_and, decide_eq_true_eq, eq_comm (a := j)]
    | false => simp
  rw [Loop.foldl_append (f := fun g => members g j) hstep]
  show [] ++ _ = _
  induction bs with
  | nil => rfl
  | cons b bs ih =>
    rw [List.nil_append] at ih ⊢
    rw [List.flatMap_cons, ih, List.filter_cons]
    split_ifs with h
    · rw [List.map_cons, List.singleton_append]
    · rw [List.nil_append]

end Append

end Groups
