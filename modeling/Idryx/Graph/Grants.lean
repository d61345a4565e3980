import Idryx.Graph.Replay

/-!
# The grants of a node

What a run of calls keeps of the grants of an id, by the rules that merge the reports of a grant.

* `grantsOf`; `find_apply`: what one call does to the grants of an id;
* `Store.Grants`: a node holds a grant with a property; **`grants_run`**: no call takes it away, if
  merging does not;
* `Store.GrantsApart`: the grants of a node have distinct names; `grantsApart_run`.
-/

namespace Idryx.Store

variable {s : Store} {id : GoString} {P : Permission → Prop}

/-- The node of the id holds a grant with the property. -/
def Grants (s : Store) (id : GoString) (P : Permission → Prop) : Prop :=
  ∃ i, s.find id = some i ∧ ∃ q ∈ i.permissions, P q

/-- The grants of an id. -/
def grantsOf (s : Store) (id : GoString) : List Permission :=
  ((s.find id).map Identity.permissions).getD []

/-- The grants of each node have distinct names. -/
def GrantsApart (s : Store) : Prop :=
  ∀ id i, s.find id = some i → (i.permissions.map Permission.name).Nodup

theorem find_apply (s : Store) (x : Op) (id : GoString) :
    (s.apply x).find id = s.find id ∨ ∃ j, (s.apply x).find id = some j ∧
      ∃ inn, j.permissions = mergePermissions ((s.find id).getD (s.fresh id)).permissions inn := by
  cases x with
  | event e =>
    change (s.addEvent e).find id = _ ∨ ∃ j, (s.addEvent e).find id = _ ∧ _
    unfold addEvent
    split_ifs
    · exact Or.inl rfl
    · rw [find_update]
      split_ifs with hid
      · subst hid
        exact Or.inr ⟨_, rfl, [], rfl⟩
      · exact Or.inl rfl
  | identity i =>
    change (s.addIdentity i).find id = _ ∨ ∃ j, (s.addIdentity i).find id = _ ∧ _
    rw [find_addIdentity]
    split_ifs with hid
    · subst hid
      exact Or.inr ⟨_, rfl, i.permissions, rfl⟩
    · exact Or.inl rfl

theorem grantsOf_addIdentity (s : Store) (i : Identity) (id : GoString) :
    (s.addIdentity i).grantsOf id =
      if id = i.id then mergePermissions (s.grantsOf i.id) i.permissions else s.grantsOf id := by
  unfold grantsOf
  rw [find_addIdentity]
  split_ifs
  · cases s.find i.id <;> rfl
  · rfl

theorem grants_iff : s.Grants id P ↔ ∃ q ∈ s.grantsOf id, P q := by
  unfold Grants grantsOf
  cases s.find id <;> simp

theorem GrantsApart.grantsOf (h : s.GrantsApart) (id : GoString) :
    ((s.grantsOf id).map Permission.name).Nodup := by
  unfold Store.grantsOf
  cases hf : s.find id with
  | none => exact List.nodup_nil
  | some i => exact h id i hf

theorem grantsApart_apply (h : s.GrantsApart) (x : Op) : (s.apply x).GrantsApart := by
  intro id i hi
  rcases find_apply s x id with hsame | ⟨j, hj, inn, hperm⟩
  · exact h id i (hsame ▸ hi)
  · obtain rfl : j = i := Option.some.inj (hj.symm.trans hi)
    rw [hperm]
    refine nodup_mergePermissions ?_ inn
    cases hf : s.find id with
    | none => exact List.nodup_nil
    | some k => exact h id k hf

theorem grantsApart_run (h : s.GrantsApart) (xs : List Op) : (s.run xs).GrantsApart :=
  List.foldlRecOn xs _ h fun _ hs x _ => grantsApart_apply hs x

section Merged

variable (hP : ∀ d p : Permission, d.name = p.name → (P (mergePermission d p) ↔ P d ∨ P p))

include hP

theorem grants_apply (h : s.Grants id P) (x : Op) : (s.apply x).Grants id P := by
  obtain ⟨i, hi, hq⟩ := h
  rcases find_apply s x id with hsame | ⟨j, hj, inn, hperm⟩
  · exact ⟨i, hsame.trans hi, hq⟩
  · refine ⟨j, hj, ?_⟩
    rw [hperm, hi]
    exact (exists_mergePermissions hP _ inn).mpr (Or.inl hq)

/-- **A run takes no grant away** that has a property merging keeps, and a call that reports one
adds it. -/
theorem grants_run {xs : List Op} (h : s.Grants id P ∨ ∃ i ∈ Op.identities xs, i.id = id ∧
    ∃ p ∈ i.permissions, P p) : (s.run xs).Grants id P := by
  induction xs generalizing s with
  | nil =>
    rcases h with h | ⟨i, hi, -⟩
    · exact h
    · cases hi
  | cons x xs ih =>
    rw [run_cons]
    refine ih ?_
    rcases h with h | ⟨i, hi, hid, hp⟩
    · exact Or.inl (grants_apply hP h x)
    cases x with
    | event e => exact Or.inr ⟨i, hi, hid, hp⟩
    | identity j =>
      rcases List.mem_cons.mp hi with rfl | hi
      · subst hid
        refine Or.inl ⟨_, (find_addIdentity s i i.id).trans (if_pos rfl), ?_⟩
        exact (exists_mergePermissions hP _ i.permissions).mpr (Or.inr hp)
      · exact Or.inr ⟨i, hi, hid, hp⟩

end Merged

end Idryx.Store
