import Idryx.Graph.Folds
import Idryx.Lib.Replay

/-!
# Replaying operations on the graph

A connector's file loaded twice is the same calls made twice.

* `Op`, `Store.run`: the calls and a run of them;
* `replays_mergePermission`, `replays_mergeIdentity`: each field's merge rule replays;
* `seenEvents_run`, `bare_run`: what a run leaves in the event set and, apart from events, at an id;
* **`identities_run_run`**: a second pass over the same calls changes nothing, action lists being values;
  `Graph/Sliced` says when they may be taken so.
-/

namespace Idryx

open Replay

/-! ## The merges replay -/

theorem unionActions_of_subset {dst inn : List GoString} (h : ∀ a ∈ inn, a ∈ dst) :
    unionActions dst inn = dst := by
  unfold unionActions
  split_ifs with hi hd
  · rfl
  · rw [List.isEmpty_iff] at hd
    cases inn with
    | nil => exact absurd rfl hi
    | cons a inn =>
      have ha := h a List.mem_cons_self
      rw [hd] at ha
      cases ha
  · refine foldl_of_absorbed (fun x b hb => ?_) h
    exact if_pos (List.contains_iff_mem.mpr hb)

theorem mem_unionActions {dst inn : List GoString} {a : GoString} :
    a ∈ unionActions dst inn ↔ a ∈ dst ∨ a ∈ inn := by
  have hfold : ∀ (inn dst : List GoString),
      a ∈ inn.foldl (fun dst a => if dst.contains a then dst else dst ++ [a]) dst ↔
        a ∈ dst ∨ a ∈ inn := by
    intro inn dst
    rw [Loop.foldl_iff (P := fun dst : List GoString => a ∈ dst) (Q := fun b => a = b)]
    · simp only [exists_eq_right']
    intro dst b
    split_ifs with hb
    · constructor
      · exact Or.inl
      · rintro (h | rfl)
        · exact h
        · exact List.contains_iff_mem.mp hb
    · rw [List.mem_append, List.mem_singleton]
  unfold unionActions
  split_ifs with hi hd
  · rw [List.isEmpty_iff] at hi
    simp [hi]
  · rw [List.isEmpty_iff] at hd
    simp [hd]
  · exact hfold inn dst

theorem replays_unionActions (bs : List (List GoString)) : Replays unionActions bs := by
  refine replays_absorb (A := fun x b => ∀ a ∈ b, a ∈ x) ?_ ?_ ?_ bs
  · intro x b a ha
    exact mem_unionActions.mpr (Or.inr ha)
  · intro x b c hb a ha
    exact mem_unionActions.mpr (Or.inl (hb a ha))
  · intro x b hb
    exact unionActions_of_subset hb

theorem replays_latest (ts : List Time) : Replays Time.latest ts := by
  refine replays_absorb (A := fun t u => u.instant ≤ t.instant) ?_ ?_ ?_ ts
  · intro t u
    rw [Time.latest_instant]
    exact le_max_right _ _
  · intro t u v h
    rw [Time.latest_instant]
    omega
  · intro t u h
    refine if_neg ?_
    rw [Time.after_iff]
    omega

/-- **Merging the reports of one grant again changes nothing.** -/
theorem replays_mergePermission (ps : List Permission) : Replays mergePermission ps := by
  intro p
  refine Permission.ext ?_ ?_ ?_ ?_ ?_
  · exact (replays_fixed ps).project mergePermission _ (fun _ _ => rfl) p
  · exact ((replays_or _).comap Permission.admin).project mergePermission _ (fun _ _ => rfl) p
  · exact ((replays_or _).comap Permission.used).project mergePermission _ (fun _ _ => rfl) p
  · exact ((replays_unionActions _).comap Permission.actions).project mergePermission _
      (fun _ _ => rfl) p
  · exact (replays_overwrite (fun q : Permission => q.arn ≠ "") Permission.arn ps).project
      mergePermission _ (fun _ _ => rfl) p

theorem foldl_mergePermissions (lists : List (List Permission)) (ps : List Permission) :
    lists.foldl mergePermissions ps = lists.flatten.foldl mergeOne ps := by
  induction lists generalizing ps with
  | nil => rfl
  | cons l lists ih =>
    rw [List.foldl_cons, ih, mergePermissions_eq, List.flatten_cons, List.foldl_append]

theorem replays_mergePermissions (lists : List (List Permission)) :
    Replays mergePermissions lists := by
  intro ps
  rw [foldl_mergePermissions, foldl_mergePermissions]
  have hone : Replays mergeOne lists.flatten := by
    refine replays_upserts mergePermission_name ?_ (f := blankPermission) ?_ ?_
    · exact fun _ => rfl
    · exact fun p => (mergePermission_blank p).symm
    · exact fun _ => replays_mergePermission _
  exact hone ps

theorem replays_overwritten {τ : Type*} (is : List Identity) (i : Identity) (p : Identity → Prop)
    [DecidablePred p] (f π : Identity → τ)
    (h : ∀ i j, (if p j then f j else π i) = π (mergeIdentity i j)) :
    π (is.foldl mergeIdentity (is.foldl mergeIdentity i)) = π (is.foldl mergeIdentity i) :=
  (replays_overwrite p f is).project mergeIdentity π h i

/-- **Merging the reports of one identity again changes nothing**, their event lists being empty. -/
theorem replays_mergeIdentity {is : List Identity} (he : ∀ i ∈ is, i.events = []) :
    Replays mergeIdentity is := by
  intro i
  refine Identity.ext ?_ ?_ ?_ ?_ ?_ ?_ ?_ ?_ ?_ ?_ ?_ ?_ ?_ ?_ ?_
  · exact (replays_fixed is).project mergeIdentity _ (fun _ _ => rfl) i
  · exact replays_overwritten is i (fun j => j.type ≠ identityHuman) _ _ fun _ _ => rfl
  · exact replays_overwritten is i (fun j => j.privileged = true) (fun _ => true) _ fun _ _ => rfl
  · rw [events_foldl_mergeIdentity he]
  · exact replays_overwritten is i (fun j => j.source ≠ "") _ _ fun _ _ => rfl
  · exact replays_overwritten is i (fun j => j.owner ≠ "") _ _ fun _ _ => rfl
  · exact replays_overwritten is i (fun j => (!j.created.isZero) = true) _ _ fun _ _ => rfl
  · exact ((replays_latest _).comap Identity.lastUsed).project mergeIdentity _ (fun _ _ => rfl) i
  · exact ((replays_mergePermissions _).comap Identity.permissions).project mergeIdentity _
      (fun _ _ => rfl) i
  · exact replays_overwritten is i (fun j => j.runtime ≠ "") _ _ fun _ _ => rfl
  · exact replays_overwritten is i (fun j => j.onBehalfOf ≠ []) _ _ fun _ _ => rfl
  · exact replays_overwritten is i (fun j => j.parent ≠ "") _ _ fun _ _ => rfl
  · exact replays_overwritten is i (fun j => j.attestation ≠ "") _ _ fun _ _ => rfl
  · exact replays_overwritten is i (fun j => j.declaredModels ≠ []) _ _ fun _ _ => rfl
  · exact replays_overwritten is i (fun j => j.shadow = true) (fun _ => true) _ fun _ _ => rfl

/-! ## Runs -/

/-- A call on the graph. -/
inductive Op where
  | event (e : Event)
  | identity (i : Identity)

/-- The events and the identities of a run. -/
def Op.events (xs : List Op) : List Event :=
  xs.filterMap fun | .event e => some e | .identity _ => none

@[inherit_doc Op.events]
def Op.identities (xs : List Op) : List Identity :=
  xs.filterMap fun | .event _ => none | .identity i => some i

namespace Store

@[ext]
theorem ext {s t : Store} (hp : s.privileged = t.privileged) (hn : s.nodes = t.nodes)
    (he : s.seenEvents = t.seenEvents) : s = t := by
  cases s
  cases t
  cases hp
  cases hn
  cases he
  rfl

/-- What a call does. -/
def apply (s : Store) : Op → Store
  | .event e => s.addEvent e
  | .identity i => s.addIdentity i

/-- A run of calls. -/
def run (s : Store) (xs : List Op) : Store := xs.foldl apply s

theorem run_cons (s : Store) (x : Op) (xs : List Op) : s.run (x :: xs) = (s.apply x).run xs := rfl

theorem privileged_run (s : Store) (xs : List Op) : (s.run xs).privileged = s.privileged := by
  induction xs generalizing s with
  | nil => rfl
  | cons x xs ih =>
    rw [run_cons, ih]
    cases x with
    | event e => exact privileged_addEvent s e
    | identity i => rfl

/-- **The events of a run are those seen, each kept once.** -/
theorem seenEvents_run (s : Store) (xs : List Op) :
    (s.run xs).seenEvents = KeepFirst.keepFirst Event.goEq s.seenEvents (Op.events xs) := by
  induction xs generalizing s with
  | nil => rfl
  | cons x xs ih =>
    rw [run_cons, ih]
    cases x with
    | event e =>
      change KeepFirst.keepFirst _ (s.addEvent e).seenEvents _ =
        KeepFirst.keepFirst _ _ ([e] ++ Op.events xs)
      rw [KeepFirst.keepFirst_append, seenEvents_addEvent]
    | identity i => rfl

/-- **What a run leaves at an id, its events apart**: the merges of the id's reports in order. -/
theorem bare_run (s : Store) {xs : List Op} (he : ∀ i ∈ Op.identities xs, i.events = [])
    (id : GoString) : (s.run xs).bare id =
      (Keyed.reports Identity.id id (Op.identities xs)).foldl mergeIdentity (s.bare id) := by
  induction xs generalizing s with
  | nil => rfl
  | cons x xs ih =>
    cases x with
    | event e =>
      rw [run_cons, ih _ he]
      change _ = List.foldl _ _ (Keyed.reports Identity.id id (Op.identities xs))
      rw [← bare_addEvent s e]
      rfl
    | identity i =>
      have hi : i.events = [] := he i List.mem_cons_self
      rw [run_cons, ih _ fun j hj => he j (List.mem_cons_of_mem _ hj)]
      change _ = List.foldl _ _ (Keyed.reports Identity.id id (i :: Op.identities xs))
      change List.foldl _ ((s.addIdentity i).bare id) _ = _
      rw [bare_addIdentity s hi, Keyed.reports_cons]
      split_ifs <;> rfl

theorem isSome_find_apply (s : Store) (x : Op) {id : GoString} (h : (s.find id).isSome = true) :
    ((s.apply x).find id).isSome = true := by
  cases x with
  | event e =>
    change ((s.addEvent e).find id).isSome = true
    unfold addEvent
    split_ifs
    · exact h
    · rw [find_update]
      split_ifs
      · rfl
      · exact h
  | identity i =>
    change ((s.addIdentity i).find id).isSome = true
    rw [find_addIdentity]
    split_ifs
    · rfl
    · exact h

theorem isSome_find_run (s : Store) (xs : List Op) {id : GoString}
    (h : (s.find id).isSome = true) : ((s.run xs).find id).isSome = true := by
  induction xs generalizing s with
  | nil => exact h
  | cons x xs ih => exact ih _ (isSome_find_apply s x h)

theorem isSome_find_run_of_mem (s : Store) {xs : List Op} {i : Identity}
    (hi : i ∈ Op.identities xs) : ((s.run xs).find i.id).isSome = true := by
  induction xs generalizing s with
  | nil => cases hi
  | cons x xs ih =>
    cases x with
    | event e => exact ih _ hi
    | identity j =>
      rcases List.mem_cons.mp hi with rfl | hi
      · refine isSome_find_run _ xs ?_
        change ((s.addIdentity i).find i.id).isSome = true
        rw [find_addIdentity, if_pos rfl]
        rfl
      · exact ih _ hi

theorem run_of_seen (s : Store) {xs : List Op}
    (h : ∀ e ∈ Op.events xs, s.seenEvents.any (Event.goEq · e) = true) :
    s.run xs = (Op.identities xs).foldl addIdentity s := by
  induction xs generalizing s with
  | nil => rfl
  | cons x xs ih =>
    cases x with
    | event e =>
      have hs : s.addEvent e = s := if_pos (h e List.mem_cons_self)
      change (s.addEvent e).run xs = _
      rw [hs, ih s fun e' he' => h e' (List.mem_cons_of_mem _ he')]
      rfl
    | identity i => exact ih (s.addIdentity i) h

theorem nodes_foldl_addIdentity (s : Store) (is : List Identity) :
    (is.foldl addIdentity s).nodes =
      Keyed.upserts Identity.id Identity.id (fun i => mergeIdentity (s.fresh i.id) i) mergeIdentity
        s.nodes is := by
  induction is generalizing s with
  | nil => rfl
  | cons i is ih =>
    rw [List.foldl_cons, ih]
    rfl

theorem seenEvents_foldl_addIdentity (s : Store) (is : List Identity) :
    (is.foldl addIdentity s).seenEvents = s.seenEvents :=
  Loop.foldl_fixed (f := Store.seenEvents) (fun s i _ => seenEvents_addIdentity s i) s

/-- The store holds all a run reports: its events were seen, its identities have nodes, and merging
the reports of an id into its node again changes nothing. -/
structure Settled (s : Store) (xs : List Op) : Prop where
  seen : ∀ e ∈ Op.events xs, s.seenEvents.any (Event.goEq · e) = true
  present : ∀ i ∈ Op.identities xs, (s.find i.id).isSome = true
  absorbed : ∀ id, (Keyed.reports Identity.id id (Op.identities xs)).foldl mergeIdentity
    (s.bare id) = s.bare id

theorem foldl_mergeIdentity_eq {is : List Identity} (he : ∀ i ∈ is, i.events = []) {a : Identity}
    (h : is.foldl mergeIdentity { a with events := [] } = { a with events := [] }) :
    is.foldl mergeIdentity a = a := by
  have hπ : is.foldl mergeIdentity { a with events := [] } =
      { is.foldl mergeIdentity a with events := [] } := by
    clear h
    induction is generalizing a with
    | nil => rfl
    | cons i is ih =>
      rw [List.foldl_cons, List.foldl_cons, ← ih fun j hj => he j (List.mem_cons_of_mem _ hj)]
      simp only [mergeIdentity, he i List.mem_cons_self, List.append_nil]
  rw [hπ] at h
  have hev := events_foldl_mergeIdentity he a
  cases hf : is.foldl mergeIdentity a
  cases a
  rw [hf] at h hev
  simp only [Identity.mk.injEq] at h hev ⊢
  exact ⟨h.1, h.2.1, h.2.2.1, hev, h.2.2.2.2⟩

/-- **A settled run changes nothing.** -/
theorem run_of_settled {s : Store} {xs : List Op} (hid : ∀ i ∈ Op.identities xs, i.events = [])
    (h : s.Settled xs) : s.run xs = s := by
  rw [run_of_seen s h.seen]
  have hu : ∀ a b : Identity, a.id = b.id → (mergeIdentity a b).id = b.id := fun _ _ h => h
  have hin : ∀ b, (mergeIdentity (s.fresh b.id) b).id = b.id := fun _ => rfl
  have hkeys : ∀ b ∈ Op.identities xs, b.id ∈ s.nodes.map Identity.id := by
    intro b hb
    by_contra hno
    have hpres := h.present b hb
    rw [find, Keyed.lookup_eq_none.mpr hno] at hpres
    cases hpres
  refine ext ?_ ?_ (seenEvents_foldl_addIdentity s _)
  · rw [← run_of_seen s h.seen, privileged_run]
  · rw [nodes_foldl_addIdentity]
    refine (Keyed.ext_of_lookup s.nodup (Keyed.keys_upserts_of_subset hin hu hkeys).symm ?_).symm
    intro id hmem
    cases hl : Keyed.lookup Identity.id id s.nodes with
    | none => exact absurd hmem (Keyed.lookup_eq_none.mp hl)
    | some a =>
      have hab := h.absorbed id
      have hbare : s.bare id = { a with events := [] } := by
        unfold bare find
        rw [hl]
        rfl
      rw [hbare] at hab
      rw [Keyed.lookup_upserts_some hin hu hl, foldl_mergeIdentity_eq ?_ hab]
      intro i hi
      exact hid i (Keyed.mem_reports.mp hi).1

/-- **A run settles.** -/
theorem settled_run (s : Store) {xs : List Op} (hid : ∀ i ∈ Op.identities xs, i.events = [])
    (hnan : ∀ e ∈ Op.events xs, e.noNaN = true) : (s.run xs).Settled xs where
  seen e he := by
    obtain ⟨k, hk, hke⟩ := KeepFirst.exists_keepFirst (r := Event.goEq) s.seenEvents he
    rw [seenEvents_run]
    refine List.any_eq_true.mpr ⟨k, hk, ?_⟩
    rcases hke with rfl | hke
    · exact Event.goEq_self (hnan k he)
    · exact hke
  present _ hi := isSome_find_run_of_mem s hi
  absorbed id := by
    rw [bare_run s hid]
    exact replays_mergeIdentity (fun i hi => hid i (Keyed.mem_reports.mp hi).1) _

theorem bare_sortEvents (s : Store) (id : GoString) : s.sortEvents.bare id = s.bare id := by
  unfold bare
  rw [find_sortEvents]
  cases s.find id <;> rfl

theorem Settled.sortEvents {s : Store} {xs : List Op} (h : s.Settled xs) :
    s.sortEvents.Settled xs where
  seen := h.seen
  present i hi := by
    rw [find_sortEvents, Option.isSome_map]
    exact h.present i hi
  absorbed id := by
    rw [bare_sortEvents]
    exact h.absorbed id

/-- **Replay.** Repeating a run leaves all identities as they are, whether or not they are read in
between. -/
theorem identities_run_run (s : Store) (xs : List Op)
    (hid : ∀ i ∈ Op.identities xs, i.events = []) (hnan : ∀ e ∈ Op.events xs, e.noNaN = true) :
    ((s.run xs).run xs).identities = (s.run xs).identities ∧
      ((s.run xs).sortEvents.run xs).identities = (s.run xs).identities := by
  have h := settled_run s hid hnan
  rw [run_of_settled hid h, run_of_settled hid h.sortEvents, identities_sortEvents]
  exact ⟨rfl, rfl⟩

end Store

end Idryx
