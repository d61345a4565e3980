import Idryx.Graph.Replay

/-!
# The order of loading

What `Identities` returns does not depend on how the calls that built the graph were interleaved, action lists
being values; `Graph/Sliced` says when they may be taken so.

* `isSome_find_run_iff`, `eventsAt_run`: what a run of calls leaves, by its events and its identities;
* `Reordering`: the same calls, with the reports of an id, and the events of an identity at one instant,
  in the same order;
* **`identities_run_reordering`**.
-/

namespace Idryx

namespace Store

/-! ## What a run leaves -/

theorem coherent_apply {s : Store} (hs : s.Coherent) {x : Op}
    (he : ∀ i ∈ Op.identities [x], i.events = []) : (s.apply x).Coherent := by
  cases x with
  | event e => exact coherent_addEvent hs e
  | identity i =>
    have hi : (([i] : List Identity).foldl addIdentity s).Coherent := coherent_addIdentities hs he
    exact hi

theorem coherent_run {s : Store} (hs : s.Coherent) {xs : List Op}
    (he : ∀ i ∈ Op.identities xs, i.events = []) : (s.run xs).Coherent := by
  induction xs generalizing s with
  | nil => exact hs
  | cons x xs ih =>
    have hcons : Op.identities (x :: xs) = Op.identities [x] ++ Op.identities xs := by
      cases x <;> rfl
    rw [hcons] at he
    refine ih (coherent_apply hs fun i hi => he i ?_) fun i hi => he i ?_
    · exact List.mem_append_left _ hi
    · exact List.mem_append_right _ hi

/-- **The events of an id after a run**: the first of each key, among those that name the id. -/
theorem eventsAt_run {s : Store} (hs : s.Coherent) {xs : List Op}
    (he : ∀ i ∈ Op.identities xs, i.events = []) (id : GoString) : (s.run xs).eventsAt id =
      (KeepFirst.keepFirst Event.goEq s.seenEvents (Op.events xs)).filter fun e => e.identityID = id := by
  rw [coherent_run hs he, seenEvents_run]

theorem isSome_find_run_iff {s : Store} (hs : s.Rooted) (xs : List Op) (id : GoString) :
    ((s.run xs).find id).isSome = true ↔ (s.find id).isSome = true ∨
      (∃ e ∈ Op.events xs, e.identityID = id) ∨ ∃ i ∈ Op.identities xs, i.id = id := by
  induction xs generalizing s with
  | nil => simp [run, Op.events, Op.identities]
  | cons x xs ih =>
    cases x with
    | event e =>
      change (((s.addEvent e).run xs).find id).isSome = true ↔ _
      rw [ih (rooted_addEvent hs e), isSome_find_addEvent hs]
      change _ ↔ _ ∨ (∃ e' ∈ e :: Op.events xs, e'.identityID = id) ∨ ∃ i ∈ Op.identities xs, i.id = id
      rw [List.exists_mem_cons_iff]
      simp only [or_assoc]
    | identity i =>
      change (((s.addIdentity i).run xs).find id).isSome = true ↔ _
      rw [ih (rooted_addIdentity hs i), isSome_find_addIdentity]
      change _ ↔ _ ∨ (∃ e ∈ Op.events xs, e.identityID = id) ∨ ∃ j ∈ i :: Op.identities xs, j.id = id
      rw [List.exists_mem_cons_iff, or_assoc]
      exact or_congr_right or_left_comm

theorem lookup_identities_eq (s : Store) (id : GoString) : Keyed.lookup Identity.id id s.identities =
    if (s.find id).isSome then some { s.bare id with events := s.history id } else none := by
  rw [lookup_identities, history_eq, eventsAt, bare]
  cases s.find id <;> rfl

theorem identities_forall₂ {R : Identity → Identity → Prop} {s t : Store}
    (h : ∀ id, Option.Rel R (Keyed.lookup Identity.id id s.identities)
      (Keyed.lookup Identity.id id t.identities)) : List.Forall₂ R s.identities t.identities := by
  have hsorted : ∀ u : Store, (u.identities.map Identity.id).Pairwise (· ≤ ·) := by
    intro u
    rw [List.pairwise_map]
    exact List.pairwise_insertionSort (fun a b : Identity => a.id ≤ b.id) _
  have hperm : (s.identities.map Identity.id).Perm (t.identities.map Identity.id) := by
    rw [List.perm_ext_iff_of_nodup s.nodup_identities t.nodup_identities]
    intro id
    have hrel := h id
    cases hs : Keyed.lookup Identity.id id s.identities with
    | none =>
      rw [hs] at hrel
      cases ht : Keyed.lookup Identity.id id t.identities with
      | none => exact iff_of_false (Keyed.lookup_eq_none.mp hs) (Keyed.lookup_eq_none.mp ht)
      | some j =>
        rw [ht] at hrel
        cases hrel
    | some i =>
      rw [hs] at hrel
      cases ht : Keyed.lookup Identity.id id t.identities with
      | none =>
        rw [ht] at hrel
        cases hrel
      | some j =>
        refine iff_of_true ?_ ?_
        · exact Keyed.lookup_key hs ▸ List.mem_map_of_mem (Keyed.mem_of_lookup hs)
        · exact Keyed.lookup_key ht ▸ List.mem_map_of_mem (Keyed.mem_of_lookup ht)
  refine Keyed.forall₂_of_lookup s.nodup_identities
    (hperm.eq_of_pairwise' (hsorted s) (hsorted t)) fun id i j hi hj => ?_
  have hrel := h id
  rw [hi, hj] at hrel
  cases hrel with
  | some hij => exact hij

theorem identities_ext {s t : Store}
    (h : ∀ id, Keyed.lookup Identity.id id s.identities = Keyed.lookup Identity.id id t.identities) :
    s.identities = t.identities := by
  rw [← List.forall₂_eq_eq_eq]
  refine identities_forall₂ fun id => ?_
  rw [h id]
  cases Keyed.lookup Identity.id id t.identities with
  | none => exact Option.Rel.none
  | some i => exact Option.Rel.some rfl

end Store

/-! ## Reordering -/

/-- The same calls in another order, that of the reports of each id and of the events of each identity
at each instant apart. -/
structure Reordering (xs ys : List Op) : Prop where
  perm : xs.Perm ys
  reports : ∀ id, Keyed.reports Identity.id id (Op.identities xs) =
    Keyed.reports Identity.id id (Op.identities ys)
  ties : ∀ id t, (Op.events xs).filter (fun e => e.identityID = id ∧ e.time.instant = t) =
    (Op.events ys).filter fun e => e.identityID = id ∧ e.time.instant = t

namespace Store

theorem history_run_reordering (p : GoString → Bool) {xs ys : List Op} (h : Reordering xs ys)
    (hx : ∀ i ∈ Op.identities xs, i.events = []) (hy : ∀ i ∈ Op.identities ys, i.events = [])
    (id : GoString) : ((new p).run xs).history id = ((new p).run ys).history id := by
  have hties : ∀ {zs : List Op}, (∀ i ∈ Op.identities zs, i.events = []) → ∀ t : Int,
      (((new p).run zs).history id).filter (fun e => e.time.instant = t) =
        (KeepFirst.keepFirst Event.goEq [] ((Op.events zs).filter fun e =>
          e.identityID = id ∧ e.time.instant = t)).insertionSort Event.notAfter := by
    intro zs hz t
    have hkey : ∀ a b : Event, a.goEq b = true →
        decide (a.identityID = id ∧ a.time.instant = t) =
          decide (b.identityID = id ∧ b.time.instant = t) := by
      intro a b hab
      obtain ⟨htime, hid, -⟩ := (Event.goEq_iff a b).mp hab
      rw [htime, hid]
    have hkept := KeepFirst.filter_keepFirst hkey [] (Op.events zs)
    rw [history_eq, eventsAt_run (coherent_new p) hz, StableSort.filter_insertionSort, List.filter_filter]
    rw [List.filter_nil] at hkept
    rw [← hkept]
    congr 2
    funext e
    rw [Bool.and_comm, Bool.decide_and]
  have hsorted : ∀ s : Store, (s.history id).Pairwise fun a b => a.time.instant ≤ b.time.instant := by
    intro s
    rw [history_eq]
    exact List.pairwise_insertionSort Event.notAfter _
  refine StableSort.eq_of_filter_eq (fun e : Event => e.time.instant) (hsorted _) (hsorted _) fun t => ?_
  rw [hties hx, hties hy, h.ties]

/-- **Load-order independence.** Calls that are reordered, the reports of each id and the events of each
identity at one instant keeping their order, leave the same graph to read. -/
theorem identities_run_reordering (p : GoString → Bool) {xs ys : List Op} (h : Reordering xs ys)
    (he : ∀ i ∈ Op.identities xs, i.events = []) :
    ((new p).run xs).identities = ((new p).run ys).identities := by
  have hmem : ∀ i, i ∈ Op.identities ys → i ∈ Op.identities xs := by
    intro i hi
    exact (h.perm.filterMap _).mem_iff.mpr hi
  have hy : ∀ i ∈ Op.identities ys, i.events = [] := fun i hi => he i (hmem i hi)
  apply identities_ext
  intro id
  have hsome : (((new p).run xs).find id).isSome = (((new p).run ys).find id).isSome := by
    rw [Bool.eq_iff_iff, isSome_find_run_iff (rooted_new p), isSome_find_run_iff (rooted_new p)]
    have hev : ∀ e, e ∈ Op.events xs ↔ e ∈ Op.events ys := fun e => (h.perm.filterMap _).mem_iff
    have hid : ∀ i, i ∈ Op.identities xs ↔ i ∈ Op.identities ys := fun i => (h.perm.filterMap _).mem_iff
    simp only [hev, hid]
  rw [lookup_identities_eq, lookup_identities_eq, hsome, bare_run _ he, bare_run _ hy, h.reports,
    history_run_reordering p h he hy]

end Store

end Idryx
