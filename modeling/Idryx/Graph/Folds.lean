import Idryx.Graph.Store

/-!
# What folds of operations leave at an id

* **`find_updates`**: writes through `ensure`, folded, are the writes to the id in order;
* `find_addIdentities`: the same for reports of identities;
* `Coherent`, **`eventsAt_addEvents`**: the events of an id are the events kept that name it;
* `bare`: a node without its events, which no event changes.
-/

namespace Idryx

theorem events_foldl_mergeIdentity {is : List Identity} (he : ∀ i ∈ is, i.events = [])
    (i : Identity) : (is.foldl mergeIdentity i).events = i.events := by
  induction is generalizing i with
  | nil => rfl
  | cons j is ih =>
    rw [List.foldl_cons, ih fun k hk => he k (List.mem_cons_of_mem _ hk), mergeIdentity,
      he j List.mem_cons_self, List.append_nil]

namespace Store

section Updates

variable {β : Type*} (k : β → GoString) (f : Identity → β → Identity)
  (hf : ∀ i b, (f i b).id = i.id)

/-- Write each of `bs` through `ensure` to the identity it names. -/
def updates (s : Store) (bs : List β) : Store :=
  bs.foldl (fun s b => s.update (k b) (f · b) fun i => hf i b) s

theorem privileged_updates (s : Store) (bs : List β) :
    (s.updates k f hf bs).privileged = s.privileged := by
  induction bs generalizing s with
  | nil => rfl
  | cons b bs ih => exact ih _

theorem seenEvents_updates (s : Store) (bs : List β) :
    (s.updates k f hf bs).seenEvents = s.seenEvents := by
  induction bs generalizing s with
  | nil => rfl
  | cons b bs ih => exact ih _

theorem find_updates_some {s : Store} {id : GoString} {i : Identity} (h : s.find id = some i)
    (bs : List β) :
    (s.updates k f hf bs).find id = some ((Keyed.reports k id bs).foldl f i) := by
  induction bs generalizing s i with
  | nil => exact h
  | cons b bs ih =>
    rw [Keyed.reports_cons]
    by_cases hb : k b = id
    · rw [if_pos hb, List.foldl_cons]
      refine ih ?_
      rw [find_update, if_pos hb.symm, hb, h]
      rfl
    · rw [if_neg hb]
      refine ih ?_
      rw [find_update, if_neg (Ne.symm hb), h]

/-- **What writes leave at an id**: they are folded into its node, or into a fresh one. -/
theorem find_updates (s : Store) (id : GoString) (bs : List β) :
    (s.updates k f hf bs).find id =
      if Keyed.reports k id bs = [] then s.find id
      else some ((Keyed.reports k id bs).foldl f ((s.find id).getD (s.fresh id))) := by
  induction bs generalizing s with
  | nil => rfl
  | cons b bs ih =>
    rw [Keyed.reports_cons]
    by_cases hb : k b = id
    · have hfind : (s.update (k b) (f · b) fun i => hf i b).find id =
          some (f ((s.find id).getD (s.fresh id)) b) := by
        rw [find_update, if_pos hb.symm, hb]
      rw [if_pos hb, if_neg (List.cons_ne_nil _ _), List.foldl_cons]
      exact find_updates_some k f hf hfind bs
    · have hfind : (s.update (k b) (f · b) fun i => hf i b).find id = s.find id := by
        rw [find_update, if_neg (Ne.symm hb)]
      rw [if_neg hb]
      refine (ih _).trans ?_
      rw [hfind]
      rfl

theorem find_updates_congr {s t : Store} {id : GoString} (hp : s.privileged id = t.privileged id)
    (h : s.find id = t.find id) {bs bs' : List β}
    (hb : Keyed.reports k id bs = Keyed.reports k id bs') :
    (s.updates k f hf bs).find id = (t.updates k f hf bs').find id := by
  have hfresh : s.fresh id = t.fresh id := by rw [fresh, fresh, hp]
  rw [find_updates, find_updates, h, hb, hfresh]

end Updates

theorem find_addIdentities (s : Store) (id : GoString) (is : List Identity) :
    (is.foldl addIdentity s).find id =
      if Keyed.reports Identity.id id is = [] then s.find id
      else some ((Keyed.reports Identity.id id is).foldl mergeIdentity
        ((s.find id).getD (s.fresh id))) :=
  find_updates Identity.id mergeIdentity mergeIdentity_id s id is

theorem seenEvents_addIdentities (s : Store) (is : List Identity) :
    (is.foldl addIdentity s).seenEvents = s.seenEvents :=
  seenEvents_updates Identity.id mergeIdentity mergeIdentity_id s is

/-! ## Events -/

/-- The events of an id in stored order. -/
def eventsAt (s : Store) (id : GoString) : List Event := ((s.find id).map Identity.events).getD []

/-- Each identity holds the events seen that name it, in the order they were seen. -/
def Coherent (s : Store) : Prop :=
  ∀ id, s.eventsAt id = s.seenEvents.filter fun e => e.identityID = id

theorem coherent_new (p : GoString → Bool) : (new p).Coherent := fun _ => rfl

theorem eventsAt_update (s : Store) (id j : GoString) (f : Identity → Identity)
    (hf : ∀ i, (f i).id = i.id) (he : ∀ i, (f i).events = i.events) :
    (s.update id f hf).eventsAt j = s.eventsAt j := by
  unfold eventsAt
  rw [find_update]
  by_cases h : j = id
  · rw [if_pos h, h]
    cases hs : s.find id with
    | none =>
      rw [Option.map_some, Option.getD_some, he]
      rfl
    | some i =>
      rw [Option.map_some, Option.getD_some, he]
      rfl
  · rw [if_neg h]

theorem coherent_updates {β : Type*} (k : β → GoString) (f : Identity → β → Identity)
    (hf : ∀ i b, (f i b).id = i.id) (he : ∀ i b, (f i b).events = i.events) {s : Store}
    (hs : s.Coherent) (bs : List β) : (s.updates k f hf bs).Coherent := by
  induction bs generalizing s with
  | nil => exact hs
  | cons b bs ih =>
    refine ih fun id => ?_
    rw [eventsAt_update _ _ _ _ _ fun i => he i b]
    exact hs id

theorem coherent_addIdentities {s : Store} (hs : s.Coherent) {is : List Identity}
    (he : ∀ i ∈ is, i.events = []) : (is.foldl addIdentity s).Coherent := by
  induction is generalizing s with
  | nil => exact hs
  | cons i is ih =>
    refine ih (fun id => ?_) fun j hj => he j (List.mem_cons_of_mem _ hj)
    have hi : ∀ j, (mergeIdentity j i).events = j.events := by
      intro j
      simp only [mergeIdentity, he i List.mem_cons_self, List.append_nil]
    rw [addIdentity, eventsAt_update _ _ _ _ _ hi]
    exact hs id

theorem coherent_addEvent {s : Store} (hs : s.Coherent) (e : Event) : (s.addEvent e).Coherent := by
  intro id
  have hid := hs id
  unfold addEvent
  split_ifs
  · exact hid
  · unfold eventsAt at hid ⊢
    rw [find_update]
    change _ = (s.seenEvents ++ [e]).filter _
    rw [List.filter_append, ← hid]
    by_cases h : e.identityID = id
    · subst h
      rw [if_pos rfl, Option.map_some, Option.getD_some]
      change ((s.find e.identityID).getD (s.fresh e.identityID)).events ++ [e] = _
      cases s.find e.identityID <;> simp [fresh, Identity.zero]
    · rw [if_neg (Ne.symm h)]
      change ((s.find id).map Identity.events).getD [] = _
      simp [h]

theorem coherent_addEvents {s : Store} (hs : s.Coherent) (es : List Event) :
    (es.foldl addEvent s).Coherent :=
  List.foldlRecOn (motive := fun s : Store => s.Coherent) es _ hs fun _ hs e _ => coherent_addEvent hs e

theorem seenEvents_addEvents (s : Store) (es : List Event) :
    (es.foldl addEvent s).seenEvents = KeepFirst.keepFirst Event.goEq s.seenEvents es := by
  induction es generalizing s with
  | nil => rfl
  | cons e es ih =>
    rw [List.foldl_cons, ih, seenEvents_addEvent]
    exact (KeepFirst.keepFirst_append Event.goEq s.seenEvents [e] es).symm

/-- **The events of an id after a fold of events.** -/
theorem eventsAt_addEvents {s : Store} (hs : s.Coherent) (es : List Event) (id : GoString) :
    (es.foldl addEvent s).eventsAt id =
      (KeepFirst.keepFirst Event.goEq s.seenEvents es).filter fun e => e.identityID = id := by
  rw [coherent_addEvents hs es id, seenEvents_addEvents]

/-! ## Which identities there are -/

/-- Each event seen is of an identity in the graph. -/
def Rooted (s : Store) : Prop := ∀ e ∈ s.seenEvents, (s.find e.identityID).isSome = true

theorem rooted_new (p : GoString → Bool) : (new p).Rooted := fun _ he => absurd he List.not_mem_nil

theorem Coherent.rooted {s : Store} (hs : s.Coherent) : s.Rooted := by
  intro e he
  have hmem : e ∈ s.eventsAt e.identityID := by
    rw [hs e.identityID]
    simp [he]
  cases hfind : s.find e.identityID with
  | none =>
    rw [eventsAt, hfind] at hmem
    cases hmem
  | some i => rfl

theorem isSome_find_addEvent {s : Store} (hs : s.Rooted) (e : Event) (id : GoString) :
    ((s.addEvent e).find id).isSome = true ↔
      (s.find id).isSome = true ∨ e.identityID = id := by
  unfold addEvent
  by_cases h : s.seenEvents.any (Event.goEq · e) = true
  · rw [if_pos h]
    constructor
    · exact Or.inl
    · rintro (hf | rfl)
      · exact hf
      · -- an event seen has left a node behind
        obtain ⟨k, hk, hke⟩ := List.any_eq_true.mp h
        rw [← ((Event.goEq_iff k e).mp hke).2.1]
        exact hs k hk
  · rw [if_neg h, find_update]
    by_cases hid : id = e.identityID
    · simp [hid]
    · rw [if_neg hid]
      change (s.find id).isSome = true ↔ _
      simp [Ne.symm hid]

theorem rooted_addEvent {s : Store} (hs : s.Rooted) (e : Event) : (s.addEvent e).Rooted := by
  intro k hk
  rw [isSome_find_addEvent hs]
  rw [seenEvents_addEvent] at hk
  rcases KeepFirst.mem_of_mem_keepFirst hk with hk | hk
  · exact Or.inl (hs k hk)
  · exact Or.inr (congrArg Event.identityID (List.mem_singleton.mp hk).symm)

theorem isSome_find_addEvents {s : Store} (hs : s.Rooted) (es : List Event) (id : GoString) :
    ((es.foldl addEvent s).find id).isSome = true ↔
      (s.find id).isSome = true ∨ ∃ e ∈ es, e.identityID = id := by
  induction es generalizing s with
  | nil => simp
  | cons e es ih =>
    rw [List.foldl_cons, ih (rooted_addEvent hs e), isSome_find_addEvent hs, or_assoc]
    simp only [List.mem_cons, exists_eq_or_imp]

theorem isSome_find_addIdentity (s : Store) (i : Identity) (id : GoString) :
    ((s.addIdentity i).find id).isSome = true ↔ (s.find id).isSome = true ∨ i.id = id := by
  rw [find_addIdentity]
  by_cases hid : id = i.id
  · simp [hid]
  · simp [hid, Ne.symm hid]

theorem rooted_addIdentity {s : Store} (hs : s.Rooted) (i : Identity) : (s.addIdentity i).Rooted :=
  fun e he => (isSome_find_addIdentity s i e.identityID).mpr (Or.inl (hs e he))

/-! ## Histories -/

/-- The events of an id as `Identities` returns them. -/
def history (s : Store) (id : GoString) : List Event :=
  ((Keyed.lookup Identity.id id s.identities).map Identity.events).getD []

theorem lookup_identities (s : Store) (id : GoString) :
    Keyed.lookup Identity.id id s.identities = (s.find id).map Identity.chronological := by
  have hperm := List.perm_insertionSort (fun a b : Identity => a.id ≤ b.id)
    (s.nodes.map Identity.chronological)
  rw [identities, Keyed.lookup_perm hperm s.nodup_identities]
  exact List.find?_map ..

theorem history_eq (s : Store) (id : GoString) :
    s.history id = (s.eventsAt id).insertionSort Event.notAfter := by
  unfold history eventsAt
  rw [lookup_identities]
  cases s.find id <;> rfl

/-! ## The rest of a node -/

/-- The node of an id before its events, the one it would be created with if it is absent. -/
def bare (s : Store) (id : GoString) : Identity :=
  { (s.find id).getD (s.fresh id) with events := [] }

theorem bare_addEvent (s : Store) (e : Event) (id : GoString) :
    (s.addEvent e).bare id = s.bare id := by
  unfold addEvent
  split_ifs with h
  · rfl
  · unfold bare
    rw [find_update]
    split_ifs with hid
    · subst hid
      rfl
    · rfl

theorem bare_addIdentity (s : Store) {i : Identity} (he : i.events = []) (id : GoString) :
    (s.addIdentity i).bare id = if i.id = id then mergeIdentity (s.bare id) i else s.bare id := by
  unfold bare
  rw [find_addIdentity]
  by_cases hid : i.id = id
  · subst hid
    rw [if_pos rfl, if_pos rfl, Option.getD_some]
    simp only [mergeIdentity, he, List.append_nil]
  · rw [if_neg (Ne.symm hid), if_neg hid]
    rfl

theorem bare_addEvents (s : Store) (es : List Event) (id : GoString) :
    (es.foldl addEvent s).bare id = s.bare id :=
  Loop.foldl_fixed (f := fun s : Store => s.bare id) (fun s e _ => bare_addEvent s e id) s

end Store

end Idryx
