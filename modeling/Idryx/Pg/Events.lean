import Idryx.Pg.Snapshot

/-!
# Events through the database

What `Ingest` and `Snapshot` make of a sequence of events, against `AddEvent`.

* `EventTable`: the table after a sequence of events; **`eventTable_run`**: one statement keeps it;
* `history_snapshot`, `history_addEvents`: the two histories of an id as sorted, filtered lists of
  first occurrences, under the table's key and under `==`;
* **`ingest_refines_iff`**: when the two agree.
-/

namespace Idryx

/-- Equal in every field, the times as instants. -/
def Event.Same (a b : Event) : Prop :=
  a.time.instant = b.time.instant ∧ { a with time := b.time } = b

/-- Two stores know the same identities, each with the same events in the same order. -/
def SameHistories (s t : Store) : Prop :=
  (∀ id, (s.find id).isSome = (t.find id).isSome) ∧
    ∀ id, List.Forall₂ Event.Same (s.history id) (t.history id)

/-- The texts of an event fit `TEXT` columns. -/
def Event.storable (e : Event) : Bool := (Pg.Stmt.insertEvent e).storable

namespace Pg

/-- Equality of two events under the unique index of the table. -/
def sameKey (a b : Event) : Bool := (EventCols.ofEvent a).sameKey (EventCols.ofEvent b)

/-- The event that comes back for one that was stored. -/
def stored (e : Event) : Event := (EventCols.ofEvent e).toEvent

/-! ## The key -/

theorem EventCols.sameKey_iff (a b : EventCols) : a.sameKey b = true ↔
    a.identityID = b.identityID ∧ a.ts = b.ts ∧ a.type = b.type ∧ a.outcome = b.outcome ∧
      a.ip = b.ip ∧ a.city = b.city ∧ a.country = b.country ∧ a.lat.pgEq b.lat = true ∧
      a.lon.pgEq b.lon = true ∧ a.device = b.device ∧ a.resource = b.resource ∧
      a.severity = b.severity := by
  simp [EventCols.sameKey, and_assoc]

theorem EventCols.sameKey_self (a : EventCols) : a.sameKey a = true := by
  simp [EventCols.sameKey_iff, F64.pgEq_self]

theorem EventCols.sameKey_symm {a b : EventCols} (h : a.sameKey b = true) :
    b.sameKey a = true := by
  rw [EventCols.sameKey_iff] at h ⊢
  obtain ⟨h1, h2, h3, h4, h5, h6, h7, h8, h9, h10, h11, h12⟩ := h
  exact ⟨h1.symm, h2.symm, h3.symm, h4.symm, h5.symm, h6.symm, h7.symm, F64.pgEq_symm h8,
    F64.pgEq_symm h9, h10.symm, h11.symm, h12.symm⟩

theorem EventCols.sameKey_trans {a b c : EventCols} (h : a.sameKey b = true)
    (h' : b.sameKey c = true) : a.sameKey c = true := by
  rw [EventCols.sameKey_iff] at h h' ⊢
  obtain ⟨h1, h2, h3, h4, h5, h6, h7, h8, h9, h10, h11, h12⟩ := h
  obtain ⟨k1, k2, k3, k4, k5, k6, k7, k8, k9, k10, k11, k12⟩ := h'
  exact ⟨h1.trans k1, h2.trans k2, h3.trans k3, h4.trans k4, h5.trans k5, h6.trans k6,
    h7.trans k7, F64.pgEq_trans h8 k8, F64.pgEq_trans h9 k9, h10.trans k10, h11.trans k11,
    h12.trans k12⟩

theorem sameKey_of_goEq {a b : Event} (h : a.goEq b = true) : sameKey a b = true := by
  rw [Event.goEq_iff] at h
  obtain ⟨h1, h2, h3, h4, h5, h6, h7, h8, h9, h10, h11, h12, -⟩ := h
  refine (EventCols.sameKey_iff _ _).mpr ⟨h2, ?_, h3, h4, h5, h6, h7, F64.pgEq_of_goEq h8,
    F64.pgEq_of_goEq h9, h10, h11, h12⟩
  change timestamptz a.time = timestamptz b.time
  rw [h1]

/-- **The two keys keep the same events** exactly when no two events share only the table's. -/
theorem keepFirst_sameKey_iff (es : List Event) :
    KeepFirst.keepFirst sameKey [] es = KeepFirst.keepFirst Event.goEq [] es ↔
      es.Pairwise fun a b => sameKey a b = true → a.goEq b = true := by
  refine KeepFirst.keepFirst_eq_iff ?_ ?_ ?_ ?_ ?_ ?_ es
  · intro a b h
    exact sameKey_of_goEq h
  · intro a b c hab hbc
    exact EventCols.sameKey_trans hab hbc
  · intro a b h
    exact Event.goEq_symm h
  · intro a b c hab hbc
    exact Event.goEq_trans hab hbc
  · intro a
    exact EventCols.sameKey_self _
  · intro a b h
    exact EventCols.sameKey_symm h

theorem sameKey_of_goEq_toEvent {a b : EventCols} (h : a.toEvent.goEq b.toEvent = true) :
    a.sameKey b = true := by
  rw [Event.goEq_iff] at h
  obtain ⟨h1, h2, h3, h4, h5, h6, h7, h8, h9, h10, h11, h12, -⟩ := h
  refine (EventCols.sameKey_iff _ _).mpr ⟨h2, ?_, h3, h4, h5, h6, h7, F64.pgEq_of_goEq h8,
    F64.pgEq_of_goEq h9, h10, h11, h12⟩
  have hinst := congrArg Time.instant h1
  simp only [EventCols.toEvent, Time.ofTimestamptz_instant] at hinst
  omega

/-! ## The table -/

/-- The table after the events `es`: the first of each key, numbered in order. -/
structure EventTable (db : Db) (es : List Event) : Prop where
  cols : db.events.map EventRow.cols =
    KeepFirst.keepFirst EventCols.sameKey [] (es.map EventCols.ofEvent)
  increasing : db.events.Pairwise fun a b => a.id < b.id
  below : ∀ r ∈ db.events, r.id < db.nextEventID

/-- The event a statement inserts. -/
def Stmt.event? : Stmt → Option Event
  | .insertEvent e => some e
  | _ => none

theorem eventTable_insert {db : Db} {es : List Event} (h : EventTable db es) (e : Event) :
    EventTable ((Stmt.insertEvent e).run db) (es ++ [e]) := by
  have hany : db.events.any (·.cols.sameKey (EventCols.ofEvent e)) =
      (KeepFirst.keepFirst EventCols.sameKey [] (es.map EventCols.ofEvent)).any
        (·.sameKey (EventCols.ofEvent e)) := by
    rw [← h.cols, List.any_map]
    rfl
  refine ⟨?_, ?_, ?_⟩
  · rw [List.map_append, List.map_singleton, KeepFirst.keepFirst_concat, ← hany, ← h.cols]
    simp only [Stmt.run]
    split_ifs
    · rfl
    · rw [List.map_append, List.map_singleton]
  · simp only [Stmt.run]
    split_ifs
    · exact h.increasing
    · refine List.pairwise_append.mpr ⟨h.increasing, List.pairwise_singleton _ _, ?_⟩
      intro a ha b hb
      rw [List.mem_singleton.mp hb]
      exact h.below a ha
  · intro r hr
    simp only [Stmt.run] at hr ⊢
    split_ifs at hr
    · exact Nat.lt_succ_of_lt (h.below r hr)
    · rcases List.mem_append.mp hr with hr | hr
      · exact Nat.lt_succ_of_lt (h.below r hr)
      · rw [List.mem_singleton.mp hr]
        exact Nat.lt_succ_self _

/-- **A statement keeps the table**, adding the event it inserts. -/
theorem eventTable_run {db : Db} {es : List Event} (h : EventTable db es) (st : Stmt) :
    EventTable (st.run db) (es ++ st.event?.toList) := by
  cases st with
  | insertEvent e => exact eventTable_insert h e
  | _ =>
    change EventTable _ (es ++ [])
    rw [List.append_nil]
    exact ⟨h.cols, h.increasing, h.below⟩

theorem eventTable_foldl {db : Db} {es : List Event} (h : EventTable db es) (stmts : List Stmt) :
    EventTable (stmts.foldl Stmt.run db) (es ++ stmts.filterMap Stmt.event?) := by
  induction stmts generalizing db es with
  | nil =>
    rw [List.filterMap_nil, List.append_nil]
    exact h
  | cons st stmts ih =>
    have hcons : (st :: stmts).filterMap Stmt.event? =
        st.event?.toList ++ stmts.filterMap Stmt.event? := by
      rw [List.filterMap_cons]
      cases st.event? <;> rfl
    rw [hcons, ← List.append_assoc]
    exact ih (eventTable_run h st)

theorem eventTable_empty : EventTable Db.empty [] := ⟨rfl, List.Pairwise.nil, by simp [Db.empty]⟩

/-! ## What `Ingest` leaves -/

theorem filterMap_event_ingestFrom (p : GoString → Bool) (seen : List GoString)
    (es : List Event) : (ingestFrom p seen es).filterMap Stmt.event? = es := by
  induction es generalizing seen with
  | nil => rfl
  | cons e es ih =>
    rw [ingestFrom]
    split_ifs
    · exact congrArg (e :: ·) (ih seen)
    · exact congrArg (e :: ·) (ih (e.identityID :: seen))

/-- A database that holds events and rows for the identities they name, nothing else. -/
structure EventsOnly (db : Db) (ids : GoString → Prop) : Prop where
  identities : ∀ r ∈ db.identities, ids r.id
  onBehalfOf : db.onBehalfOf = []
  declaredModels : db.declaredModels = []
  permissions : db.permissions = []

/-- A statement of `Ingest` about an identity of `ids`. -/
def Stmt.IsIngest (ids : GoString → Prop) (st : Stmt) : Prop :=
  (∃ id p, st = .upsertPrivileged id p ∧ ids id) ∨ ∃ e, st = .insertEvent e

theorem eventsOnly_run {db : Db} {ids : GoString → Prop} (h : EventsOnly db ids) {st : Stmt}
    (hst : st.IsIngest ids) : EventsOnly (st.run db) ids := by
  obtain ⟨id, p, rfl, hid⟩ | ⟨e, rfl⟩ := hst
  · refine ⟨fun r hr => ?_, h.onBehalfOf, h.declaredModels, h.permissions⟩
    have hi : (IdentityRow.blank id p).id = id := rfl
    have hu : ∀ r : IdentityRow, r.id = id →
        ({ r with privileged := r.privileged || p } : IdentityRow).id = id := fun _ h => h
    have hmem : r.id ∈ ((Stmt.upsertPrivileged id p).run db).identities.map IdentityRow.id :=
      List.mem_map_of_mem hr
    rcases (Keyed.mem_keys_upsert hi hu).mp hmem with hmem | hmem
    · obtain ⟨r', hr', heq⟩ := List.mem_map.mp hmem
      exact heq ▸ h.identities r' hr'
    · exact hmem ▸ hid
  · exact ⟨h.identities, h.onBehalfOf, h.declaredModels, h.permissions⟩

theorem eventsOnly_foldl {db : Db} {ids : GoString → Prop} (h : EventsOnly db ids)
    {stmts : List Stmt} (hst : ∀ st ∈ stmts, st.IsIngest ids) :
    EventsOnly (stmts.foldl Stmt.run db) ids := by
  induction stmts generalizing db with
  | nil => exact h
  | cons st stmts ih =>
    refine ih (eventsOnly_run h (hst st List.mem_cons_self)) fun st' hst' => ?_
    exact hst st' (List.mem_cons_of_mem _ hst')

theorem isIngest_ingestFrom (p : GoString → Bool) (seen : List GoString) (es : List Event) :
    ∀ st ∈ ingestFrom p seen es, st.IsIngest fun id => ∃ e ∈ es, e.identityID = id := by
  induction es generalizing seen with
  | nil => simp [ingestFrom]
  | cons e es ih =>
    have hmono : ∀ {seen : List GoString} (st : Stmt), st ∈ ingestFrom p seen es →
        st.IsIngest fun id => ∃ e' ∈ e :: es, e'.identityID = id := by
      intro seen st hst
      refine (ih seen st hst).imp ?_ id
      rintro ⟨id, q, rfl, e', he', hid⟩
      exact ⟨id, q, rfl, e', List.mem_cons_of_mem _ he', hid⟩
    intro st hst
    rw [ingestFrom] at hst
    split_ifs at hst
    · rcases List.mem_cons.mp hst with rfl | hst
      · exact Or.inr ⟨e, rfl⟩
      · exact hmono st hst
    · rcases List.mem_cons.mp hst with rfl | hst
      · exact Or.inl ⟨_, _, rfl, e, List.mem_cons_self, rfl⟩
      · rcases List.mem_cons.mp hst with rfl | hst
        · exact Or.inr ⟨e, rfl⟩
        · exact hmono st hst

/-- The statements of one transaction after another. -/
def ingestAll (txs : List (List Event × (GoString → Bool))) : List (List Stmt) :=
  txs.map fun tx => ingest tx.1 tx.2

/-- The events of all transactions. -/
def eventsOf (txs : List (List Event × (GoString → Bool))) : List Event := txs.flatMap Prod.fst

theorem filterMap_event_ingestAll (txs : List (List Event × (GoString → Bool))) :
    (ingestAll txs).flatten.filterMap Stmt.event? = eventsOf txs := by
  induction txs with
  | nil => rfl
  | cons tx txs ih =>
    rw [ingestAll, List.map_cons, List.flatten_cons, List.filterMap_append, ingest,
      filterMap_event_ingestFrom]
    exact congrArg (tx.1 ++ ·) ih

theorem isIngest_ingestAll (txs : List (List Event × (GoString → Bool))) :
    ∀ st ∈ (ingestAll txs).flatten,
      st.IsIngest fun id => ∃ e ∈ eventsOf txs, e.identityID = id := by
  intro st hst
  obtain ⟨stmts, hstmts, hst⟩ := List.mem_flatten.mp hst
  obtain ⟨tx, htx, rfl⟩ := List.mem_map.mp hstmts
  refine (isIngest_ingestFrom tx.2 [] tx.1 st hst).imp ?_ id
  rintro ⟨id, q, rfl, e, he, hid⟩
  exact ⟨id, q, rfl, e, List.mem_flatMap.mpr ⟨tx, htx, he⟩, hid⟩

/-- **The database after a sequence of `Ingest` calls.** -/
theorem commitAll_ingest {txs : List (List Event × (GoString → Bool))}
    (hs : ∀ e ∈ eventsOf txs, e.storable = true) : ∃ db,
      commitAll Db.empty (ingestAll txs) = .ok db ∧ EventTable db (eventsOf txs) ∧
        EventsOnly db fun id => ∃ e ∈ eventsOf txs, e.identityID = id := by
  refine ⟨(ingestAll txs).flatten.foldl Stmt.run Db.empty, commitAll_eq_ok.mpr ⟨?_, rfl⟩, ?_, ?_⟩
  · intro st hst
    have hid : ∀ e ∈ eventsOf txs, textStorable e.identityID = true := by
      intro e he
      have htexts := hs e he
      simp only [Event.storable, Stmt.storable, Stmt.texts, List.all_cons,
        Bool.and_eq_true] at htexts
      exact htexts.1
    obtain ⟨id, p, rfl, e, he, rfl⟩ | ⟨e, rfl⟩ := isIngest_ingestAll txs st hst
    · simp only [Stmt.storable, Stmt.texts, List.all_cons, List.all_nil, hid e he, Bool.and_self]
    · refine hs e ?_
      rw [← filterMap_event_ingestAll]
      exact List.mem_filterMap.mpr ⟨_, hst, rfl⟩
  · have htable := eventTable_foldl eventTable_empty (ingestAll txs).flatten
    rw [filterMap_event_ingestAll] at htable
    exact htable
  · refine eventsOnly_foldl ⟨?_, rfl, rfl, rfl⟩ (isIngest_ingestAll txs)
    simp [Db.empty]

/-! ## The two histories -/

/-- The order of `ORDER BY ts`. -/
def EventRow.tsLe (a b : EventRow) : Prop := a.cols.ts ≤ b.cols.ts

instance : DecidableRel EventRow.tsLe := fun _ _ => inferInstanceAs (Decidable (_ ≤ _))

theorem filter_sorted_events {db : Db} {es : List Event} (h : EventTable db es) (id : GoString) :
    (db.events.insertionSort EventRow.le).filter (fun r => r.cols.identityID = id) =
      (db.events.filter fun r => r.cols.identityID = id).insertionSort EventRow.tsLe := by
  rw [StableSort.filter_insertionSort]
  refine StableSort.insertionSort_congr ?_
  refine (h.increasing.filter _).imp_of_mem fun {a b} ha hb hab => ?_
  have haid : a.cols.identityID = id := of_decide_eq_true (List.mem_filter.mp ha).2
  have hbid : b.cols.identityID = id := of_decide_eq_true (List.mem_filter.mp hb).2
  simp only [StableSort.orderBy, Function.comp, haid, hbid, true_and, EventRow.tsLe]
  have hirr : ¬ id < id := List.lt_irrefl id
  constructor
  · rintro (hlt | hlt | ⟨heq, -⟩)
    · exact absurd hlt hirr
    · exact hlt.le
    · exact heq.le
  · intro hle
    rcases lt_or_eq_of_le hle with hlt | heq
    · exact Or.inr (Or.inl hlt)
    · exact Or.inr (Or.inr ⟨heq, hab.le⟩)

theorem pairwise_toEvent {db : Db} {es : List Event} (h : EventTable db es) :
    ((db.events.insertionSort EventRow.le).map fun r => r.cols.toEvent).Pairwise
      fun a b => a.goEq b = false := by
  have hkeys : (db.events.map EventRow.cols).Pairwise fun a b => a.sameKey b = false := by
    rw [h.cols]
    exact KeepFirst.keepFirst_pairwise List.Pairwise.nil _
  rw [List.pairwise_map] at hkeys ⊢
  have hsym : ∀ {a b : EventRow}, a.cols.sameKey b.cols = false → b.cols.sameKey a.cols = false := by
    intro a b hab
    rw [Bool.eq_false_iff] at hab ⊢
    exact fun hba => hab (EventCols.sameKey_symm hba)
  refine ((List.perm_insertionSort EventRow.le db.events).symm.pairwise hkeys hsym).imp ?_
  intro a b hab
  rw [Bool.eq_false_iff] at hab ⊢
  exact fun hgo => hab (sameKey_of_goEq_toEvent hgo)

theorem Time.exact_instant {t : Time} (h : t.instant % 1000 = 0) :
    (Time.ofTimestamptz (timestamptz t)).instant = t.instant := by
  rw [Time.ofTimestamptz_instant, timestamptz]
  omega

/-- **The history of an id in a snapshot**: its first events of each key, in time order. -/
theorem history_snapshot (scan : Scan) {db : Db} {es : List Event} (h : EventTable db es)
    (hx : ∀ e ∈ es, e.time.instant % 1000 = 0) (id : GoString) :
    (snapshot scan db).history id =
      (((KeepFirst.keepFirst sameKey [] es).filter fun e => e.identityID = id).insertionSort
        Event.notAfter).map stored := by
  have hrows : db.events.map (fun r => r.cols.toEvent) =
      (KeepFirst.keepFirst sameKey [] es).map stored := by
    have hkeep := KeepFirst.map_keepFirst EventCols.ofEvent EventCols.sameKey [] es
    rw [List.map_nil, ← h.cols] at hkeep
    have hmap := congrArg (List.map EventCols.toEvent) hkeep
    rw [List.map_map, List.map_map] at hmap
    exact hmap.symm
  have hfilter : (db.events.filter fun r => r.cols.identityID = id).map (fun r => r.cols.toEvent) =
      ((KeepFirst.keepFirst sameKey [] es).filter fun e => e.identityID = id).map stored := by
    have hf := congrArg (List.filter fun e => e.identityID = id) hrows
    rw [List.filter_map, List.filter_map] at hf
    exact hf
  have hinst : ∀ e ∈ (KeepFirst.keepFirst sameKey [] es).filter (fun e => e.identityID = id),
      (stored e).time.instant = e.time.instant := by
    intro e he
    have hes := (KeepFirst.mem_of_mem_keepFirst (List.mem_filter.mp he).1).resolve_left
      List.not_mem_nil
    exact Time.exact_instant (hx e hes)
  rw [Store.history_eq, snapshot, eventsAt_snapshotReading, KeepFirst.keepFirst_eq_self
    (by rw [List.nil_append]; exact pairwise_toEvent h), List.nil_append, List.filter_map]
  change List.insertionSort _ (((db.events.insertionSort EventRow.le).filter
    fun r => r.cols.identityID = id).map _) = _
  rw [filter_sorted_events h, List.map_insertionSort EventRow.tsLe Event.notAfter, hfilter,
    List.Pairwise.insertionSort_eq (List.pairwise_insertionSort _ _),
    List.map_insertionSort Event.notAfter Event.notAfter]
  · intro a ha b hb
    unfold Event.notAfter
    rw [hinst a ha, hinst b hb]
  · intro a _ b _
    simp only [EventRow.tsLe, Event.notAfter, EventCols.toEvent, Time.ofTimestamptz_instant]
    omega

/-- **The history of an id in memory**: its first events under `==`, in time order. -/
theorem history_addEvents (p : GoString → Bool) (es : List Event) (id : GoString) :
    (es.foldl Store.addEvent (Store.new p)).history id =
      ((KeepFirst.keepFirst Event.goEq [] es).filter fun e => e.identityID = id).insertionSort
        Event.notAfter := by
  rw [Store.history_eq, Store.eventsAt_addEvents (Store.coherent_new p)]
  rfl

theorem isSome_find_snapshot (scan : Scan) {db : Db} {es : List Event} (h : EventTable db es)
    (honly : EventsOnly db fun id => ∃ e ∈ es, e.identityID = id) (id : GoString) :
    ((snapshot scan db).find id).isSome = true ↔ ∃ e ∈ es, e.identityID = id := by
  rw [snapshot, snapshotReading, Store.isSome_find_addEvents (coherent_inventoryReading _ _).rooted]
  constructor
  · rintro (hinv | ⟨e, he, hid⟩)
    · obtain ⟨r, hr, rfl⟩ := exists_row_of_isSome_inventoryReading scan _ hinv
        honly.onBehalfOf honly.declaredModels honly.permissions
      exact honly.identities r hr
    · obtain ⟨r, hr, rfl⟩ := List.mem_map.mp he
      rw [List.mem_insertionSort] at hr
      have hcols : r.cols ∈ db.events.map EventRow.cols := List.mem_map_of_mem hr
      rw [h.cols] at hcols
      obtain ⟨e, hes, heq⟩ := List.mem_map.mp
        ((KeepFirst.mem_of_mem_keepFirst hcols).resolve_left List.not_mem_nil)
      exact ⟨e, hes, by rw [← hid, ← heq]; rfl⟩
  · rintro ⟨e, he, rfl⟩
    right
    obtain ⟨c, hc, hce⟩ := KeepFirst.exists_keepFirst (r := EventCols.sameKey) []
      (List.mem_map_of_mem he)
    rw [← h.cols] at hc
    obtain ⟨r, hr, rfl⟩ := List.mem_map.mp hc
    refine ⟨r.cols.toEvent, List.mem_map.mpr ⟨r, List.mem_insertionSort .. |>.mpr hr, rfl⟩, ?_⟩
    rcases hce with heq | hkey
    · change r.cols.identityID = _
      rw [heq]
      rfl
    · exact ((EventCols.sameKey_iff _ _).mp hkey).1

theorem isSome_find_addEvents_new (p : GoString → Bool) (es : List Event) (id : GoString) :
    ((es.foldl Store.addEvent (Store.new p)).find id).isSome = true ↔
      ∃ e ∈ es, e.identityID = id := by
  rw [Store.isSome_find_addEvents (Store.rooted_new p), Store.find_new]
  simp

/-! ## Agreement -/

theorem same_stored {e : Event} (hx : e.time.instant % 1000 = 0) :
    (stored e).Same e ↔ e.source = "" := by
  have hinst : (stored e).time.instant = e.time.instant := Time.exact_instant hx
  constructor
  · rintro ⟨-, heq⟩
    have hsrc := congrArg Event.source heq
    exact hsrc.symm
  · intro hsrc
    refine ⟨hinst, ?_⟩
    obtain ⟨_, _, _, _, _, _, _, _, _, _, _, _, src⟩ := e
    cases hsrc
    rfl

/-- The events of the two backends agree exactly when they keep the same events and none of them has
a source. -/
theorem sameKept_iff {es : List Event} (hx : ∀ e ∈ es, e.time.instant % 1000 = 0) :
    (∀ id, List.Forall₂ Event.Same
        ((((KeepFirst.keepFirst sameKey [] es).filter fun e => e.identityID = id).insertionSort
          Event.notAfter).map stored)
        (((KeepFirst.keepFirst Event.goEq [] es).filter fun e => e.identityID = id).insertionSort
          Event.notAfter)) ↔
      KeepFirst.keepFirst sameKey [] es = KeepFirst.keepFirst Event.goEq [] es ∧
        ∀ e ∈ KeepFirst.keepFirst Event.goEq [] es, e.source = "" := by
  have hxk : ∀ e ∈ KeepFirst.keepFirst Event.goEq [] es, e.time.instant % 1000 = 0 := fun e he =>
    hx e ((KeepFirst.mem_of_mem_keepFirst he).resolve_left List.not_mem_nil)
  have htrans : ∀ a b c : Event, sameKey a b = true → sameKey b c = true → sameKey a c = true := by
    intro a b c hab hbc
    exact EventCols.sameKey_trans hab hbc
  constructor
  · intro h
    have heq : KeepFirst.keepFirst sameKey [] es = KeepFirst.keepFirst Event.goEq [] es := by
      refine KeepFirst.eq_of_sublist_of_length Event.identityID
        (KeepFirst.keepFirst_sublist (fun _ _ => sameKey_of_goEq) htrans es) fun id => ?_
      have hlen := (h id).length_eq
      rw [List.length_map, List.length_insertionSort, List.length_insertionSort] at hlen
      exact hlen.symm.le
    refine ⟨heq, fun e he => (same_stored (hxk e he)).mp ?_⟩
    have hid := h e.identityID
    rw [heq, List.forall₂_map_left_iff, List.forall₂_same] at hid
    exact hid e (by simp [he])
  · rintro ⟨heq, hsrc⟩ id
    rw [heq, List.forall₂_map_left_iff, List.forall₂_same]
    intro e he
    have hkept := (List.mem_filter.mp ((List.mem_insertionSort ..).mp he)).1
    exact (same_stored (hxk e hkept)).mpr (hsrc e hkept)

/-- **The database refines the in-memory store exactly when** no event has a source, and events that
agree in every stored column, the times as instants, are equal under `==`. -/
theorem ingest_refines_iff (scan : Scan) (p : GoString → Bool)
    (txs : List (List Event × (GoString → Bool)))
    (hs : ∀ e ∈ eventsOf txs, e.storable = true)
    (hx : ∀ e ∈ eventsOf txs, e.time.instant % 1000 = 0) :
    ∃ db, commitAll Db.empty (ingestAll txs) = .ok db ∧
      (SameHistories (snapshot scan db) ((eventsOf txs).foldl Store.addEvent (Store.new p)) ↔
        (∀ e ∈ eventsOf txs, e.source = "") ∧
          (eventsOf txs).Pairwise fun a b => sameKey a b = true → a.goEq b = true) := by
  obtain ⟨db, hdb, htable, honly⟩ := commitAll_ingest hs
  refine ⟨db, hdb, ?_⟩
  have hfind : ∀ id, ((snapshot scan db).find id).isSome =
      (((eventsOf txs).foldl Store.addEvent (Store.new p)).find id).isSome := by
    intro id
    rw [Bool.eq_iff_iff, isSome_find_snapshot scan htable honly, isSome_find_addEvents_new]
  unfold SameHistories
  rw [and_iff_right hfind]
  simp only [history_snapshot scan htable hx, history_addEvents]
  rw [sameKept_iff hx, keepFirst_sameKey_iff, and_comm]
  refine and_congr_left' ⟨fun h e he => ?_, fun h e he => ?_⟩
  · obtain ⟨k, hk, hke⟩ := KeepFirst.exists_keepFirst (r := Event.goEq) [] he
    rcases hke with rfl | hke
    · exact h k hk
    · rw [← ((Event.goEq_iff k e).mp hke).2.2.2.2.2.2.2.2.2.2.2.2]
      exact h k hk
  · exact h e ((KeepFirst.mem_of_mem_keepFirst he).resolve_left List.not_mem_nil)

/-- An egress observed at one moment by one source. -/
def egressFrom (source : GoString) : Event :=
  ⟨.seconds 63900000000, "agent://acme/bot", eventEgress, "success", "", "", "", ⟨0⟩, ⟨0⟩, "",
    "api.openai.com", "", source⟩

/-- Two batches without sources, in which one event is seen three times and another once. -/
def unsourcedTxs : List (List Event × (GoString → Bool)) :=
  [([egressFrom "", { egressFrom "" with device := "laptop" }, egressFrom ""], fun _ => false),
    ([egressFrom ""], fun id => id == "agent://acme/bot")]

/-- The histories are the same, with two events. -/
theorem ingest_refines_iff_unsourced :
    ∃ db, commitAll Db.empty (ingestAll unsourcedTxs) = .ok db ∧ db.events.length = 2 ∧
      SameHistories (snapshot Scan.table db)
        ((eventsOf unsourcedTxs).foldl Store.addEvent (Store.new fun _ => false)) := by
  obtain ⟨db, hdb, hiff⟩ := ingest_refines_iff Scan.table (fun _ => false) unsourcedTxs (by decide) (by decide)
  have hlength : (commitAll Db.empty (ingestAll unsourcedTxs)).map (fun db => db.events.length) = .ok 2 := by rfl
  rw [hdb] at hlength
  exact ⟨db, hdb, Except.ok.inj hlength, hiff.mpr ⟨by decide, by decide⟩⟩

/-- Two events that differ in their source alone become one without a source. -/
theorem not_sameHistories_sources :
    (∀ e ∈ [egressFrom "scry", egressFrom "tokenfuse"],
      e.storable = true ∧ e.time.instant % 1000 = 0) ∧
    ∃ db, commitAll Db.empty
        (ingestAll [([egressFrom "scry", egressFrom "tokenfuse"], fun _ => false)]) = .ok db ∧
      ((snapshot Scan.table db).history "agent://acme/bot").map Event.source = [""] ∧
      (([egressFrom "scry", egressFrom "tokenfuse"].foldl Store.addEvent
        (Store.new fun _ => false)).history "agent://acme/bot").map Event.source =
          ["scry", "tokenfuse"] ∧
      ¬ SameHistories (snapshot Scan.table db)
        ([egressFrom "scry", egressFrom "tokenfuse"].foldl Store.addEvent
          (Store.new fun _ => false)) := by
  refine ⟨by decide, _, rfl, by decide, by decide, fun h => ?_⟩
  have hlen := (h.2 "agent://acme/bot").length_eq
  revert hlen
  decide

end Pg

end Idryx
