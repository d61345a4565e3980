import Idryx.Graph.Reorder
import Idryx.Lib.Replay
import Idryx.Pg.Events
import Idryx.Pg.Identities
import Idryx.Pg.Torn

/-!
# Loading a batch again

A call of a writer that is repeated, table by table.

* `replays_merge`, `identities_again`: the rows of `identities`, which take every report in turn;
* `events_again`: the events, which are all there;
* `SameRows`; **`sameRows_again`**: the tables after the second call, the rows that were deleted and
  inserted anew compared owner by owner;
* `SameGraph`; **`snapshot_replay`**: what `Snapshot` returns.
-/

namespace Idryx

namespace Pg

open Replay

/-! ## The rows of the identities -/

/-- The row a statement upserts. -/
def Stmt.row? : Stmt → Option IdentityRow
  | .upsertPrivileged id privileged => some (IdentityRow.blank id privileged)
  | .upsertIdentity i => some (IdentityRow.ofIdentity i)
  | _ => none

theorem IdentityRow.merge_flag (r : IdentityRow) (id : GoString) (privileged : Bool) :
    r.merge (IdentityRow.blank id privileged) = { r with privileged := r.privileged || privileged } := by
  obtain ⟨rid, p, type, source, owner, created, lastUsed, runtime, parent, attestation, shadow⟩ := r
  cases lastUsed <;> simp [IdentityRow.merge, IdentityRow.blank, lastUsedWins]

theorem IdentityRow.merge_into_blank (x : IdentityRow) :
    (IdentityRow.blank x.id false).merge x = x := by
  obtain ⟨id, p, type, source, owner, created, lastUsed, runtime, parent, attestation, shadow⟩ := x
  simp only [IdentityRow.merge, IdentityRow.blank, lastUsedWins, overwrite_empty, Bool.false_or,
    Option.or_none, if_true]

theorem identities_run (db : Db) (st : Stmt) : (st.run db).identities =
    st.row?.elim db.identities fun x =>
      Keyed.upsert IdentityRow.id x.id x (·.merge x) db.identities := by
  cases st with
  | upsertPrivileged id privileged =>
    simp only [Stmt.run, Stmt.row?, Option.elim_some, IdentityRow.merge_flag]
    rfl
  | _ => rfl

theorem identities_foldl (db : Db) (stmts : List Stmt) : (stmts.foldl Stmt.run db).identities =
    Keyed.upserts IdentityRow.id IdentityRow.id (fun x => x) IdentityRow.merge db.identities
      (stmts.filterMap Stmt.row?) := by
  induction stmts generalizing db with
  | nil => rfl
  | cons st stmts ih =>
    rw [List.foldl_cons, ih, identities_run, List.filterMap_cons]
    cases st.row? <;> rfl

theorem replays_lastUsed (ts : List (Option Int)) :
    Replays (fun t u => if lastUsedWins u t then u else t) ts := by
  have hle : ∀ {t u : Option Int} {a : Int}, (∃ b, t = some b ∧ a ≤ b) →
      ∃ b, (if lastUsedWins u t then u else t) = some b ∧ a ≤ b := by
    rintro t u a ⟨b, rfl, hab⟩
    cases u with
    | none => exact ⟨b, rfl, hab⟩
    | some c =>
      simp only [lastUsedWins, decide_eq_true_eq]
      split_ifs with h
      · exact ⟨c, rfl, by omega⟩
      · exact ⟨b, rfl, hab⟩
  refine replays_absorb (A := fun t u => ∀ a, u = some a → ∃ b, t = some b ∧ a ≤ b) ?_ ?_ ?_ ts
  · rintro t u a rfl
    cases t with
    | none => exact ⟨a, rfl, le_refl a⟩
    | some b =>
      simp only [lastUsedWins, decide_eq_true_eq]
      split_ifs with h
      · exact ⟨a, rfl, le_refl a⟩
      · exact ⟨b, rfl, by omega⟩
  · intro t u v h a ha
    exact hle (h a ha)
  · intro t u h
    cases u with
    | none =>
      cases t <;> rfl
    | some a =>
      obtain ⟨b, rfl, hab⟩ := h a rfl
      have hlt : ¬ b < a := by omega
      simp only [lastUsedWins, decide_eq_true_eq, if_neg hlt]

/-- **Merging the reports of one row again changes nothing.** -/
theorem replays_merge (xs : List IdentityRow) : Replays IdentityRow.merge xs := by
  intro r
  have hover : ∀ (f : IdentityRow → GoString),
      (∀ r x : IdentityRow, (if f x ≠ "" then f x else f r) = f (r.merge x)) →
        f (xs.foldl IdentityRow.merge (xs.foldl IdentityRow.merge r)) =
          f (xs.foldl IdentityRow.merge r) := by
    intro f hf
    exact (replays_overwrite (fun x => f x ≠ "") f xs).project IdentityRow.merge f hf r
  have hcreated : ∀ r x : IdentityRow,
      (if x.created ≠ none then x.created else r.created) = (r.merge x).created := by
    intro r x
    show _ = x.created.or r.created
    cases x.created <;> rfl
  refine IdentityRow.ext ?_ ?_ ?_ ?_ ?_ ?_ ?_ ?_ ?_ ?_ ?_
  · exact (replays_fixed xs).project IdentityRow.merge _ (fun _ _ => rfl) r
  · exact ((replays_or _).comap IdentityRow.privileged).project IdentityRow.merge _ (fun _ _ => rfl) r
  · exact hover IdentityRow.type fun _ _ => rfl
  · exact hover IdentityRow.source fun _ _ => rfl
  · exact hover IdentityRow.owner fun _ _ => rfl
  · exact (replays_overwrite (fun x : IdentityRow => x.created ≠ none) IdentityRow.created xs).project
      IdentityRow.merge IdentityRow.created hcreated r
  · exact ((replays_lastUsed _).comap IdentityRow.lastUsed).project IdentityRow.merge _
      (fun _ _ => rfl) r
  · exact hover IdentityRow.runtime fun _ _ => rfl
  · exact hover IdentityRow.parent fun _ _ => rfl
  · exact hover IdentityRow.attestation fun _ _ => rfl
  · exact ((replays_or _).comap IdentityRow.shadow).project IdentityRow.merge _ (fun _ _ => rfl) r

theorem identities_again (db : Db) (stmts : List Stmt) :
    (stmts.foldl Stmt.run (stmts.foldl Stmt.run db)).identities = (stmts.foldl Stmt.run db).identities := by
  rw [identities_foldl, identities_foldl]
  refine replays_upserts IdentityRow.merge_id ?_ (f := fun k => IdentityRow.blank k false) ?_ ?_
    db.identities
  · exact fun _ => rfl
  · exact fun x => (IdentityRow.merge_into_blank x).symm
  · exact fun k => replays_merge _

theorem nodup_foldl {db : Db} (hn : (db.identities.map IdentityRow.id).Nodup) (stmts : List Stmt) :
    ((stmts.foldl Stmt.run db).identities.map IdentityRow.id).Nodup := by
  have hu : ∀ r x : IdentityRow, r.id = x.id → (r.merge x).id = x.id := fun _ _ h => h
  have hi : ∀ x : IdentityRow, ((fun x => x) x : IdentityRow).id = x.id := fun _ => rfl
  rw [identities_foldl]
  exact Keyed.nodup_upserts hi hu hn _

/-! ## The events -/

/-- The event of a statement is in the table. -/
def Held (db : Db) (st : Stmt) : Prop :=
  ∀ e, st.event? = some e → db.events.any (·.cols.sameKey (EventCols.ofEvent e)) = true

theorem held_run_self (db : Db) (st : Stmt) : Held (st.run db) st := by
  intro e he
  cases st with
  | insertEvent e' =>
    cases he
    simp only [Stmt.run]
    split_ifs with h
    · exact h
    · rw [List.any_append, Bool.or_eq_true]
      right
      simp only [List.any_cons, EventCols.sameKey_self, Bool.true_or]
  | _ => cases he

theorem held_run (db : Db) (st st' : Stmt) (h : Held db st) : Held (st'.run db) st := by
  intro e he
  have hdb := h e he
  cases st' with
  | insertEvent e' =>
    simp only [Stmt.run]
    split_ifs
    · exact hdb
    · rw [List.any_append, hdb, Bool.true_or]
  | _ => exact hdb

theorem events_run_of_held {db : Db} {st : Stmt} (h : Held db st) : (st.run db).events = db.events := by
  cases st with
  | insertEvent e => exact if_pos (h e rfl)
  | _ => rfl

theorem events_again (db : Db) (stmts : List Stmt) :
    (stmts.foldl Stmt.run (stmts.foldl Stmt.run db)).events = (stmts.foldl Stmt.run db).events := by
  have hheld : ∀ st ∈ stmts, Held (stmts.foldl Stmt.run db) st :=
    fun st hst => absorbed_of_mem held_run_self (fun d st st' => held_run d st st') db hst
  have hkeep : ∀ st ∈ stmts, ∀ d : Db, d.events = (stmts.foldl Stmt.run db).events →
      (st.run d).events = (stmts.foldl Stmt.run db).events := by
    intro st hst d hd
    have hd' : Held d st := by
      intro e he
      rw [hd]
      exact hheld st hst e he
    rw [events_run_of_held hd', hd]
  exact List.foldlRecOn (motive := fun d : Db => d.events = (stmts.foldl Stmt.run db).events) stmts _
    rfl fun d hd st hst => hkeep st hst d hd

/-! ## The rows that are deleted and inserted anew -/

/-- Two databases with the same rows, those of the lists and of the grants owner by owner. -/
structure SameRows (a b : Db) : Prop where
  identities : a.identities = b.identities
  events : a.events = b.events
  onBehalfOf : ∀ id, (a.onBehalfOf.filter fun r => r.identityID = id) =
    b.onBehalfOf.filter fun r => r.identityID = id
  declaredModels : ∀ id, (a.declaredModels.filter fun r => r.identityID = id) =
    b.declaredModels.filter fun r => r.identityID = id
  grants : ∀ id, ownGrants id (a.permissions, a.permissionActions) =
    ownGrants id (b.permissions, b.permissionActions)

theorem sameRows_ingestIdentities (db : Db) (is : List Identity) :
    SameRows ((ingestIdentities is).foldl Stmt.run ((ingestIdentities is).foldl Stmt.run db))
      ((ingestIdentities is).foldl Stmt.run db) where
  identities := identities_again db _
  events := events_again db _
  onBehalfOf id := by
    have hbatch := batch_pass2 (fun db => db.onBehalfOf.filter fun r => r.identityID = id)
      (w := fun v i => if i.id = id then principalRows i else v) (fun _ _ => rfl)
      (fun db i => principals_applyLists db i id) is
    simp only [run_ingestIdentities]
    rw [hbatch, hbatch]
    exact replays_overwrite (fun i : Identity => i.id = id) principalRows is _
  declaredModels id := by
    have hbatch := batch_pass2 (fun db => db.declaredModels.filter fun r => r.identityID = id)
      (w := fun v i => if i.id = id then modelRows i else v) (fun _ _ => rfl)
      (fun db i => models_applyLists db i id) is
    simp only [run_ingestIdentities]
    rw [hbatch, hbatch]
    exact replays_overwrite (fun i : Identity => i.id = id) modelRows is _
  grants id := by
    have hbatch := batch_pass1 (fun db => ownGrants id (db.permissions, db.permissionActions))
      (w := fun v i => if i.id = id then i.permissions.foldl (grantStep id) ([], []) else v)
      (fun db i => ownGrants_replaceGrants id _ i) (fun _ _ => rfl) is
    simp only [run_ingestIdentities]
    rw [hbatch, hbatch]
    exact replays_overwrite (fun i : Identity => i.id = id) _ is _

theorem lists_ingest (db : Db) (es : List Event) (privileged : GoString → Bool) :
    ((ingest es privileged).foldl Stmt.run db).onBehalfOf = db.onBehalfOf ∧
    ((ingest es privileged).foldl Stmt.run db).declaredModels = db.declaredModels ∧
    ((ingest es privileged).foldl Stmt.run db).permissions = db.permissions ∧
    ((ingest es privileged).foldl Stmt.run db).permissionActions = db.permissionActions := by
  have hst : ∀ d : Db, ∀ st ∈ ingest es privileged, (st.run d).onBehalfOf = d.onBehalfOf ∧
      (st.run d).declaredModels = d.declaredModels ∧ (st.run d).permissions = d.permissions ∧
      (st.run d).permissionActions = d.permissionActions := by
    intro d st hst
    obtain ⟨id, p, rfl, -⟩ | ⟨e, rfl⟩ := isIngest_ingestFrom privileged [] es st hst
    · exact ⟨rfl, rfl, rfl, rfl⟩
    · exact ⟨rfl, rfl, rfl, rfl⟩
  exact ⟨Loop.foldl_fixed (fun d st h => (hst d st h).1) db,
    Loop.foldl_fixed (fun d st h => (hst d st h).2.1) db,
    Loop.foldl_fixed (fun d st h => (hst d st h).2.2.1) db,
    Loop.foldl_fixed (fun d st h => (hst d st h).2.2.2) db⟩

/-- **The tables after a second call.** -/
theorem sameRows_again (db : Db) (tx : Tx) :
    SameRows (tx.stmts.foldl Stmt.run (tx.stmts.foldl Stmt.run db)) (tx.stmts.foldl Stmt.run db) := by
  cases tx with
  | ingestIdentities is => exact sameRows_ingestIdentities db is
  | ingest es privileged =>
    obtain ⟨hobo, hdm, hperm, hact⟩ :=
      lists_ingest ((ingest es privileged).foldl Stmt.run db) es privileged
    refine ⟨identities_again db _, events_again db _, fun id => ?_, fun id => ?_, fun id => ?_⟩
    · exact congrArg _ hobo
    · exact congrArg _ hdm
    · show ownGrants id (Db.permissions _, Db.permissionActions _) = _
      simp only [Tx.stmts]
      rw [hperm, hact]

/-! ## What is read of them -/

/-- One identity read twice: the order of its permissions is the database's. -/
structure SameIdentity (i j : Identity) : Prop where
  rest : { i with permissions := j.permissions } = j
  permissions : i.permissions.Perm j.permissions

/-- One graph read twice. -/
structure SameGraph (s t : Store) : Prop where
  privileged : s.privileged = t.privileged
  seenEvents : s.seenEvents = t.seenEvents
  identities : List.Forall₂ SameIdentity s.identities t.identities

section Snapshot

variable {a b : Db} (h : SameRows a b) (hn : (b.identities.map IdentityRow.id).Nodup) (scan scan' : Scan)

/-- The store of a snapshot once the rows of the identities are read. -/
def described (scan : Scan) (db : Db) : Store :=
  ((scan.order 1 db.identities).map IdentityRow.toIdentity).foldl Store.addIdentity
    (Store.new fun id => (scan.order 0 db.identities).any fun r => r.id == id && r.privileged)

theorem attachPrincipal_id (i : Identity) (r : PrincipalRow) : (attachPrincipal i r).id = i.id := rfl

theorem attachModel_id (i : Identity) (r : ModelRow) : (attachModel i r).id = i.id := rfl

/-- The store of a snapshot before its permissions are attached. -/
def listed (scan : Scan) (db : Db) : Store :=
  ((described scan db).updates PrincipalRow.identityID attachPrincipal attachPrincipal_id
    (db.onBehalfOf.insertionSort PrincipalRow.le)).updates ModelRow.identityID attachModel
      attachModel_id (db.declaredModels.insertionSort ModelRow.le)

theorem inventoryReading_eq (db : Db) : (inventoryReading scan fun _ => db) =
    (listed scan db).updates PermissionRow.identityID
      (attachPermission (actionsOf db.permissionActions)) (fun _ _ => rfl)
        (scan.order 5 db.permissions) := rfl

theorem privileged_described (db : Db) : (described scan db).privileged =
    fun id => db.identities.any fun r => r.id == id && r.privileged := by
  refine (Store.privileged_updates Identity.id mergeIdentity mergeIdentity_id _ _).trans ?_
  funext id
  exact privileged_reading scan id 0 db.identities

theorem privileged_listed (db : Db) : (listed scan db).privileged =
    fun id => db.identities.any fun r => r.id == id && r.privileged := by
  refine (Store.privileged_updates _ _ _ _ _).trans ?_
  refine (Store.privileged_updates _ _ _ _ _).trans ?_
  exact privileged_described scan db

include h hn in
theorem find_described (id : GoString) : (described scan a).find id = (described scan' b).find id := by
  have hrows : Keyed.reports Identity.id id ((scan.order 1 a.identities).map IdentityRow.toIdentity) =
      Keyed.reports Identity.id id ((scan'.order 1 b.identities).map IdentityRow.toIdentity) := by
    rw [Keyed.reports, Keyed.reports, List.filter_map, List.filter_map, h.identities]
    show ((scan.order 1 b.identities).filter fun r => r.id = id).map _ =
      ((scan'.order 1 b.identities).filter fun r => r.id = id).map _
    cases hl : Keyed.lookup IdentityRow.id id b.identities with
    | none =>
      have hnil := Keyed.filter_key_eq_nil hl
      rw [filter_order_eq_nil scan 1 hnil, filter_order_eq_nil scan' 1 hnil]
    | some r =>
      have hone := Keyed.filter_key_eq_singleton hn hl
      rw [filter_order_eq_singleton scan 1 hone, filter_order_eq_singleton scan' 1 hone]
  have hpriv : ((scan.order 0 a.identities).any fun r => r.id == id && r.privileged) =
      (scan'.order 0 b.identities).any fun r => r.id == id && r.privileged := by
    rw [privileged_reading, privileged_reading, h.identities]
  have hnew : ∀ p : GoString → Bool, (Store.new p).find id = none := fun _ => rfl
  unfold described
  rw [Store.find_addIdentities, Store.find_addIdentities, hrows, hnew, hnew]
  unfold Store.fresh Store.new
  dsimp only
  rw [hpriv]

include h hn in
theorem find_listed (id : GoString) : (listed scan a).find id = (listed scan' b).find id := by
  have hpriv : ∀ scan : Scan, (described scan a).privileged = (described scan' b).privileged := by
    intro scan
    rw [privileged_described, privileged_described, h.identities]
  have hobo : Keyed.reports PrincipalRow.identityID id (a.onBehalfOf.insertionSort PrincipalRow.le) =
      Keyed.reports PrincipalRow.identityID id (b.onBehalfOf.insertionSort PrincipalRow.le) := by
    rw [Keyed.reports, Keyed.reports, StableSort.filter_insertionSort, StableSort.filter_insertionSort,
      h.onBehalfOf]
  have hdm : Keyed.reports ModelRow.identityID id (a.declaredModels.insertionSort ModelRow.le) =
      Keyed.reports ModelRow.identityID id (b.declaredModels.insertionSort ModelRow.le) := by
    rw [Keyed.reports, Keyed.reports, StableSort.filter_insertionSort, StableSort.filter_insertionSort,
      h.declaredModels]
  refine Store.find_updates_congr _ _ _ ?_ (Store.find_updates_congr _ _ _ ?_ ?_ hobo) hdm
  · refine (congrFun (Store.privileged_updates _ _ _ _ _) id).trans ?_
    refine Eq.trans ?_ (congrFun (Store.privileged_updates _ _ _ _ _) id).symm
    rw [hpriv]
  · rw [hpriv]
  · exact find_described h hn scan scan' id

theorem actionsOf_of_grants {rows rows' : List ActionRow} {id : GoString}
    (hrows : (rows.filter fun r => r.identityID = id) = rows'.filter fun r => r.identityID = id)
    (name : GoString) : actionsOf rows id name = actionsOf rows' id name := by
  have hboth : ∀ rows : List ActionRow,
      rows.filter (fun r => r.identityID = id ∧ r.permissionName = name) =
        (rows.filter fun r => r.identityID = id).filter fun r => r.permissionName = name := by
    intro rows
    rw [List.filter_filter]
    refine List.filter_congr fun r _ => ?_
    rw [← Bool.decide_and]
    exact decide_eq_decide.mpr and_comm
  refine actionsOf_congr ?_
  rw [hboth, hboth, hrows]

include h in
theorem permissionsOf_perm (id : GoString) :
    (permissionsOf (scan.order 5 a.permissions) a.permissionActions id).Perm
      (permissionsOf (scan'.order 5 b.permissions) b.permissionActions id) := by
  have hperms := congrArg Prod.fst (h.grants id)
  have hacts := congrArg Prod.snd (h.grants id)
  have hrows : ((scan.order 5 a.permissions).filter fun r => r.identityID = id).Perm
      ((scan'.order 5 b.permissions).filter fun r => r.identityID = id) := by
    refine ((scan.perm 5 a.permissions).filter _).trans ?_
    refine Eq.subst (motive := fun l => List.Perm l _) hperms.symm ?_
    exact ((scan'.perm 5 b.permissions).filter _).symm
  have hmap : permissionsOf (scan.order 5 a.permissions) a.permissionActions id =
      permissionsOf (scan.order 5 a.permissions) b.permissionActions id := by
    refine List.map_congr_left fun r hr => ?_
    have hid : r.identityID = id := of_decide_eq_true (List.mem_filter.mp hr).2
    rw [PermissionRow.toPermission, PermissionRow.toPermission, hid, actionsOf_of_grants hacts]
  rw [hmap]
  exact hrows.map _

theorem find_inventory_eq (db : Db) (id : GoString) : (inventoryReading scan fun _ => db).find id =
    if (scan.order 5 db.permissions).filter (fun r => r.identityID = id) = [] then
      (listed scan db).find id
    else
      let i := ((listed scan db).find id).getD ((listed scan db).fresh id)
      some { i with permissions := i.permissions ++
        permissionsOf (scan.order 5 db.permissions) db.permissionActions id } := by
  rw [inventoryReading_eq]
  refine (Store.find_updates _ _ _ _ id _).trans ?_
  rw [foldl_attachPermission]
  rfl

include h hn in
/-- **The node of an id before its events** is the same up to the order of its permissions. -/
theorem find_inventory (id : GoString) : Option.Rel SameIdentity
    ((inventoryReading scan fun _ => a).find id) ((inventoryReading scan' fun _ => b).find id) := by
  have hperm := permissionsOf_perm h scan scan' id
  have hfresh : (listed scan a).fresh id = (listed scan' b).fresh id := by
    rw [Store.fresh, Store.fresh, privileged_listed, privileged_listed, h.identities]
  have hnil : (scan.order 5 a.permissions).filter (fun r => r.identityID = id) = [] ↔
      (scan'.order 5 b.permissions).filter (fun r => r.identityID = id) = [] := by
    have hlen := hperm.length_eq
    rw [permissionsOf, permissionsOf, List.length_map, List.length_map] at hlen
    rw [← List.length_eq_zero_iff, ← List.length_eq_zero_iff, hlen]
  rw [find_inventory_eq, find_inventory_eq, find_listed h hn scan scan' id, hfresh]
  split_ifs with ha hb hb
  · cases (listed scan' b).find id with
    | none => exact Option.Rel.none
    | some i => exact Option.Rel.some ⟨rfl, List.Perm.refl _⟩
  · exact absurd (hnil.mp ha) hb
  · exact absurd (hnil.mpr hb) ha
  · exact Option.Rel.some ⟨rfl, hperm.append_left _⟩

theorem privileged_snapshot (db : Db) : (snapshot scan db).privileged =
    fun id => db.identities.any fun r => r.id == id && r.privileged := by
  refine (Loop.foldl_fixed (f := Store.privileged) (fun s e _ => Store.privileged_addEvent s e) _).trans ?_
  rw [inventoryReading_eq]
  refine (Store.privileged_updates _ _ _ _ _).trans ?_
  exact privileged_listed scan db

theorem seenEvents_snapshot (db : Db) : (snapshot scan db).seenEvents = KeepFirst.keepFirst Event.goEq []
    ((db.events.insertionSort EventRow.le).map fun r => r.cols.toEvent) := by
  rw [snapshot, snapshotReading, Store.seenEvents_addEvents, seenEvents_inventoryReading]

include h hn in
theorem isSome_find_snapshot_eq (id : GoString) :
    ((snapshot scan a).find id).isSome = ((snapshot scan' b).find id).isSome := by
  have hinv : ((inventoryReading scan fun _ => a).find id).isSome =
      ((inventoryReading scan' fun _ => b).find id).isSome := by
    have hrel := find_inventory h hn scan scan' id
    generalize (inventoryReading scan fun _ => a).find id = x at hrel ⊢
    generalize (inventoryReading scan' fun _ => b).find id = y at hrel ⊢
    cases hrel <;> rfl
  rw [Bool.eq_iff_iff]
  unfold snapshot snapshotReading
  rw [Store.isSome_find_addEvents (coherent_inventoryReading _ _).rooted,
    Store.isSome_find_addEvents (coherent_inventoryReading _ _).rooted, hinv, h.events]

include h hn in
theorem sameIdentity_bare (id : GoString) :
    SameIdentity ((snapshot scan a).bare id) ((snapshot scan' b).bare id) := by
  have hfresh : (inventoryReading scan fun _ => a).fresh id =
      (inventoryReading scan' fun _ => b).fresh id := by
    have hpriv : ∀ (scan : Scan) (db : Db), (inventoryReading scan fun _ => db).privileged =
        fun id => db.identities.any fun r => r.id == id && r.privileged := by
      intro scan db
      rw [inventoryReading_eq]
      exact (Store.privileged_updates _ _ _ _ _).trans (privileged_listed scan db)
    rw [Store.fresh, Store.fresh, hpriv, hpriv, h.identities]
  unfold snapshot snapshotReading
  rw [Store.bare_addEvents, Store.bare_addEvents, Store.bare, Store.bare, hfresh]
  have hrel := find_inventory h hn scan scan' id
  generalize (inventoryReading scan fun _ => a).find id = x at hrel ⊢
  generalize (inventoryReading scan' fun _ => b).find id = y at hrel ⊢
  cases hrel with
  | some hij => exact ⟨congrArg (fun i : Identity => { i with events := [] }) hij.rest, hij.permissions⟩
  | none => exact ⟨rfl, List.Perm.refl _⟩

include h in
theorem history_snapshot_eq (id : GoString) :
    (snapshot scan a).history id = (snapshot scan' b).history id := by
  rw [Store.history_eq, Store.history_eq, snapshot, snapshot, eventsAt_snapshotReading,
    eventsAt_snapshotReading, h.events]

include h hn in
/-- **A snapshot of the same rows is the same graph.** -/
theorem sameGraph_snapshot : SameGraph (snapshot scan a) (snapshot scan' b) where
  privileged := by rw [privileged_snapshot, privileged_snapshot, h.identities]
  seenEvents := by rw [seenEvents_snapshot, seenEvents_snapshot, h.events]
  identities := by
    refine Store.identities_forall₂ fun id => ?_
    have hbare := sameIdentity_bare h hn scan scan' id
    rw [Store.lookup_identities_eq, Store.lookup_identities_eq, isSome_find_snapshot_eq h hn scan scan',
      history_snapshot_eq h scan scan']
    split_ifs
    · refine Option.Rel.some ⟨?_, hbare.permissions⟩
      exact congrArg (fun i : Identity => { i with events := (snapshot scan' b).history id }) hbare.rest
    · exact Option.Rel.none

end Snapshot

/-! ## Calls -/

/-- A database that some sequence of calls leaves. -/
inductive Reachable : Db → Prop
  | empty : Reachable Db.empty
  | call {db db' : Db} {tx : Tx} : Reachable db → commit db tx.stmts = .ok db' → Reachable db'

theorem Reachable.nodup {db : Db} (h : Reachable db) : (db.identities.map IdentityRow.id).Nodup := by
  induction h with
  | empty => exact List.nodup_nil
  | call _ hcommit ih =>
    rw [← (commit_eq_ok.mp hcommit).2]
    exact nodup_foldl ih _

/-- **A call that is repeated commits again, and `Snapshot` returns the same graph** up to the order of
the permissions, whatever the orders of its statements. -/
theorem snapshot_replay {db db₁ : Db} (h : Reachable db) {tx : Tx} (h₁ : commit db tx.stmts = .ok db₁) :
    ∃ db₂, commit db₁ tx.stmts = .ok db₂ ∧
      ∀ scan scan', SameGraph (snapshot scan db₂) (snapshot scan' db₁) := by
  have hreach := Reachable.call h h₁
  obtain ⟨hstorable, rfl⟩ := commit_eq_ok.mp h₁
  refine ⟨_, commit_eq_ok.mpr ⟨hstorable, rfl⟩, fun scan scan' => ?_⟩
  exact sameGraph_snapshot (sameRows_again db tx) hreach.nodup scan scan'

/-- A batch that reports an identity twice and one of its grants twice. -/
def repeatedBatch : Tx :=
  .ingestIdentities [{ granted "admin" true with onBehalfOf := ["alice", "root"] },
    { granted "read" false with
      permissions := [⟨"read", false, false, ["s3:Get"], ""⟩, ⟨"read", true, false, [], "arn"⟩] }]

theorem snapshot_replay_repeated : ∃ db₁ db₂, commit Db.empty repeatedBatch.stmts = .ok db₁ ∧
    commit db₁ repeatedBatch.stmts = .ok db₂ ∧
      ∀ scan scan', SameGraph (snapshot scan db₂) (snapshot scan' db₁) := by
  have hfirst : commit Db.empty repeatedBatch.stmts =
      .ok (repeatedBatch.stmts.foldl Stmt.run Db.empty) := by
    rw [commit_eq_ok]
    exact ⟨by decide +kernel, rfl⟩
  obtain ⟨db₂, hsecond, hsame⟩ := snapshot_replay Reachable.empty hfirst
  exact ⟨_, db₂, hfirst, hsecond, hsame⟩

end Pg

end Idryx
