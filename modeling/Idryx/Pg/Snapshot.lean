import Idryx.Graph.Folds
import Idryx.Pg.Db

/-!
# Reading the graph back

`Snapshot` of `internal/graph/pgstore.go`: seven `SELECT` statements, one after another, each on the
state committed when it starts.

* `Scan`: the order in which a statement without `ORDER BY` returns its rows;
* `snapshotReading`: the store built when the `i`-th statement reads the state `seen i`;
* `snapshot`: the store of one state;
* **`find_snapshotReading`**: what the store holds at an id;
* **`eventsAt_snapshotReading`**: its events.
-/

namespace Idryx

namespace Pg

/-- An order of the rows of each statement that asks for none. -/
structure Scan where
  order : {α : Type} → Nat → List α → List α
  perm : ∀ {α : Type} (n : Nat) (rows : List α), (order n rows).Perm rows

/-- Rows in the order of the table. -/
def Scan.table : Scan := ⟨fun _ rows => rows, fun _ rows => List.Perm.refl rows⟩

/-! ## Rows -/

open StableSort (orderBy)

/-- `ORDER BY identity_id, position`. -/
abbrev PrincipalRow.le : PrincipalRow → PrincipalRow → Prop :=
  orderBy (fun a b => a.position ≤ b.position) PrincipalRow.identityID

/-- `ORDER BY identity_id, position`. -/
abbrev ModelRow.le : ModelRow → ModelRow → Prop :=
  orderBy (fun a b => a.position ≤ b.position) ModelRow.identityID

/-- `ORDER BY identity_id, permission_name, position`. -/
abbrev ActionRow.le : ActionRow → ActionRow → Prop :=
  orderBy (orderBy (fun a b => a.position ≤ b.position) ActionRow.permissionName)
    ActionRow.identityID

/-- `ORDER BY identity_id, ts, id`. -/
abbrev EventRow.le : EventRow → EventRow → Prop :=
  orderBy (orderBy (fun a b => a.id ≤ b.id) (EventCols.ts ∘ EventRow.cols))
    (EventCols.identityID ∘ EventRow.cols)

/-- A nullable time scanned from a row. -/
def scanTime (t : Option Int) : Time := t.elim Time.zero Time.ofTimestamptz

/-- The identity scanned from a row. -/
def IdentityRow.toIdentity (r : IdentityRow) : Identity :=
  { Identity.zero r.id with
    type := r.type, source := r.source, owner := r.owner, created := scanTime r.created
    lastUsed := scanTime r.lastUsed, runtime := r.runtime, privileged := r.privileged
    parent := r.parent, attestation := r.attestation, shadow := r.shadow }

/-- The event scanned from a row; its source stays empty. -/
def EventCols.toEvent (c : EventCols) : Event :=
  { time := Time.ofTimestamptz c.ts, identityID := c.identityID, type := c.type,
    outcome := c.outcome, ip := c.ip, city := c.city, country := c.country, lat := c.lat,
    lon := c.lon, device := c.device, resource := c.resource, severity := c.severity, source := "" }

/-- The permission scanned from a row, its actions looked up by identity and name. -/
def PermissionRow.toPermission (actionsByPerm : GoString → GoString → List GoString)
    (r : PermissionRow) : Permission :=
  ⟨r.name, r.admin, r.used, actionsByPerm r.identityID r.name, r.arn⟩

/-- `actionsByPerm` once all rows are read. -/
def actionsOf (rows : List ActionRow) (id name : GoString) : List GoString :=
  ((rows.insertionSort ActionRow.le).filter fun r =>
    r.identityID = id ∧ r.permissionName = name).map ActionRow.action

/-! ## The snapshot -/

/-- A row of the other tables is added to its identity. -/
def attachPrincipal (i : Identity) (r : PrincipalRow) : Identity :=
  { i with onBehalfOf := i.onBehalfOf ++ [r.principal] }

@[inherit_doc attachPrincipal]
def attachModel (i : Identity) (r : ModelRow) : Identity :=
  { i with declaredModels := i.declaredModels ++ [r.model] }

@[inherit_doc attachPrincipal]
def attachPermission (actionsByPerm : GoString → GoString → List GoString) (i : Identity)
    (r : PermissionRow) : Identity :=
  { i with permissions := i.permissions ++ [r.toPermission actionsByPerm] }

/-- `Snapshot` up to its last statement, the `i`-th reading the committed state `seen i`. -/
def inventoryReading (scan : Scan) (seen : Nat → Db) : Store :=
  let priv : GoString → Bool := fun id =>
    (scan.order 0 (seen 0).identities).any fun r => r.id == id && r.privileged
  let store := ((scan.order 1 (seen 1).identities).map IdentityRow.toIdentity).foldl
    Store.addIdentity (Store.new priv)
  let store := store.updates PrincipalRow.identityID attachPrincipal (fun _ _ => rfl)
    ((seen 2).onBehalfOf.insertionSort PrincipalRow.le)
  let store := store.updates ModelRow.identityID attachModel (fun _ _ => rfl)
    ((seen 3).declaredModels.insertionSort ModelRow.le)
  let actionsByPerm := actionsOf (seen 4).permissionActions
  store.updates PermissionRow.identityID (attachPermission actionsByPerm) (fun _ _ => rfl)
    (scan.order 5 (seen 5).permissions)

/-- `Snapshot`. -/
def snapshotReading (scan : Scan) (seen : Nat → Db) : Store :=
  (((seen 6).events.insertionSort EventRow.le).map fun r => r.cols.toEvent).foldl
    Store.addEvent (inventoryReading scan seen)

/-- `Snapshot` with nothing committed while it reads. -/
def snapshot (scan : Scan) (db : Db) : Store := snapshotReading scan fun _ => db

/-! ## What it holds at an id -/

theorem foldl_attachPrincipal (i : Identity) (rs : List PrincipalRow) :
    rs.foldl attachPrincipal i =
      { i with onBehalfOf := i.onBehalfOf ++ rs.map PrincipalRow.principal } := by
  induction rs generalizing i with
  | nil => rw [List.map_nil, List.append_nil]; rfl
  | cons r rs ih =>
    rw [List.foldl_cons, ih, attachPrincipal, List.map_cons, List.append_assoc,
      List.singleton_append]

theorem foldl_attachModel (i : Identity) (rs : List ModelRow) :
    rs.foldl attachModel i =
      { i with declaredModels := i.declaredModels ++ rs.map ModelRow.model } := by
  induction rs generalizing i with
  | nil => rw [List.map_nil, List.append_nil]; rfl
  | cons r rs ih =>
    rw [List.foldl_cons, ih, attachModel, List.map_cons, List.append_assoc, List.singleton_append]

theorem foldl_attachPermission (actions : GoString → GoString → List GoString) (i : Identity)
    (rs : List PermissionRow) : rs.foldl (attachPermission actions) i =
      { i with permissions := i.permissions ++ rs.map (PermissionRow.toPermission actions) } := by
  induction rs generalizing i with
  | nil => rw [List.map_nil, List.append_nil]; rfl
  | cons r rs ih =>
    rw [List.foldl_cons, ih, attachPermission, List.map_cons, List.append_assoc,
      List.singleton_append]

/-- The principals of an id in the order of their positions. -/
def principalsOf (rows : List PrincipalRow) (id : GoString) : List GoString :=
  ((rows.insertionSort PrincipalRow.le).filter fun r => r.identityID = id).map PrincipalRow.principal

/-- The declared models of an id in the order of their positions. -/
def modelsOf (rows : List ModelRow) (id : GoString) : List DeclaredModel :=
  ((rows.insertionSort ModelRow.le).filter fun r => r.identityID = id).map ModelRow.model

/-- The permissions of an id, with their actions. -/
def permissionsOf (rows : List PermissionRow) (actions : List ActionRow) (id : GoString) :
    List Permission :=
  (rows.filter fun r => r.identityID = id).map (PermissionRow.toPermission (actionsOf actions))

section Find

variable (scan : Scan) (seen : Nat → Db) (id : GoString)

theorem coherent_inventoryReading : (inventoryReading scan seen).Coherent := by
  refine Store.coherent_updates _ (attachPermission _) _ (fun _ _ => rfl) ?_ _
  refine Store.coherent_updates _ attachModel _ (fun _ _ => rfl) ?_ _
  refine Store.coherent_updates _ attachPrincipal _ (fun _ _ => rfl) ?_ _
  refine Store.coherent_addIdentities (Store.coherent_new _) fun i hi => ?_
  obtain ⟨r, -, rfl⟩ := List.mem_map.mp hi
  rfl

theorem seenEvents_inventoryReading : (inventoryReading scan seen).seenEvents = [] := by
  refine (Store.seenEvents_updates _ _ _ _ _).trans ?_
  refine (Store.seenEvents_updates _ _ _ _ _).trans ?_
  refine (Store.seenEvents_updates _ _ _ _ _).trans ?_
  exact Store.seenEvents_addIdentities _ _

/-- **The events of an id in a snapshot** are those of its rows, in the order of the statement. -/
theorem eventsAt_snapshotReading :
    (snapshotReading scan seen).eventsAt id = (KeepFirst.keepFirst Event.goEq []
      (((seen 6).events.insertionSort EventRow.le).map fun r => r.cols.toEvent)).filter
        fun e => e.identityID = id := by
  rw [snapshotReading, Store.eventsAt_addEvents (coherent_inventoryReading scan seen),
    seenEvents_inventoryReading]

variable {id} {r : IdentityRow}

theorem filter_order_eq_singleton {α : Type} (n : Nat) {rows : List α} {p : α → Bool} {a : α}
    (h : rows.filter p = [a]) : (scan.order n rows).filter p = [a] := by
  rw [← List.perm_singleton, ← h]
  exact (scan.perm n rows).filter p

theorem privileged_reading (id : GoString) (n : Nat) (rows : List IdentityRow) :
    ((scan.order n rows).any fun r => r.id == id && r.privileged) =
      rows.any fun r => r.id == id && r.privileged :=
  (scan.perm n rows).any_eq

/-- **What a snapshot holds at an id with a row**, its events apart. -/
theorem find_inventoryReading (hr : ((seen 1).identities.filter fun r => r.id = id) = [r]) :
    (inventoryReading scan seen).find id = some
      { mergeIdentity { Identity.zero id with
          privileged := (seen 0).identities.any fun r => r.id == id && r.privileged } r.toIdentity with
        onBehalfOf := principalsOf (seen 2).onBehalfOf id
        declaredModels := modelsOf (seen 3).declaredModels id
        permissions := permissionsOf (scan.order 5 (seen 5).permissions)
          (seen 4).permissionActions id } := by
  have hrow := filter_order_eq_singleton scan 1 hr
  have hreports : Keyed.reports Identity.id id
      ((scan.order 1 (seen 1).identities).map IdentityRow.toIdentity) = [r.toIdentity] := by
    rw [Keyed.reports, List.filter_map]
    change ((scan.order 1 (seen 1).identities).filter fun r => r.id = id).map _ = _
    rw [hrow]
    rfl
  have hid := Store.find_addIdentities (Store.new fun id =>
    (scan.order 0 (seen 0).identities).any fun r => r.id == id && r.privileged) id
      ((scan.order 1 (seen 1).identities).map IdentityRow.toIdentity)
  rw [hreports, if_neg (List.cons_ne_nil _ _), Store.find_new] at hid
  have hobo := Store.find_updates_some PrincipalRow.identityID attachPrincipal (fun _ _ => rfl) hid
    ((seen 2).onBehalfOf.insertionSort PrincipalRow.le)
  have hdm := Store.find_updates_some ModelRow.identityID attachModel (fun _ _ => rfl) hobo
    ((seen 3).declaredModels.insertionSort ModelRow.le)
  have hperm := Store.find_updates_some PermissionRow.identityID
    (attachPermission (actionsOf (seen 4).permissionActions)) (fun _ _ => rfl) hdm
    (scan.order 5 (seen 5).permissions)
  refine hperm.trans ?_
  rw [foldl_attachPermission, foldl_attachModel, foldl_attachPrincipal, ← privileged_reading scan]
  rfl

theorem filter_order_eq_nil {α : Type} (n : Nat) {rows : List α} {p : α → Bool}
    (h : rows.filter p = []) : (scan.order n rows).filter p = [] := by
  rw [← List.perm_nil, ← h]
  exact (scan.perm n rows).filter p

theorem find_inventoryReading_none (hrow : ((seen 1).identities.filter fun r => r.id = id) = [])
    (hobo : ((seen 2).onBehalfOf.filter fun r => r.identityID = id) = [])
    (hdm : ((seen 3).declaredModels.filter fun r => r.identityID = id) = [])
    (hperm : ((seen 5).permissions.filter fun r => r.identityID = id) = []) :
    (inventoryReading scan seen).find id = none := by
  have hreports : Keyed.reports Identity.id id
      ((scan.order 1 (seen 1).identities).map IdentityRow.toIdentity) = [] := by
    rw [Keyed.reports, List.filter_map]
    change ((scan.order 1 (seen 1).identities).filter fun r => r.id = id).map _ = _
    rw [filter_order_eq_nil scan 1 hrow]
    rfl
  have hid := Store.find_addIdentities (Store.new fun id =>
    (scan.order 0 (seen 0).identities).any fun r => r.id == id && r.privileged) id
      ((scan.order 1 (seen 1).identities).map IdentityRow.toIdentity)
  rw [if_pos hreports, Store.find_new] at hid
  have hobo' : Keyed.reports PrincipalRow.identityID id
      ((seen 2).onBehalfOf.insertionSort PrincipalRow.le) = [] := by
    rw [Keyed.reports, StableSort.filter_insertionSort, hobo]
    rfl
  have hdm' : Keyed.reports ModelRow.identityID id
      ((seen 3).declaredModels.insertionSort ModelRow.le) = [] := by
    rw [Keyed.reports, StableSort.filter_insertionSort, hdm]
    rfl
  have hperm' : Keyed.reports PermissionRow.identityID id
      (scan.order 5 (seen 5).permissions) = [] := filter_order_eq_nil scan 5 hperm
  refine (Store.find_updates _ _ _ _ id _).trans ((if_pos hperm').trans ?_)
  refine (Store.find_updates _ _ _ _ id _).trans ((if_pos hdm').trans ?_)
  refine (Store.find_updates _ _ _ _ id _).trans ((if_pos hobo').trans ?_)
  exact hid

theorem exists_row_of_isSome_inventoryReading (h : ((inventoryReading scan seen).find id).isSome = true)
    (hobo : (seen 2).onBehalfOf = []) (hdm : (seen 3).declaredModels = [])
    (hperm : (seen 5).permissions = []) : ∃ r ∈ (seen 1).identities, r.id = id := by
  by_contra hno
  have hrow : ((seen 1).identities.filter fun r => r.id = id) = [] := by
    rw [List.filter_eq_nil_iff]
    exact fun r hr hid => hno ⟨r, hr, of_decide_eq_true hid⟩
  have hnone := find_inventoryReading_none scan seen hrow
    (by rw [hobo]; rfl) (by rw [hdm]; rfl) (by rw [hperm]; rfl)
  rw [hnone] at h
  cases h

end Find

end Pg

end Idryx
