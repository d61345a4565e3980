import Idryx.Graph.Store

/-!
# The Postgres tables and the statements that write them

`internal/graph/schema.sql` and the writing half of `internal/graph/pgstore.go`. A table is the list
of its rows in the order they were inserted. `Ingest` and `IngestIdentities` read nothing back, so a
transaction is the list of statements it executes (`Stmt`), and it commits unless one of them fails.

* `timestamptz`, `Time.ofTimestamptz`: a time as the database keeps it, in whole microseconds;
* `Db`, `Stmt`, `Stmt.run`: the tables, the statements, and what each does;
* `ingest`, `ingestIdentities`: the statements of the two writers;
* **`commit_eq_ok`**: a transaction commits exactly when every text in it can be stored.
-/

namespace Idryx

/-- A time as `TIMESTAMPTZ` holds it: whole microseconds, the remainder dropped. Every time a
connector parses is in the range of the type. -/
def timestamptz (t : Time) : Int := t.instant / 1000

/-- A `TIMESTAMPTZ` scanned into a `time.Time`. -/
def Time.ofTimestamptz (us : Int) : Time where
  wall := ⟨(us * 1000 % 1000000000).toNat, by omega⟩
  ext := us * 1000 / 1000000000
  loc := timeLocal

@[simp] theorem Time.ofTimestamptz_instant (us : Int) :
    (Time.ofTimestamptz us).instant = us * 1000 := by
  simp only [Time.ofTimestamptz, Time.instant]
  omega

/-- What `TEXT` can hold: valid UTF-8 without NUL. -/
def textStorable (t : GoString) : Bool := Utf8.valid t && !t.contains 0

namespace Pg

/-! ## Tables -/

/-- A row of `identities`. -/
@[ext]
structure IdentityRow where
  id : GoString
  privileged : Bool
  type : GoString
  source : GoString
  owner : GoString
  created : Option Int
  lastUsed : Option Int
  runtime : GoString
  parent : GoString
  attestation : GoString
  shadow : Bool
  deriving DecidableEq

/-- A row of the declared models. -/
structure ModelRow where
  identityID : GoString
  position : Nat
  model : DeclaredModel
  deriving DecidableEq

/-- A row of the delegation chains. -/
structure PrincipalRow where
  identityID : GoString
  position : Nat
  principal : GoString
  deriving DecidableEq

/-- The columns of an event. There is none for its source. -/
structure EventCols where
  identityID : GoString
  ts : Int
  type : GoString
  outcome : GoString
  ip : GoString
  city : GoString
  country : GoString
  lat : F64
  lon : F64
  device : GoString
  resource : GoString
  severity : GoString
  deriving DecidableEq

/-- A row of `events`. -/
structure EventRow where
  id : Nat
  cols : EventCols
  deriving DecidableEq

/-- A row of the permissions. -/
structure PermissionRow where
  identityID : GoString
  name : GoString
  admin : Bool
  used : Bool
  arn : GoString
  deriving DecidableEq

/-- A row of the actions of permissions. -/
structure ActionRow where
  identityID : GoString
  permissionName : GoString
  position : Nat
  action : GoString
  deriving DecidableEq

/-- The database. `nextEventID` is the sequence behind `events.id`. -/
structure Db where
  identities : List IdentityRow
  declaredModels : List ModelRow
  onBehalfOf : List PrincipalRow
  events : List EventRow
  nextEventID : Nat
  permissions : List PermissionRow
  permissionActions : List ActionRow
  deriving DecidableEq

/-- The database just after its schema was applied. -/
def Db.empty : Db := ⟨[], [], [], [], 1, [], []⟩

/-- Equality of two events under the unique index `events_natural_key`. -/
def EventCols.sameKey (a b : EventCols) : Bool :=
  a.identityID == b.identityID && a.ts == b.ts && a.type == b.type && a.outcome == b.outcome &&
    a.ip == b.ip && a.city == b.city && a.country == b.country && a.lat.pgEq b.lat &&
    a.lon.pgEq b.lon && a.device == b.device && a.resource == b.resource &&
    a.severity == b.severity

/-- The columns an event is written to. -/
def EventCols.ofEvent (e : Event) : EventCols :=
  { identityID := e.identityID, ts := timestamptz e.time, type := e.type, outcome := e.outcome,
    ip := e.ip, city := e.city, country := e.country, lat := e.lat, lon := e.lon,
    device := e.device, resource := e.resource, severity := e.severity }

/-- A row of `identities` created by naming its key and its flag alone. -/
def IdentityRow.blank (id : GoString) (privileged : Bool) : IdentityRow :=
  { id := id, privileged := privileged, type := "", source := "", owner := "", created := none,
    lastUsed := none, runtime := "", parent := "", attestation := "", shadow := false }

/-- The row an identity is inserted as; a zero time is `NULL`. -/
def IdentityRow.ofIdentity (i : Identity) : IdentityRow :=
  { id := i.id, privileged := i.privileged, type := i.type, source := i.source, owner := i.owner,
    created := if i.created.isZero then none else some (timestamptz i.created)
    lastUsed := if i.lastUsed.isZero then none else some (timestamptz i.lastUsed)
    runtime := i.runtime, parent := i.parent, attestation := i.attestation, shadow := i.shadow }

/-- `EXCLUDED.last_used > identities.last_used OR identities.last_used IS NULL`. -/
def lastUsedWins (excluded old : Option Int) : Bool :=
  match excluded, old with
  | _, none => true
  | none, some _ => false
  | some a, some b => b < a

/-- `ON CONFLICT (id) DO UPDATE` of `IngestIdentities`. -/
def IdentityRow.merge (r x : IdentityRow) : IdentityRow :=
  { id := r.id
    privileged := r.privileged || x.privileged
    type := if x.type ≠ "" then x.type else r.type
    source := if x.source ≠ "" then x.source else r.source
    owner := if x.owner ≠ "" then x.owner else r.owner
    created := x.created.or r.created
    lastUsed := if lastUsedWins x.lastUsed r.lastUsed then x.lastUsed else r.lastUsed
    runtime := if x.runtime ≠ "" then x.runtime else r.runtime
    parent := if x.parent ≠ "" then x.parent else r.parent
    attestation := if x.attestation ≠ "" then x.attestation else r.attestation
    shadow := r.shadow || x.shadow }

@[simp] theorem IdentityRow.merge_id (r x : IdentityRow) : (r.merge x).id = r.id := rfl

/-! ## Statements -/

/-- A statement of the two writers, with its parameters. -/
inductive Stmt where
  | upsertPrivileged (id : GoString) (privileged : Bool)
  | insertEvent (e : Event)
  | upsertIdentity (i : Identity)
  | deletePermissions (id : GoString)
  | upsertPermission (id : GoString) (p : Permission)
  | deleteActions (id name : GoString)
  | insertAction (id name : GoString) (position : Nat) (action : GoString)
  | deleteOnBehalfOf (id : GoString)
  | insertOnBehalfOf (id : GoString) (position : Nat) (principal : GoString)
  | deleteDeclaredModels (id : GoString)
  | insertDeclaredModel (id : GoString) (position : Nat) (m : DeclaredModel)

namespace Stmt

/-- The identity a statement is about. -/
def owner : Stmt → GoString
  | upsertPrivileged id _ | deletePermissions id | upsertPermission id _ | deleteActions id _
  | insertAction id _ _ _ | deleteOnBehalfOf id | insertOnBehalfOf id _ _ | deleteDeclaredModels id
  | insertDeclaredModel id _ _ => id
  | insertEvent e => e.identityID
  | upsertIdentity i => i.id

/-- The text parameters of a statement. -/
def texts : Stmt → List GoString
  | upsertPrivileged id _ => [id]
  | insertEvent e => [e.identityID, e.type, e.outcome, e.ip, e.city, e.country, e.device, e.resource,
      e.severity]
  | upsertIdentity i => [i.id, i.type, i.source, i.owner, i.runtime, i.parent, i.attestation]
  | deletePermissions id => [id]
  | upsertPermission id p => [id, p.name, p.arn]
  | deleteActions id name => [id, name]
  | insertAction id name _ action => [id, name, action]
  | deleteOnBehalfOf id => [id]
  | insertOnBehalfOf id _ principal => [id, principal]
  | deleteDeclaredModels id => [id]
  | insertDeclaredModel id _ m => [id, m.provider, m.model, m.endpoint]

/-- The effect of a statement. -/
def run (db : Db) : Stmt → Db
  | upsertPrivileged id privileged =>
    { db with
      identities := Keyed.upsert IdentityRow.id id (IdentityRow.blank id privileged)
        (fun r => { r with privileged := r.privileged || privileged }) db.identities }
  | insertEvent e =>
    -- the sequence is drawn from before the conflict is found
    { db with
      nextEventID := db.nextEventID + 1
      events := if db.events.any (·.cols.sameKey (EventCols.ofEvent e)) then db.events
        else db.events ++ [⟨db.nextEventID, EventCols.ofEvent e⟩] }
  | upsertIdentity i =>
    { db with
      identities := Keyed.upsert IdentityRow.id i.id (IdentityRow.ofIdentity i)
        (·.merge (IdentityRow.ofIdentity i)) db.identities }
  | deletePermissions id =>
    -- the actions go with the permissions they reference
    { db with
      permissions := db.permissions.filter fun r => r.identityID ≠ id
      permissionActions := db.permissionActions.filter fun r => r.identityID ≠ id }
  | upsertPermission id p =>
    { db with
      permissions := Keyed.upsert (fun r : PermissionRow => (r.identityID, r.name)) (id, p.name)
        ⟨id, p.name, p.admin, p.used, p.arn⟩
        (fun r => { r with admin := p.admin, used := p.used, arn := p.arn }) db.permissions }
  | deleteActions id name =>
    { db with
      permissionActions := db.permissionActions.filter fun r =>
        ¬ (r.identityID = id ∧ r.permissionName = name) }
  | insertAction id name position action =>
    { db with permissionActions := db.permissionActions ++ [⟨id, name, position, action⟩] }
  | deleteOnBehalfOf id =>
    { db with onBehalfOf := db.onBehalfOf.filter fun r => r.identityID ≠ id }
  | insertOnBehalfOf id position principal =>
    { db with onBehalfOf := db.onBehalfOf ++ [⟨id, position, principal⟩] }
  | deleteDeclaredModels id =>
    { db with declaredModels := db.declaredModels.filter fun r => r.identityID ≠ id }
  | insertDeclaredModel id position m =>
    { db with declaredModels := db.declaredModels ++ [⟨id, position, m⟩] }

/-- A statement executes when each of its texts can be stored. -/
def storable (st : Stmt) : Bool := st.texts.all textStorable

/-- Execute one statement. -/
def exec (db : Db) (st : Stmt) : Except Stmt Db :=
  if st.storable then .ok (st.run db) else .error st

end Stmt

/-- Execute a transaction: all of its statements, or none and the one that failed. -/
def commit (db : Db) (stmts : List Stmt) : Except Stmt Db := stmts.foldlM Stmt.exec db

/-! ## The writers -/

/-- The loop of `Ingest`; `seen` are the identities upserted so far. -/
def ingestFrom (privileged : GoString → Bool) : List GoString → List Event → List Stmt
  | _, [] => []
  | seen, e :: events =>
    if e.identityID ∈ seen then .insertEvent e :: ingestFrom privileged seen events
    else .upsertPrivileged e.identityID (privileged e.identityID) :: .insertEvent e ::
      ingestFrom privileged (e.identityID :: seen) events

/-- `Ingest`. -/
def ingest (events : List Event) (privileged : GoString → Bool) : List Stmt :=
  ingestFrom privileged [] events

/-- One permission of an identity. -/
def writePermission (id : GoString) (p : Permission) : List Stmt :=
  .upsertPermission id p :: .deleteActions id p.name ::
    p.actions.zipIdx.map fun (action, i) => .insertAction id p.name i action

/-- Pass 1 for one identity: its row, its permissions and their actions. -/
def writeIdentity (i : Identity) : List Stmt :=
  .upsertIdentity i :: .deletePermissions i.id :: i.permissions.flatMap (writePermission i.id)

/-- Pass 2 for one identity: its delegation chain and its declared models. -/
def writeLists (i : Identity) : List Stmt :=
  .deleteOnBehalfOf i.id ::
    (i.onBehalfOf.zipIdx.map fun (principal, k) => .insertOnBehalfOf i.id k principal) ++
  .deleteDeclaredModels i.id ::
    i.declaredModels.zipIdx.map fun (m, k) => .insertDeclaredModel i.id k m

/-- `IngestIdentities`. -/
def ingestIdentities (identities : List Identity) : List Stmt :=
  identities.flatMap writeIdentity ++ identities.flatMap writeLists

/-! ## Committing -/

/-- **A transaction commits exactly when every text in it can be stored**, and then does what its
statements do in order. -/
theorem commit_eq_ok {db db' : Db} {stmts : List Stmt} : commit db stmts = .ok db' ↔
    (∀ st ∈ stmts, st.storable = true) ∧ stmts.foldl Stmt.run db = db' := by
  unfold commit
  induction stmts generalizing db with
  | nil => simp [pure, Except.pure]
  | cons st stmts ih =>
    rw [List.foldlM_cons, List.foldl_cons, List.forall_mem_cons]
    by_cases h : st.storable = true
    · have hex : Stmt.exec db st = .ok (st.run db) := if_pos h
      rw [hex]
      refine ih.trans ?_
      rw [and_iff_right h]
    · have hex : Stmt.exec db st = .error st := if_neg h
      rw [hex]
      constructor
      · intro hc
        cases hc
      · rintro ⟨⟨hst, -⟩, -⟩
        exact absurd hst h

/-- Commit transactions one after another. -/
def commitAll (db : Db) (txs : List (List Stmt)) : Except Stmt Db := txs.foldlM commit db

theorem commitAll_eq_ok {db db' : Db} {txs : List (List Stmt)} : commitAll db txs = .ok db' ↔
    (∀ st ∈ txs.flatten, st.storable = true) ∧ txs.flatten.foldl Stmt.run db = db' := by
  have hflat : commitAll db txs = commit db txs.flatten := by
    unfold commitAll commit
    induction txs generalizing db with
    | nil => rfl
    | cons tx txs ih =>
      rw [List.foldlM_cons, List.flatten_cons, List.foldlM_append]
      congr 1
      funext d
      exact ih
  rw [hflat, commit_eq_ok]

end Pg

end Idryx
