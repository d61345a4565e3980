import Idryx.Lib.TornRead
import Idryx.Pg.Snapshot

/-!
# Snapshots while others write

Each statement of `Snapshot` runs by itself and sees the state committed when it starts, while
`Ingest` and `IngestIdentities` commit as whole transactions.

* `Tx`, `commitTx`: a transaction of another process, which leaves the database alone if it fails;
* `snapshotDuring`: the store an interleaving of transactions and statements returns;
* **`snapshotDuring_eq_snapshot`**: it is the store of one committed state if no transaction
  straddles some moment of the reading.
-/

namespace Idryx

namespace Pg

open TornRead

/-- A call of a writer by another process. -/
inductive Tx where
  | ingest (events : List Event) (privileged : GoString → Bool)
  | ingestIdentities (identities : List Identity)

/-- The statements of a call. -/
def Tx.stmts : Tx → List Stmt
  | .ingest events privileged => Pg.ingest events privileged
  | .ingestIdentities identities => Pg.ingestIdentities identities

/-- The committed state after a transaction, which is rolled back when a statement fails. -/
def commitTx (db : Db) (tx : Tx) : Db :=
  match commit db tx.stmts with
  | .ok db' => db'
  | .error _ => db

/-- The table that the `k`-th statement of `Snapshot` reads is the same. -/
def sameTable (k : Nat) (a b : Db) : Prop :=
  match k with
  | 0 | 1 => a.identities = b.identities
  | 2 => a.onBehalfOf = b.onBehalfOf
  | 3 => a.declaredModels = b.declaredModels
  | 4 => a.permissionActions = b.permissionActions
  | 5 => a.permissions = b.permissions
  | 6 => a.events = b.events
  | _ => True

/-- What `Snapshot` returns when its statements are the reads of `acts`. -/
def snapshotDuring (scan : Scan) (db : Db) (acts : List (Act Tx)) : Store :=
  snapshotReading scan fun k => (run commitTx (State.start db) acts).seen.getD k db

theorem sameTable_equivalence (k : Nat) : Equivalence (sameTable k) := by
  unfold sameTable
  split
  case h_8 => exact ⟨fun _ => trivial, fun _ => trivial, fun _ _ => trivial⟩
  all_goals exact ⟨fun _ => rfl, fun h => h.symm, fun h h' => h.trans h'⟩

theorem sameTable_of_le {k : Nat} (h : 7 ≤ k) (a b : Db) : sameTable k a b := by
  unfold sameTable
  split
  case h_8 => trivial
  all_goals omega

theorem snapshotReading_congr (scan : Scan) {seen seen' : Nat → Db}
    (h : ∀ k < 7, sameTable k (seen k) (seen' k)) :
    snapshotReading scan seen = snapshotReading scan seen' := by
  have h0 : (seen 0).identities = (seen' 0).identities := h 0 (by omega)
  have h1 : (seen 1).identities = (seen' 1).identities := h 1 (by omega)
  have h2 : (seen 2).onBehalfOf = (seen' 2).onBehalfOf := h 2 (by omega)
  have h3 : (seen 3).declaredModels = (seen' 3).declaredModels := h 3 (by omega)
  have h4 : (seen 4).permissionActions = (seen' 4).permissionActions := h 4 (by omega)
  have h5 : (seen 5).permissions = (seen' 5).permissions := h 5 (by omega)
  have h6 : (seen 6).events = (seen' 6).events := h 6 (by omega)
  unfold snapshotReading inventoryReading
  rw [h0, h1, h2, h3, h4, h5, h6]

/-- **A snapshot is the graph of one committed state** if at some moment of the run no transaction
straddles it: those that commit before it change no table already read, those that commit after it
change no table still to be read. -/
theorem snapshotDuring_eq_snapshot (scan : Scan) (db : Db) (before after : List (Act Tx))
    (hseven : (run commitTx (State.start db) (before ++ after)).seen.length = 7)
    (hb : Writes commitTx (SparesRead commitTx sameTable) (State.start db) before)
    (ha : Writes commitTx (SparesUnread commitTx sameTable)
      (run commitTx (State.start db) before) after) :
    ∃ c ∈ (run commitTx (State.start db) (before ++ after)).past,
      snapshotDuring scan db (before ++ after) = snapshot scan c := by
  refine ⟨(run commitTx (State.start db) before).now, ?_, ?_⟩
  · rw [run_append]
    refine past_subset_run commitTx _ after ?_
    exact now_mem_past commitTx (List.mem_singleton_self db) before
  · have hfresh := same_of_quiet sameTable_equivalence db hb ha
    refine snapshotReading_congr scan fun k hk => hfresh k _ ?_
    rw [List.getD_eq_getElem?_getD, List.getElem?_eq_getElem (by omega), Option.getD_some]

/-- A service account as its owner and its one grant describe it. -/
def owned (owner grant : GoString) : Identity :=
  { Identity.zero "svc" with
    type := identityServiceAccount, owner := owner, permissions := [⟨grant, false, true, [], ""⟩] }

/-- An event of that account. -/
def svcEgress : Event :=
  ⟨.seconds 63900000000, "svc", eventEgress, "success", "", "", "", ⟨0⟩, ⟨0⟩, "", "api.openai.com", "", ""⟩

/-- The event is committed after the fourth statement, and seen by the last. -/
theorem snapshotDuring_eq_snapshot_owned :
    let acts : List (Act Tx) := [.write (.ingestIdentities [owned "alice" "read"]), .read, .read, .read, .read,
      .write (.ingest [svcEgress] fun _ => false), .read, .read, .read, .write (.ingestIdentities [owned "bob" "admin"])]
    (∃ c ∈ (run commitTx (State.start Db.empty) acts).past,
      snapshotDuring Scan.table Db.empty acts = snapshot Scan.table c) ∧
      ((snapshotDuring Scan.table Db.empty acts).find "svc").map (fun i => i.events.map Event.resource) =
        some [("api.openai.com" : GoString)] := by
  refine ⟨snapshotDuring_eq_snapshot Scan.table Db.empty [.write (.ingestIdentities [owned "alice" "read"]), .read,
    .read, .read, .read, .write (.ingest [svcEgress] fun _ => false)] _ rfl ⟨?_, ?_, trivial⟩ ⟨?_, trivial⟩, by decide⟩
  · intro k hk
    exact absurd hk (Nat.not_lt_zero k)
  · intro k hk
    have hlt : k < 4 := hk
    match k, hlt with
    | 0, _ | 1, _ => rfl
    | 2, _ | 3, _ => rfl
  · intro k hk
    exact sameTable_of_le hk _ _

/-- A batch committed between two statements gives a graph that never was: the first owner with the
second grant. -/
theorem torn_snapshot :
    let acts : List (Act Tx) := [.write (.ingestIdentities [owned "alice" "read"]), .read, .read,
      .write (.ingestIdentities [owned "bob" "admin"]), .read, .read, .read, .read, .read]
    (run commitTx (State.start Db.empty) acts).seen.length = 7 ∧
      ((snapshotDuring Scan.table Db.empty acts).find "svc").map
        (fun i => (i.owner, i.permissions.map Permission.name)) =
          some (("alice" : GoString), [("admin" : GoString)]) ∧
      ∀ c ∈ (run commitTx (State.start Db.empty) acts).past,
        snapshotDuring Scan.table Db.empty acts ≠ snapshot Scan.table c := by
  intro acts
  have htorn : ((snapshotDuring Scan.table Db.empty acts).find "svc").map
      (fun i => (i.owner, i.permissions.map Permission.name)) =
        some (("alice" : GoString), [("admin" : GoString)]) := by decide
  have hpast : ∀ c ∈ (run commitTx (State.start Db.empty) acts).past,
      ((snapshot Scan.table c).find "svc").map
        (fun i => (i.owner, i.permissions.map Permission.name)) ≠
          some (("alice" : GoString), [("admin" : GoString)]) := by decide
  refine ⟨rfl, htorn, fun c hc heq => hpast c hc ?_⟩
  rw [← heq]
  exact htorn

end Pg

end Idryx
