import Idryx.Pg.Snapshot

/-!
# Identities through the database

What `IngestIdentities` and `Snapshot` make of a sequence of batches, against `AddIdentity`. Every
row of an identity is written by the statements of its reports; its lists and permissions are those
of the last one.

* `RowOf`: a row of `identities` stands for a node; **`rowOf_merge`**: merging keeps it so;
* `lastGrants`: each permission of a report as its last mention gives it;
* `identities_ingested`, `lists_ingested`, `permissions_ingested`: the tables after a sequence;
* **`ingestIdentities_refines`**: what a snapshot has in common with the in-memory store.
-/

namespace Idryx

namespace Pg

/-! ## The rows of `identities` -/

/-- The row stands for the node, times to the microsecond. -/
structure RowOf (r : IdentityRow) (i : Identity) : Prop where
  id : r.id = i.id
  privileged : r.privileged = i.privileged
  type : r.type = i.type
  source : r.source = i.source
  owner : r.owner = i.owner
  created : timestamptz i.created = r.created.getD 0
  lastUsed : timestamptz i.lastUsed = max 0 (r.lastUsed.getD 0)
  runtime : r.runtime = i.runtime
  parent : r.parent = i.parent
  attestation : r.attestation = i.attestation
  shadow : r.shadow = i.shadow

theorem timestamptz_of_isZero {t : Time} (h : t.isZero = true) : timestamptz t = 0 := by
  rw [Time.isZero_iff] at h
  rw [timestamptz, h]
  rfl

theorem rowOf_blank (id : GoString) : RowOf (IdentityRow.blank id false) (Identity.zero id) where
  id := rfl
  privileged := rfl
  type := rfl
  source := rfl
  owner := rfl
  created := timestamptz_of_isZero rfl
  lastUsed := timestamptz_of_isZero rfl
  runtime := rfl
  parent := rfl
  attestation := rfl
  shadow := rfl

theorem timestamptz_latest (t u : Time) :
    timestamptz (Time.latest t u) = max (timestamptz t) (timestamptz u) := by
  rw [timestamptz, timestamptz, timestamptz, Time.latest_instant]
  omega

/-- **Merging a report into the row and into the node keeps the one standing for the other.** -/
theorem rowOf_merge {r : IdentityRow} {j : Identity} (h : RowOf r j) (i : Identity) :
    RowOf (r.merge (IdentityRow.ofIdentity i)) (mergeIdentity j i) where
  id := h.id
  privileged := by
    change (r.privileged || i.privileged) = if i.privileged then true else j.privileged
    rw [h.privileged]
    cases i.privileged <;> simp
  type := by
    change (if i.type ≠ "" then i.type else r.type) = if i.type ≠ identityHuman then i.type else j.type
    rw [h.type]
    rfl
  source := by
    change (if i.source ≠ "" then i.source else r.source) = _
    rw [h.source]
    rfl
  owner := by
    change (if i.owner ≠ "" then i.owner else r.owner) = _
    rw [h.owner]
    rfl
  created := by
    change timestamptz (if !i.created.isZero then i.created else j.created) =
      ((if i.created.isZero then none else some (timestamptz i.created)).or r.created).getD 0
    cases hz : i.created.isZero with
    | true => exact h.created
    | false => rfl
  lastUsed := by
    change timestamptz (Time.latest j.lastUsed i.lastUsed) = max 0 (Option.getD (if lastUsedWins
      (if i.lastUsed.isZero then none else some (timestamptz i.lastUsed)) r.lastUsed then
      (if i.lastUsed.isZero then none else some (timestamptz i.lastUsed)) else r.lastUsed) 0)
    rw [timestamptz_latest, h.lastUsed]
    cases hz : i.lastUsed.isZero with
    | true =>
      rw [timestamptz_of_isZero hz]
      cases r.lastUsed with
      | none => rfl
      | some b => exact max_eq_left (le_max_left _ _)
    | false =>
      cases r.lastUsed with
      | none => simp [lastUsedWins]
      | some b =>
        simp only [lastUsedWins, Bool.false_eq_true, if_false, Option.getD_some, decide_eq_true_eq]
        split_ifs with hlt
        · rw [Option.getD_some]
          omega
        · rw [Option.getD_some]
          omega
  runtime := by
    change (if i.runtime ≠ "" then i.runtime else r.runtime) = _
    rw [h.runtime]
    rfl
  parent := by
    change (if i.parent ≠ "" then i.parent else r.parent) = _
    rw [h.parent]
    rfl
  attestation := by
    change (if i.attestation ≠ "" then i.attestation else r.attestation) = _
    rw [h.attestation]
    rfl
  shadow := by
    change (r.shadow || i.shadow) = if i.shadow then true else j.shadow
    rw [h.shadow]
    cases i.shadow <;> simp

theorem rowOf_foldl {r : IdentityRow} {j : Identity} (h : RowOf r j) (is : List Identity) :
    RowOf (is.foldl (fun r i => r.merge (IdentityRow.ofIdentity i)) r)
      (is.foldl mergeIdentity j) := by
  induction is generalizing r j with
  | nil => exact h
  | cons i is ih => exact ih (rowOf_merge h i)

theorem ofIdentity_id (i : Identity) : (IdentityRow.ofIdentity i).id = i.id := rfl

theorem merge_ofIdentity_id (r : IdentityRow) (i : Identity) (h : r.id = i.id) :
    (r.merge (IdentityRow.ofIdentity i)).id = i.id := h

theorem overwrite_empty (x : GoString) : (if x ≠ "" then x else "") = x := by
  split_ifs with h
  · rfl
  · exact (not_not.mp h).symm

theorem merge_blank (i : Identity) :
    (IdentityRow.blank i.id false).merge (IdentityRow.ofIdentity i) = IdentityRow.ofIdentity i := by
  unfold IdentityRow.merge
  rw [IdentityRow.ofIdentity, IdentityRow.mk.injEq]
  exact ⟨rfl, Bool.false_or _, overwrite_empty _, overwrite_empty _, overwrite_empty _,
    Option.or_none, rfl, overwrite_empty _, overwrite_empty _, overwrite_empty _, Bool.false_or _⟩

/-! ## What the statements of one report do -/

/-- The rows of `on_behalf_of` for a report. -/
def principalRows (i : Identity) : List PrincipalRow :=
  i.onBehalfOf.zipIdx.map fun (principal, k) => ⟨i.id, k, principal⟩

/-- The rows of `declared_models` for a report. -/
def modelRows (i : Identity) : List ModelRow :=
  i.declaredModels.zipIdx.map fun (m, k) => ⟨i.id, k, m⟩

/-- The rows of `permission_actions` for a permission. -/
def actionRows (id : GoString) (p : Permission) : List ActionRow :=
  p.actions.zipIdx.map fun (action, k) => ⟨id, p.name, k, action⟩

/-- Write one permission to the tables of permissions and of actions. -/
def grantStep (id : GoString) (t : List PermissionRow × List ActionRow) (p : Permission) :
    List PermissionRow × List ActionRow :=
  (Keyed.upsert (fun r : PermissionRow => (r.identityID, r.name)) (id, p.name)
    ⟨id, p.name, p.admin, p.used, p.arn⟩
    (fun r => { r with admin := p.admin, used := p.used, arn := p.arn }) t.1,
  (t.2.filter fun r => ¬ (r.identityID = id ∧ r.permissionName = p.name)) ++ actionRows id p)

/-- The two tables after the permissions of a report replaced those of its identity. -/
def replaceGrants (t : List PermissionRow × List ActionRow) (i : Identity) :
    List PermissionRow × List ActionRow :=
  i.permissions.foldl (grantStep i.id)
    (t.1.filter fun r => r.identityID ≠ i.id, t.2.filter fun r => r.identityID ≠ i.id)

theorem run_inserts {α ρ : Type*} {stmt : α → Stmt} {rowOf : α → ρ} (add : Db → List ρ → Db)
    (hnil : ∀ db, add db [] = db) (hadd : ∀ db xs ys, add (add db xs) ys = add db (xs ++ ys))
    (hrun : ∀ db a, Stmt.run db (stmt a) = add db [rowOf a]) (l : List α) (db : Db) :
    (l.map stmt).foldl Stmt.run db = add db (l.map rowOf) := by
  induction l generalizing db with
  | nil => exact (hnil db).symm
  | cons a l ih => rw [List.map_cons, List.foldl_cons, ih, hrun, hadd, List.singleton_append, List.map_cons]

theorem run_insertActions (id name : GoString) (l : List (GoString × Nat)) (db : Db) :
    (l.map fun (action, k) => Stmt.insertAction id name k action).foldl Stmt.run db =
      { db with permissionActions :=
          db.permissionActions ++ l.map fun (action, k) => ⟨id, name, k, action⟩ } :=
  run_inserts (fun db rows => { db with permissionActions := db.permissionActions ++ rows }) (fun _ => by rw [List.append_nil])
    (fun _ _ _ => by rw [List.append_assoc]) (fun _ _ => rfl) l db

theorem run_insertOnBehalfOf (id : GoString) (l : List (GoString × Nat)) (db : Db) :
    (l.map fun (principal, k) => Stmt.insertOnBehalfOf id k principal).foldl Stmt.run db =
      { db with onBehalfOf := db.onBehalfOf ++ l.map fun (principal, k) => ⟨id, k, principal⟩ } :=
  run_inserts (fun db rows => { db with onBehalfOf := db.onBehalfOf ++ rows }) (fun _ => by rw [List.append_nil])
    (fun _ _ _ => by rw [List.append_assoc]) (fun _ _ => rfl) l db

theorem run_insertDeclaredModels (id : GoString) (l : List (DeclaredModel × Nat)) (db : Db) :
    (l.map fun (m, k) => Stmt.insertDeclaredModel id k m).foldl Stmt.run db =
      { db with declaredModels := db.declaredModels ++ l.map fun (m, k) => ⟨id, k, m⟩ } :=
  run_inserts (fun db rows => { db with declaredModels := db.declaredModels ++ rows }) (fun _ => by rw [List.append_nil])
    (fun _ _ _ => by rw [List.append_assoc]) (fun _ _ => rfl) l db

theorem run_writePermissions (id : GoString) (ps : List Permission) (db : Db) :
    (ps.flatMap (writePermission id)).foldl Stmt.run db =
      { db with
        permissions := (ps.foldl (grantStep id) (db.permissions, db.permissionActions)).1
        permissionActions := (ps.foldl (grantStep id) (db.permissions, db.permissionActions)).2 } := by
  induction ps generalizing db with
  | nil => rfl
  | cons p ps ih =>
    rw [List.flatMap_cons, List.foldl_append, ih, writePermission, List.foldl_cons,
      List.foldl_cons, run_insertActions]
    rfl

/-- Pass 1 for one report. -/
def applyIdentity (db : Db) (i : Identity) : Db :=
  { db with
    identities := Keyed.upsert IdentityRow.id i.id (IdentityRow.ofIdentity i)
      (·.merge (IdentityRow.ofIdentity i)) db.identities
    permissions := (replaceGrants (db.permissions, db.permissionActions) i).1
    permissionActions := (replaceGrants (db.permissions, db.permissionActions) i).2 }

/-- Pass 2 for one report. -/
def applyLists (db : Db) (i : Identity) : Db :=
  { db with
    onBehalfOf := (db.onBehalfOf.filter fun r => r.identityID ≠ i.id) ++ principalRows i
    declaredModels := (db.declaredModels.filter fun r => r.identityID ≠ i.id) ++ modelRows i }

theorem run_writeIdentity (db : Db) (i : Identity) :
    (writeIdentity i).foldl Stmt.run db = applyIdentity db i := by
  rw [writeIdentity, List.foldl_cons, List.foldl_cons, run_writePermissions]
  rfl

theorem run_writeLists (db : Db) (i : Identity) :
    (writeLists i).foldl Stmt.run db = applyLists db i := by
  rw [writeLists, List.foldl_append, List.foldl_cons, run_insertDeclaredModels, List.foldl_cons,
    run_insertOnBehalfOf]
  rfl

/-- **One `IngestIdentities` call**: pass 1 over all reports, then pass 2. -/
theorem run_ingestIdentities (db : Db) (is : List Identity) :
    (ingestIdentities is).foldl Stmt.run db =
      is.foldl applyLists (is.foldl applyIdentity db) := by
  rw [ingestIdentities, List.foldl_append, List.foldl_flatMap, List.foldl_flatMap]
  simp only [run_writeIdentity, run_writeLists]

/-! ## Sequences of calls -/

/-- The database after a sequence of calls. -/
def ingested (batches : List (List Identity)) : Db :=
  batches.foldl (fun db is => is.foldl applyLists (is.foldl applyIdentity db)) Db.empty

theorem commitAll_ingestIdentities {batches : List (List Identity)} {db : Db}
    (h : commitAll Db.empty (batches.map ingestIdentities) = .ok db) : ingested batches = db := by
  rw [← (commitAll_eq_ok.mp h).2, List.foldl_flatten, List.foldl_map]
  simp only [run_ingestIdentities]
  rfl

section Views

variable {γ : Type*} (f : Db → γ) {w : γ → Identity → γ}

theorem batch_pass1 (h1 : ∀ db i, f (applyIdentity db i) = w (f db) i)
    (h2 : ∀ db i, f (applyLists db i) = f db) (is : List Identity) (db : Db) :
    f (is.foldl applyLists (is.foldl applyIdentity db)) = is.foldl w (f db) := by
  have hlists : f (is.foldl applyLists (is.foldl applyIdentity db)) =
      f (is.foldl applyIdentity db) := Loop.foldl_fixed (fun db i _ => h2 db i) _
  rw [hlists]
  exact (List.foldl_hom f fun db i => (h1 db i).symm).symm

theorem batch_pass2 (h1 : ∀ db i, f (applyIdentity db i) = f db)
    (h2 : ∀ db i, f (applyLists db i) = w (f db) i) (is : List Identity) (db : Db) :
    f (is.foldl applyLists (is.foldl applyIdentity db)) = is.foldl w (f db) := by
  have hfirst : f (is.foldl applyIdentity db) = f db := Loop.foldl_fixed (fun db i _ => h1 db i) db
  rw [← hfirst]
  exact (List.foldl_hom f fun db i => (h2 db i).symm).symm

theorem view_pass1 (h1 : ∀ db i, f (applyIdentity db i) = w (f db) i)
    (h2 : ∀ db i, f (applyLists db i) = f db) (batches : List (List Identity)) :
    f (ingested batches) = batches.flatten.foldl w (f Db.empty) := by
  rw [List.foldl_flatten]
  exact (List.foldl_hom f fun db is => (batch_pass1 f h1 h2 is db).symm).symm

theorem view_pass2 (h1 : ∀ db i, f (applyIdentity db i) = f db)
    (h2 : ∀ db i, f (applyLists db i) = w (f db) i) (batches : List (List Identity)) :
    f (ingested batches) = batches.flatten.foldl w (f Db.empty) := by
  rw [List.foldl_flatten]
  exact (List.foldl_hom f fun db is => (batch_pass2 f h1 h2 is db).symm).symm

end Views

theorem foldl_last {γ : Type*} (w : Identity → γ) (v : γ) (id : GoString) (is : List Identity) :
    is.foldl (fun v i => if i.id = id then w i else v) v =
      ((Keyed.reports Identity.id id is).getLast?.map w).getD v := by
  induction is generalizing v with
  | nil => rfl
  | cons i is ih =>
    rw [List.foldl_cons, ih, Keyed.reports_cons]
    split_ifs
    · cases hr : Keyed.reports Identity.id id is with
      | nil => rfl
      | cons j js => rw [List.getLast?_cons_cons]; rfl
    · rfl

/-- **The rows of identities** are the merges of their reports. -/
theorem identities_ingested (batches : List (List Identity)) :
    (ingested batches).identities = Keyed.upserts IdentityRow.id Identity.id
      IdentityRow.ofIdentity (fun r i => r.merge (IdentityRow.ofIdentity i)) [] batches.flatten :=
  view_pass1 Db.identities (fun _ _ => rfl) (fun _ _ => rfl) batches

theorem events_ingested (batches : List (List Identity)) : (ingested batches).events = [] := by
  have h := view_pass1 Db.events (w := fun v _ => v) (fun _ _ => rfl) (fun _ _ => rfl) batches
  rw [h, List.foldl_fixed]
  rfl

theorem filter_replace {α : Type*} (owner : α → GoString) (rows new : List α) (id j : GoString)
    (hnew : ∀ r ∈ new, owner r = j) :
    ((rows.filter fun r => owner r ≠ j) ++ new).filter (fun r => owner r = id) =
      if j = id then new else rows.filter fun r => owner r = id := by
  rw [List.filter_append]
  split_ifs with h
  · subst h
    have hnil : (rows.filter fun r => owner r ≠ j).filter (fun r => owner r = j) = [] := by
      rw [List.filter_filter, List.filter_eq_nil_iff]
      simp
    rw [hnil, List.nil_append, List.filter_eq_self]
    exact fun r hr => decide_eq_true (hnew r hr)
  · have hnil : new.filter (fun r => decide (owner r = id)) = [] := by
      rw [List.filter_eq_nil_iff]
      intro r hr hid
      exact h ((hnew r hr).symm.trans (of_decide_eq_true hid))
    rw [hnil, List.append_nil]
    refine Keyed.filter_filter_of_imp (fun r hr => ?_) rows
    rw [decide_eq_true_eq] at hr ⊢
    exact fun hj => h (hj.symm.trans hr)

theorem principals_applyLists (db : Db) (i : Identity) (id : GoString) :
    ((applyLists db i).onBehalfOf.filter fun r => r.identityID = id) =
      if i.id = id then principalRows i else db.onBehalfOf.filter fun r => r.identityID = id := by
  refine filter_replace PrincipalRow.identityID _ _ id i.id fun r hr => ?_
  obtain ⟨a, -, rfl⟩ := List.mem_map.mp hr
  rfl

theorem models_applyLists (db : Db) (i : Identity) (id : GoString) :
    ((applyLists db i).declaredModels.filter fun r => r.identityID = id) =
      if i.id = id then modelRows i else db.declaredModels.filter fun r => r.identityID = id := by
  refine filter_replace ModelRow.identityID _ _ id i.id fun r hr => ?_
  obtain ⟨a, -, rfl⟩ := List.mem_map.mp hr
  rfl

/-- **The chain and the models of an id** are those of its last report. -/
theorem lists_ingested (batches : List (List Identity)) (id : GoString) :
    (ingested batches).onBehalfOf.filter (fun r => r.identityID = id) =
      ((Keyed.reports Identity.id id batches.flatten).getLast?.map principalRows).getD [] ∧
    (ingested batches).declaredModels.filter (fun r => r.identityID = id) =
      ((Keyed.reports Identity.id id batches.flatten).getLast?.map modelRows).getD [] := by
  constructor
  · rw [view_pass2 (fun db => db.onBehalfOf.filter fun r => r.identityID = id)
      (w := fun v i => if i.id = id then principalRows i else v) (fun _ _ => rfl)
      (fun db i => principals_applyLists db i id) batches]
    exact foldl_last principalRows _ id _
  · rw [view_pass2 (fun db => db.declaredModels.filter fun r => r.identityID = id)
      (w := fun v i => if i.id = id then modelRows i else v) (fun _ _ => rfl)
      (fun db i => models_applyLists db i id) batches]
    exact foldl_last modelRows _ id _

/-! ## Permissions -/

/-- The permissions of a report, each name once, as its last mention gives it. -/
def lastGrants (ps : List Permission) : List Permission :=
  ps.foldl (fun out p => Keyed.upsert Permission.name p.name p (fun _ => p) out) []

theorem lookup_lastGrants (ps : List Permission) (name : GoString) :
    Keyed.lookup Permission.name name (lastGrants ps) =
      (Keyed.reports Permission.name name ps).getLast? := by
  have hfold : ∀ (ps : List Permission) (o : Option Permission),
      ps.foldl (fun o p => some (o.elim p fun _ => p)) o = ps.getLast?.or o := by
    intro ps
    induction ps with
    | nil => exact fun o => rfl
    | cons p ps ih =>
      intro o
      have hp : o.elim p (fun _ => p) = p := by cases o <;> rfl
      rw [List.foldl_cons, ih, hp]
      cases ps with
      | nil => rfl
      | cons q qs => rw [List.getLast?_cons_cons, List.getLast?_cons]; rfl
  have hu : ∀ q p : Permission, q.name = p.name → p.name = p.name := fun _ _ _ => rfl
  refine (Keyed.lookup_upserts (fun _ => rfl) hu name [] ps).trans ?_
  refine (hfold _ _).trans (Option.or_none)

/-- The rows of an identity and their actions. -/
def ownGrants (id : GoString) (t : List PermissionRow × List ActionRow) :
    List PermissionRow × List ActionRow :=
  (t.1.filter fun r => r.identityID = id, t.2.filter fun r => r.identityID = id)

theorem ownGrants_grantStep (id : GoString) (t : List PermissionRow × List ActionRow)
    (p : Permission) : ownGrants id (grantStep id t p) = grantStep id (ownGrants id t) p := by
  refine Prod.ext ?_ ?_
  · refine Keyed.filter_upsert ?_ ?_ t.1
    · exact decide_eq_true rfl
    · intro r hr
      rw [Prod.mk.injEq] at hr
      exact ⟨decide_eq_true hr.1, decide_eq_true hr.1⟩
  · change ((t.2.filter _) ++ actionRows id p).filter _ = ((t.2.filter _).filter _) ++ _
    rw [List.filter_append]
    congr 1
    · rw [List.filter_filter, List.filter_filter]
      exact List.filter_congr fun r _ => Bool.and_comm _ _
    · rw [List.filter_eq_self]
      intro r hr
      obtain ⟨a, -, rfl⟩ := List.mem_map.mp hr
      exact decide_eq_true rfl

theorem ownGrants_grantStep_of_ne {id j : GoString} (h : j ≠ id)
    (t : List PermissionRow × List ActionRow) (p : Permission) :
    ownGrants id (grantStep j t p) = ownGrants id t := by
  refine Prod.ext ?_ ?_
  · refine Keyed.filter_upsert_not ?_ ?_ t.1
    · exact decide_eq_false h
    · intro r hr
      rw [Prod.mk.injEq] at hr
      have hne : r.identityID ≠ id := hr.1 ▸ h
      exact ⟨decide_eq_false hne, decide_eq_false hne⟩
  · change ((t.2.filter _) ++ actionRows j p).filter _ = t.2.filter _
    have hnil : (actionRows j p).filter (fun r => r.identityID = id) = [] := by
      rw [List.filter_eq_nil_iff]
      intro r hr hid
      obtain ⟨a, -, rfl⟩ := List.mem_map.mp hr
      exact h (of_decide_eq_true hid)
    rw [List.filter_append, hnil, List.append_nil]
    refine Keyed.filter_filter_of_imp (fun r hr => ?_) t.2
    rw [decide_eq_true_eq] at hr ⊢
    exact fun hj => h (hj.1.symm.trans hr)

theorem ownGrants_replaceGrants (id : GoString) (t : List PermissionRow × List ActionRow)
    (i : Identity) : ownGrants id (replaceGrants t i) =
      if i.id = id then i.permissions.foldl (grantStep id) ([], []) else ownGrants id t := by
  unfold replaceGrants
  split_ifs with h
  · subst h
    rw [← List.foldl_hom (ownGrants i.id) fun t p => (ownGrants_grantStep i.id t p).symm]
    congr 1
    simp [ownGrants, List.filter_filter]
  · rw [Loop.foldl_fixed (f := ownGrants id) fun t p _ => ownGrants_grantStep_of_ne h t p]
    refine Prod.ext ?_ ?_
    · refine Keyed.filter_filter_of_imp (fun r hr => ?_) t.1
      rw [decide_eq_true_eq] at hr ⊢
      exact fun hj => h (hj.symm.trans hr)
    · refine Keyed.filter_filter_of_imp (fun r hr => ?_) t.2
      rw [decide_eq_true_eq] at hr ⊢
      exact fun hj => h (hj.symm.trans hr)

/-- **The rows of an id's permissions** are those of its last report. -/
theorem permissions_ingested (batches : List (List Identity)) (id : GoString) :
    ownGrants id ((ingested batches).permissions, (ingested batches).permissionActions) =
      ((Keyed.reports Identity.id id batches.flatten).getLast?.map
        fun i => i.permissions.foldl (grantStep id) ([], [])).getD ([], []) := by
  rw [view_pass1 (fun db => ownGrants id (db.permissions, db.permissionActions))
    (w := fun v i => if i.id = id then i.permissions.foldl (grantStep id) ([], []) else v)
    (fun db i => ownGrants_replaceGrants id _ i) (fun _ _ => rfl) batches]
  exact foldl_last (fun i => i.permissions.foldl (grantStep id) ([], [])) _ id _

/-! ## Reading the lists back -/

theorem pairwise_zipIdx {α β : Type*} (g : α × Nat → β) {r : β → β → Prop}
    (h : ∀ a b, a.2 < b.2 → r (g a) (g b)) (l : List α) : (l.zipIdx.map g).Pairwise r := by
  have hlt : (l.zipIdx.map Prod.snd).Pairwise (· < ·) := by
    rw [List.zipIdx_map_snd]
    exact List.pairwise_lt_range'
  rw [List.pairwise_map] at hlt ⊢
  exact hlt.imp fun {a b} hab => h a b hab

theorem map_fst_zipIdx {α β : Type*} (g : α × Nat → β) (f : β → α) (h : ∀ a, f (g a) = a.1)
    (l : List α) : (l.zipIdx.map g).map f = l := by
  rw [List.map_map]
  refine Eq.trans (List.map_congr_left fun a _ => h a) ?_
  exact List.zipIdx_map_fst 0 l

theorem principalsOf_eq {rows : List PrincipalRow} {i : Identity}
    (h : rows.filter (fun r => r.identityID = i.id) = principalRows i) :
    principalsOf rows i.id = i.onBehalfOf := by
  rw [principalsOf, StableSort.filter_insertionSort_of_pairwise, h]
  · exact map_fst_zipIdx _ PrincipalRow.principal (fun _ => rfl) _
  · rw [h]
    refine pairwise_zipIdx _ ?_ _
    intro a b hab
    exact Or.inr ⟨rfl, hab.le⟩

theorem modelsOf_eq {rows : List ModelRow} {i : Identity}
    (h : rows.filter (fun r => r.identityID = i.id) = modelRows i) :
    modelsOf rows i.id = i.declaredModels := by
  rw [modelsOf, StableSort.filter_insertionSort_of_pairwise, h]
  · exact map_fst_zipIdx _ ModelRow.model (fun _ => rfl) _
  · rw [h]
    refine pairwise_zipIdx _ ?_ _
    intro a b hab
    exact Or.inr ⟨rfl, hab.le⟩

theorem actionsOf_congr {rows rows' : List ActionRow} {id name : GoString}
    (h : rows.filter (fun r => r.identityID = id ∧ r.permissionName = name) =
      rows'.filter fun r => r.identityID = id ∧ r.permissionName = name) :
    actionsOf rows id name = actionsOf rows' id name := by
  rw [actionsOf, actionsOf, StableSort.filter_insertionSort, StableSort.filter_insertionSort, h]

theorem actionsOf_grantStep (id name : GoString) (t : List PermissionRow × List ActionRow)
    (p : Permission) : actionsOf (grantStep id t p).2 id name =
      if name = p.name then p.actions else actionsOf t.2 id name := by
  split_ifs with h
  · subst h
    have hrows : (grantStep id t p).2.filter
        (fun r => r.identityID = id ∧ r.permissionName = p.name) = actionRows id p := by
      change ((t.2.filter _) ++ actionRows id p).filter _ = _
      have hnil : (t.2.filter fun r => ¬ (r.identityID = id ∧ r.permissionName = p.name)).filter
          (fun r => r.identityID = id ∧ r.permissionName = p.name) = [] := by
        rw [List.filter_filter, List.filter_eq_nil_iff]
        intro r _
        simp
      rw [List.filter_append, hnil, List.nil_append, List.filter_eq_self]
      intro r hr
      obtain ⟨a, -, rfl⟩ := List.mem_map.mp hr
      exact decide_eq_true ⟨rfl, rfl⟩
    rw [actionsOf, StableSort.filter_insertionSort_of_pairwise, hrows]
    · exact map_fst_zipIdx _ ActionRow.action (fun _ => rfl) _
    · rw [hrows]
      refine pairwise_zipIdx _ ?_ _
      intro a b hab
      exact Or.inr ⟨rfl, Or.inr ⟨rfl, hab.le⟩⟩
  · refine actionsOf_congr ?_
    change ((t.2.filter _) ++ actionRows id p).filter _ = _
    have hnil : (actionRows id p).filter
        (fun r => r.identityID = id ∧ r.permissionName = name) = [] := by
      rw [List.filter_eq_nil_iff]
      intro r hr hname
      obtain ⟨a, -, rfl⟩ := List.mem_map.mp hr
      exact h (of_decide_eq_true hname).2.symm
    rw [List.filter_append, hnil, List.append_nil]
    refine Keyed.filter_filter_of_imp (fun r hr => ?_) t.2
    rw [decide_eq_true_eq] at hr ⊢
    exact fun hp => h (hr.2.symm.trans hp.2)

/-- The rows read back are the permissions written. -/
structure ReadsBack (id : GoString) (t : List PermissionRow × List ActionRow)
    (ps : List Permission) : Prop where
  owned : ∀ r ∈ t.1, r.identityID = id
  distinct : (t.1.map fun r => (r.identityID, r.name)).Nodup
  reads : t.1.map (PermissionRow.toPermission (actionsOf t.2)) = ps

theorem map_toPermission_upsert {id : GoString} {p : Permission}
    {act act' : GoString → GoString → List GoString}
    (hact : ∀ n, act' id n = if n = p.name then p.actions else act id n) :
    ∀ {rows : List PermissionRow}, (∀ r ∈ rows, r.identityID = id) →
      (rows.map fun r => (r.identityID, r.name)).Nodup →
      (Keyed.upsert (fun r : PermissionRow => (r.identityID, r.name)) (id, p.name)
        ⟨id, p.name, p.admin, p.used, p.arn⟩
        (fun r => { r with admin := p.admin, used := p.used, arn := p.arn }) rows).map
          (PermissionRow.toPermission act') =
        Keyed.upsert Permission.name p.name p (fun _ => p)
          (rows.map (PermissionRow.toPermission act))
  | [], _, _ => by simp [Keyed.upsert, PermissionRow.toPermission, hact]
  | r :: rows, howned, hn => by
    have hr : r.identityID = id := howned r List.mem_cons_self
    rw [List.map_cons, List.nodup_cons] at hn
    by_cases hname : r.name = p.name
    · have hrest : rows.map (PermissionRow.toPermission act') =
          rows.map (PermissionRow.toPermission act) := by
        refine List.map_congr_left fun r' hr' => ?_
        have hr'id := howned r' (List.mem_cons_of_mem _ hr')
        have hne : r'.name ≠ p.name := by
          intro heq
          refine hn.1 (List.mem_map.mpr ⟨r', hr', ?_⟩)
          rw [hr, hr'id, hname, heq]
        simp [PermissionRow.toPermission, hr'id, hact, hne]
      simp [Keyed.upsert, PermissionRow.toPermission, hr, hname, hact, hrest]
    · have ih := map_toPermission_upsert hact
        (fun r' hr' => howned r' (List.mem_cons_of_mem _ hr')) hn.2
      simp [Keyed.upsert, PermissionRow.toPermission, hr, hname, hact, ih]

theorem readsBack_grantStep {id : GoString} {t : List PermissionRow × List ActionRow}
    {ps : List Permission} (h : ReadsBack id t ps) (p : Permission) :
    ReadsBack id (grantStep id t p) (Keyed.upsert Permission.name p.name p (fun _ => p) ps) where
  owned := by
    intro r hr
    have hkey : (r.identityID, r.name) ∈ (grantStep id t p).1.map fun r => (r.identityID, r.name) :=
      List.mem_map.mpr ⟨r, hr, rfl⟩
    rcases (Keyed.mem_keys_upsert (by rfl) (by exact fun _ h => h)).mp hkey with hold | hnew
    · obtain ⟨r', hr', heq⟩ := List.mem_map.mp hold
      rw [Prod.mk.injEq] at heq
      exact heq.1.symm.trans (h.owned r' hr')
    · rw [Prod.mk.injEq] at hnew
      exact hnew.1
  distinct := by
    refine Keyed.nodup_upsert ?_ ?_ h.distinct
    · rfl
    · exact fun _ h => h
  reads := by
    rw [← h.reads]
    exact map_toPermission_upsert (fun n => actionsOf_grantStep id n t p) h.owned h.distinct

/-- **Reading back the permissions of a report** gives each name as last mentioned. -/
theorem readsBack_foldl (id : GoString) (ps : List Permission) :
    ReadsBack id (ps.foldl (grantStep id) ([], [])) (lastGrants ps) := by
  have hgen : ∀ (ps : List Permission) (t : List PermissionRow × List ActionRow)
      (out : List Permission), ReadsBack id t out →
        ReadsBack id (ps.foldl (grantStep id) t)
          (ps.foldl (fun out p => Keyed.upsert Permission.name p.name p (fun _ => p) out) out) := by
    intro ps
    induction ps with
    | nil => exact fun _ _ h => h
    | cons p ps ih => exact fun t out h => ih _ _ (readsBack_grantStep h p)
  exact hgen ps _ _ ⟨by simp, List.nodup_nil, rfl⟩

/-! ## Agreement -/

/-- The same in every field but the lists, times to the microsecond. -/
structure Agrees (i j : Identity) : Prop where
  id : i.id = j.id
  type : i.type = j.type
  privileged : i.privileged = j.privileged
  events : i.events = j.events
  source : i.source = j.source
  owner : i.owner = j.owner
  created : i.created.instant = timestamptz j.created * 1000
  lastUsed : i.lastUsed.instant = timestamptz j.lastUsed * 1000
  runtime : i.runtime = j.runtime
  parent : i.parent = j.parent
  attestation : i.attestation = j.attestation
  shadow : i.shadow = j.shadow

theorem scanTime_instant (t : Option Int) : (scanTime t).instant = t.getD 0 * 1000 := by
  cases t with
  | none => rfl
  | some us => exact Time.ofTimestamptz_instant us

theorem agrees_of_rowOf {r : IdentityRow} {j : Identity} (h : RowOf r j) (hj : j.events = [])
    {priv : Bool} (hpriv : priv = r.privileged) {id : GoString} (hid : r.id = id) :
    Agrees (mergeIdentity { Identity.zero id with privileged := priv } r.toIdentity) j where
  id := hid.symm.trans h.id
  type := (overwrite_empty r.type).trans h.type
  privileged := by
    change (if r.privileged then true else priv) = _
    rw [hpriv, ← h.privileged]
    cases r.privileged <;> rfl
  events := hj.symm
  source := (overwrite_empty r.source).trans h.source
  owner := (overwrite_empty r.owner).trans h.owner
  created := by
    change (if !(scanTime r.created).isZero then scanTime r.created else Time.zero).instant = _
    rw [h.created]
    cases hz : (scanTime r.created).isZero with
    | false => exact scanTime_instant r.created
    | true =>
      rw [Time.isZero_iff, scanTime_instant] at hz
      exact hz.symm
  lastUsed := by
    change (Time.latest Time.zero (scanTime r.lastUsed)).instant = _
    rw [Time.latest_instant, scanTime_instant, h.lastUsed, Time.zero_instant]
    omega
  runtime := (overwrite_empty r.runtime).trans h.runtime
  parent := (overwrite_empty r.parent).trans h.parent
  attestation := (overwrite_empty r.attestation).trans h.attestation
  shadow := by
    change (if r.shadow then true else false) = _
    rw [← h.shadow]
    cases r.shadow <;> rfl

/-- The last report of an id in a sequence of batches. -/
def lastReport (batches : List (List Identity)) (id : GoString) : Option Identity :=
  (Keyed.reports Identity.id id batches.flatten).getLast?

theorem lastReport_id {batches : List (List Identity)} {id : GoString} {x : Identity}
    (h : lastReport batches id = some x) : x.id = id :=
  (Keyed.mem_reports.mp (List.mem_of_getLast? h)).2

theorem onBehalfOf_foldl_mergeIdentity {is : List Identity} (h : ∀ i ∈ is, i.onBehalfOf = [])
    (j : Identity) : (is.foldl mergeIdentity j).onBehalfOf = j.onBehalfOf :=
  Loop.foldl_fixed (fun _ i hi => if_neg (not_not.mpr (h i hi))) j

theorem declaredModels_foldl_mergeIdentity {is : List Identity}
    (h : ∀ i ∈ is, i.declaredModels = []) (j : Identity) :
    (is.foldl mergeIdentity j).declaredModels = j.declaredModels :=
  Loop.foldl_fixed (fun _ i hi => if_neg (not_not.mpr (h i hi))) j

/-- In memory a list that is not empty in the last report, or is empty in all, is that of the last
report. -/
theorem lists_foldl_mergeIdentity {is : List Identity} {x j : Identity}
    (h : is.getLast? = some x) (hobo : j.onBehalfOf = []) (hdm : j.declaredModels = []) :
    (x.onBehalfOf ≠ [] ∨ (∀ y ∈ is, y.onBehalfOf = []) →
      (is.foldl mergeIdentity j).onBehalfOf = x.onBehalfOf) ∧
    (x.declaredModels ≠ [] ∨ (∀ y ∈ is, y.declaredModels = []) →
      (is.foldl mergeIdentity j).declaredModels = x.declaredModels) := by
  have hmem := List.mem_of_getLast? h
  constructor
  · rintro (hne | hall)
    · obtain ⟨init, rfl⟩ := List.getLast?_eq_some_iff.mp h
      rw [List.foldl_append]
      exact if_pos hne
    · rw [onBehalfOf_foldl_mergeIdentity hall, hobo, hall x hmem]
  · rintro (hne | hall)
    · obtain ⟨init, rfl⟩ := List.getLast?_eq_some_iff.mp h
      rw [List.foldl_append]
      exact if_pos hne
    · rw [declaredModels_foldl_mergeIdentity hall, hdm, hall x hmem]

section Refine

variable (scan : Scan) {batches : List (List Identity)}
  (he : ∀ i ∈ batches.flatten, i.events = []) {id : GoString} {x : Identity}

theorem lookup_ingested (hx : lastReport batches id = some x) :
    Keyed.lookup IdentityRow.id id (ingested batches).identities =
      some ((Keyed.reports Identity.id id batches.flatten).foldl
        (fun r i => r.merge (IdentityRow.ofIdentity i)) (IdentityRow.blank id false)) := by
  have hne : Keyed.reports Identity.id id batches.flatten ≠ [] := by
    intro hnil
    rw [lastReport, hnil] at hx
    cases hx
  have hf : ∀ i : Identity, i.id = id →
      IdentityRow.ofIdentity i = (IdentityRow.blank id false).merge (IdentityRow.ofIdentity i) := by
    rintro i rfl
    exact (merge_blank i).symm
  rw [identities_ingested]
  exact Keyed.lookup_upserts_fresh ofIdentity_id merge_ofIdentity_id hf [] hne

theorem nodup_ingested (batches : List (List Identity)) :
    ((ingested batches).identities.map IdentityRow.id).Nodup := by
  rw [identities_ingested]
  exact Keyed.nodup_upserts ofIdentity_id merge_ofIdentity_id (by exact List.nodup_nil) _

theorem find_addIdentities_new (hx : lastReport batches id = some x) :
    (batches.flatten.foldl Store.addIdentity (Store.new fun _ => false)).find id =
      some ((Keyed.reports Identity.id id batches.flatten).foldl mergeIdentity
        (Identity.zero id)) := by
  rw [Store.find_addIdentities, if_neg]
  · rfl
  · intro hnil
    rw [lastReport, hnil] at hx
    cases hx

theorem filter_ingested {r : IdentityRow}
    (hr : Keyed.lookup IdentityRow.id id (ingested batches).identities = some r) :
    (ingested batches).identities.filter (fun r => r.id = id) = [r] ∧
      ((ingested batches).identities.any fun r => r.id == id && r.privileged) = r.privileged := by
  have hone := Keyed.filter_key_eq_singleton (nodup_ingested batches) hr
  refine ⟨hone, ?_⟩
  have hany : ((ingested batches).identities.any fun r => r.id == id && r.privileged) =
      ((ingested batches).identities.filter fun r => r.id = id).any IdentityRow.privileged := by
    rw [List.any_filter]
    congr 1
    funext r
    congr 1
    exact beq_eq_decide ..
  rw [hany, hone]
  exact Bool.or_false _

theorem permissionsOf_ingested (hx : lastReport batches id = some x) :
    (permissionsOf (scan.order 5 (ingested batches).permissions)
      (ingested batches).permissionActions id).Perm (lastGrants x.permissions) := by
  have hown := permissions_ingested batches id
  rw [← lastReport, hx] at hown
  have hback := readsBack_foldl id x.permissions
  rw [← show ownGrants id _ = x.permissions.foldl (grantStep id) ([], []) from hown] at hback
  refine ((scan.perm 5 _).filter _ |>.map _).trans (List.Perm.of_eq ?_)
  rw [← hback.reads]
  refine List.map_congr_left fun r hr => ?_
  have hid : r.identityID = id := hback.owned r hr
  have hact : actionsOf (ingested batches).permissionActions id r.name =
      actionsOf ((ingested batches).permissionActions.filter fun r => r.identityID = id) id
        r.name := by
    refine actionsOf_congr (Keyed.filter_filter_of_imp (fun a ha => ?_) _).symm
    rw [decide_eq_true_eq] at ha ⊢
    exact ha.1
  rw [PermissionRow.toPermission, PermissionRow.toPermission, hid, hact]
  rfl

include he in
/-- **The node of a reported id** in a snapshot and in memory. -/
theorem find_snapshot_ingested (hx : lastReport batches id = some x) : ∃ i j,
    (snapshot scan (ingested batches)).find id = some i ∧
    (batches.flatten.foldl Store.addIdentity (Store.new fun _ => false)).find id = some j ∧
    Agrees i j ∧
    (x.onBehalfOf ≠ [] ∨ (∀ y ∈ Keyed.reports Identity.id id batches.flatten,
      y.onBehalfOf = []) → i.onBehalfOf = j.onBehalfOf) ∧
    (x.declaredModels ≠ [] ∨ (∀ y ∈ Keyed.reports Identity.id id batches.flatten,
      y.declaredModels = []) → i.declaredModels = j.declaredModels) ∧
    i.permissions.Perm (lastGrants x.permissions) := by
  have hid := lastReport_id hx
  subst hid
  have hrow := lookup_ingested hx
  obtain ⟨hone, hpriv⟩ := filter_ingested hrow
  have hlists := lists_ingested batches x.id
  rw [← lastReport, hx] at hlists
  have hfind := find_inventoryReading scan (fun _ => ingested batches) hone
  have hsnap : snapshot scan (ingested batches) =
      inventoryReading scan fun _ => ingested batches := by
    rw [snapshot, snapshotReading, events_ingested]
    rfl
  refine ⟨_, _, by rw [hsnap]; exact hfind, find_addIdentities_new hx, ?_, ?_, ?_, ?_⟩
  · have hrowOf := rowOf_foldl (rowOf_blank x.id) (Keyed.reports Identity.id x.id batches.flatten)
    have hev : ∀ i ∈ Keyed.reports Identity.id x.id batches.flatten, i.events = [] :=
      fun i hi => he i (Keyed.mem_reports.mp hi).1
    have h := agrees_of_rowOf hrowOf (events_foldl_mergeIdentity hev _) hpriv
      (Keyed.lookup_key hrow)
    exact ⟨h.id, h.type, h.privileged, h.events, h.source, h.owner, h.created, h.lastUsed,
      h.runtime, h.parent, h.attestation, h.shadow⟩
  · intro hlast
    exact (principalsOf_eq hlists.1).trans ((lists_foldl_mergeIdentity hx rfl rfl).1 hlast).symm
  · intro hlast
    exact (modelsOf_eq hlists.2).trans ((lists_foldl_mergeIdentity hx rfl rfl).2 hlast).symm
  · exact permissionsOf_ingested scan hx

theorem find_snapshot_unreported (hx : lastReport batches id = none) :
    (snapshot scan (ingested batches)).find id = none ∧
    (batches.flatten.foldl Store.addIdentity (Store.new fun _ => false)).find id = none := by
  have hnil : Keyed.reports Identity.id id batches.flatten = [] := List.getLast?_eq_none_iff.mp hx
  constructor
  · have hlists := lists_ingested batches id
    have hgrants := permissions_ingested batches id
    rw [hnil] at hlists hgrants
    have hrows : (ingested batches).identities.filter (fun r => r.id = id) = [] := by
      refine Keyed.filter_key_eq_nil ?_
      rw [identities_ingested, Keyed.lookup_upserts ofIdentity_id merge_ofIdentity_id, hnil]
      rfl
    have hsnap : snapshot scan (ingested batches) =
        inventoryReading scan fun _ => ingested batches := by
      rw [snapshot, snapshotReading, events_ingested]
      rfl
    rw [hsnap]
    exact find_inventoryReading_none scan _ hrows hlists.1 hlists.2 (congrArg Prod.fst hgrants)
  · rw [Store.find_addIdentities, if_pos hnil]
    rfl

end Refine

/-- **Identities through the database.** After any sequence of batches a snapshot knows the
identities the in-memory store knows. They agree in every field but the lists, times to the
microsecond; in the chain and in the models unless an empty one came last after another; and the
permissions of the last report, where it has any, are those the snapshot holds, each name as last
mentioned. -/
theorem ingestIdentities_refines (scan : Scan) (batches : List (List Identity))
    (he : ∀ i ∈ batches.flatten, i.events = []) (db : Db)
    (hdb : commitAll Db.empty (batches.map ingestIdentities) = .ok db) (id : GoString) :
    (lastReport batches id = none ∧ (snapshot scan db).find id = none ∧
      (batches.flatten.foldl Store.addIdentity (Store.new fun _ => false)).find id = none) ∨
    ∃ x i j, lastReport batches id = some x ∧ (snapshot scan db).find id = some i ∧
      (batches.flatten.foldl Store.addIdentity (Store.new fun _ => false)).find id = some j ∧
      Agrees i j ∧
      (x.onBehalfOf ≠ [] ∨ (∀ y ∈ Keyed.reports Identity.id id batches.flatten,
        y.onBehalfOf = []) → i.onBehalfOf = j.onBehalfOf) ∧
      (x.declaredModels ≠ [] ∨ (∀ y ∈ Keyed.reports Identity.id id batches.flatten,
        y.declaredModels = []) → i.declaredModels = j.declaredModels) ∧
      (x.permissions ≠ [] → i.permissions.Perm (lastGrants x.permissions) ∧
        ∀ name, Keyed.lookup Permission.name name (lastGrants x.permissions) =
          (Keyed.reports Permission.name name x.permissions).getLast?) := by
  rw [← commitAll_ingestIdentities hdb]
  cases hx : lastReport batches id with
  | none =>
    obtain ⟨h1, h2⟩ := find_snapshot_unreported scan hx
    exact Or.inl ⟨rfl, h1, h2⟩
  | some x =>
    obtain ⟨i, j, hi, hj, hagree, hobo, hdm, hperm⟩ := find_snapshot_ingested scan he hx
    exact Or.inr ⟨x, i, j, rfl, hi, hj, hagree, hobo, hdm, fun _ => ⟨hperm, lookup_lastGrants x.permissions⟩⟩

/-- A service account with one grant. -/
def granted (name : GoString) (admin : Bool) : Identity :=
  { Identity.zero "svc" with
    type := identityServiceAccount, permissions := [⟨name, admin, false, ["iam:*"], ""⟩] }

/-- Two batches, of which the first reports the account twice. -/
def regranted : List (List Identity) :=
  [[granted "admin" true, { granted "deploy" false with owner := "alice", onBehalfOf := ["user://acme/alice"] }],
    [granted "read" false]]

/-- The grants are those of the last report, and the owner that of the second. -/
theorem ingestIdentities_refines_granted :
    ∃ i j, (snapshot Scan.table (ingested regranted)).find "svc" = some i ∧
      (regranted.flatten.foldl Store.addIdentity (Store.new fun _ => false)).find "svc" = some j ∧
      Agrees i j ∧ i.owner = "alice" ∧ i.permissions.map Permission.name = [("read" : GoString)] := by
  have hlast : lastReport regranted "svc" = some (granted "read" false) := by rfl
  rcases ingestIdentities_refines Scan.table regranted (by decide) (ingested regranted) (by rfl) "svc" with
    ⟨hnone, -, -⟩ | ⟨x, i, j, hx, hi, hj, hagree, -, -, hperm⟩
  · rw [hlast] at hnone
    cases hnone
  · obtain rfl := Option.some.inj (hlast.symm.trans hx)
    have hnames := (hperm (List.cons_ne_nil _ _)).1.map Permission.name
    refine ⟨i, j, hi, hj, hagree, ?_, List.perm_singleton.mp hnames⟩
    have howner : ((snapshot Scan.table (ingested regranted)).find "svc").map Identity.owner = some "alice" := by
      decide
    rw [hi] at howner
    exact Option.some.inj howner

/-- A later batch replaces the permissions an earlier one stored, which the in-memory store keeps. -/
theorem permissions_replaced :
    ∃ db, commitAll Db.empty ([[granted "admin" true], [granted "read" false]].map
        ingestIdentities) = .ok db ∧
      ((snapshot Scan.table db).find "svc").map (fun i => i.permissions.map Permission.name) =
        some [("read" : GoString)] ∧
      (([[granted "admin" true], [granted "read" false]].flatten.foldl Store.addIdentity
        (Store.new fun _ => false)).find "svc").map (fun i => i.permissions.map Permission.name) =
          some [("admin" : GoString), "read"] := by
  exact ⟨_, rfl, by decide, by decide⟩

end Pg

end Idryx
