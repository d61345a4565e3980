import Idryx.Go.Trim
import Idryx.Graph.Mark
import Idryx.Graph.Reorder
import Idryx.Pg.Replay

/-!
# One source into either backend

`load` and `buildGraph`, `cmd/idryx/main.go`: what a connector parsed is written to the database, or put
into a graph in memory. Either way the operator names identities with `--privileged` and may add the
Agent Passports of a directory.

* `privilegedSet`, `PassportDoc.identity`, `Parsed`: what both are given;
* `Store.flagged_run`, `Pg.flagged_snapshot`: which identities each backend flags;
* `runLoad`, `buildGraph`: the two paths;
* **`privileged_agrees_iff`**: when they flag the same.
-/

namespace Idryx

/-! ## The inputs -/

/-- A flag set in the map. -/
def PrivilegedSet.mark (P : PrivilegedSet) (id : GoString) : PrivilegedSet where
  rows := Keyed.upsert Prod.fst id (id, true) (fun _ => (id, true)) P.rows
  nodup := Keyed.nodup_upsert (by rfl) (fun _ _ => by rfl) P.nodup

/-- `privilegedSet`, of the value of the flag. -/
def privilegedSet (csv : GoString) : PrivilegedSet :=
  (Strings.split csv 0x2C).foldl
    (fun set p => if Strings.trimSpace p ≠ "" then set.mark (Strings.trimSpace p) else set)
    ⟨[], List.nodup_nil⟩

/-- What a Passport document that parsed says. -/
structure PassportDoc where
  id : GoString
  owner : GoString
  runtime : GoString
  parent : GoString
  attestation : Option GoString
  models : List DeclaredModel

/-- `passport.Parse`, once the document is read. A declaration without a provider carries no signal. -/
def PassportDoc.identity (doc : PassportDoc) : Identity :=
  { Identity.zero doc.id with
    type := identityAgent
    source := "passport"
    owner := doc.owner
    runtime := doc.runtime
    parent := doc.parent
    attestation := doc.attestation.getD ""
    declaredModels := doc.models.filter fun m => m.provider ≠ "" }

/-- What the connector of a source makes of its file: the agent-event bus reports identities and events,
an inventory identities, a log events. -/
inductive Parsed where
  | agentBus (ids : List Identity) (events : List Event)
  | inventory (ids : List Identity)
  | log (events : List Event)

namespace Parsed

/-- The identities and the events a source reports. -/
def ids : Parsed → List Identity
  | agentBus ids _ | inventory ids => ids
  | log _ => []

@[inherit_doc ids]
def events : Parsed → List Event
  | agentBus _ events | log events => events
  | inventory _ => []

/-- The source itself reports the identity. -/
def Names (parsed : Parsed) (id : GoString) : Prop :=
  (∃ i ∈ parsed.ids, i.id = id) ∨ ∃ e ∈ parsed.events, e.identityID = id

end Parsed

/-! ## Flags of the graph -/

namespace Store

/-- The graph has the identity, and flags it. -/
def Flagged (s : Store) (id : GoString) : Prop :=
  ∃ i ∈ s.identities, i.id = id ∧ i.privileged = true

instance (s : Store) (id : GoString) : Decidable (s.Flagged id) :=
  inferInstanceAs (Decidable (∃ i ∈ s.identities, i.id = id ∧ i.privileged = true))

theorem flagged_iff (s : Store) (id : GoString) :
    s.Flagged id ↔ (s.find id).isSome = true ∧ (s.bare id).privileged = true := by
  have hbare : (s.bare id).privileged = ((s.find id).getD (s.fresh id)).privileged := rfl
  have hlookup := s.lookup_identities id
  rw [hbare]
  constructor
  · rintro ⟨i, hi, rfl, hflag⟩
    rw [Keyed.lookup_of_mem s.nodup_identities hi] at hlookup
    obtain ⟨j, hj, rfl⟩ := Option.map_eq_some_iff.mp hlookup.symm
    rw [hj]
    exact ⟨rfl, hflag⟩
  · rintro ⟨hsome, hflag⟩
    obtain ⟨j, hj⟩ := Option.isSome_iff_exists.mp hsome
    rw [hj] at hflag hlookup
    exact ⟨j.chronological, Keyed.mem_of_lookup hlookup, Keyed.lookup_key hlookup, hflag⟩

theorem privileged_bare_update (s : Store) (id j : GoString) (f : Identity → Identity)
    (hf : ∀ i, (f i).id = i.id) {b : Bool} (hb : ∀ i, (f i).privileged = (i.privileged || b)) :
    ((s.update id f hf).bare j).privileged = true ↔
      (s.bare j).privileged = true ∨ id = j ∧ b = true := by
  unfold bare
  rw [find_update]
  by_cases h : j = id
  · subst h
    simp [hb]
  · rw [if_neg h]
    simp only [Ne.symm h, false_and, or_false]
    rfl

theorem privileged_mergeIdentity (i inn : Identity) :
    (mergeIdentity i inn).privileged = (i.privileged || inn.privileged) := by
  show (if inn.privileged then true else i.privileged) = _
  cases inn.privileged <;> simp

theorem privileged_bare_addIdentity (s : Store) (i : Identity) (id : GoString) :
    ((s.addIdentity i).bare id).privileged = true ↔
      (s.bare id).privileged = true ∨ i.id = id ∧ i.privileged = true :=
  privileged_bare_update s i.id id _ _ fun j => privileged_mergeIdentity j i

theorem privileged_bare_updates {β : Type*} (k : β → GoString) (f : Identity → β → Identity)
    (hf : ∀ i b, (f i b).id = i.id) (hflag : ∀ i b, (f i b).privileged = i.privileged) (s : Store)
    (bs : List β) (id : GoString) :
    ((s.updates k f hf bs).bare id).privileged = (s.bare id).privileged := by
  refine Loop.foldl_fixed (f := fun s : Store => (s.bare id).privileged) (fun s b _ => ?_) s
  have h := privileged_bare_update s (k b) id (f · b) (fun i => hf i b) (b := false) (by simp [hflag])
  rw [Bool.eq_iff_iff, h]
  simp

/-- **A run flags what one of its reports flags.** -/
theorem privileged_bare_run (s : Store) (xs : List Op) (id : GoString) :
    ((s.run xs).bare id).privileged = true ↔ (s.bare id).privileged = true ∨
      ∃ i ∈ Op.identities xs, i.id = id ∧ i.privileged = true := by
  induction xs generalizing s with
  | nil => simp [run, Op.identities]
  | cons x xs ih =>
    rw [run_cons, ih]
    cases x with
    | event e =>
      show ((s.addEvent e).bare id).privileged = true ∨ _ ↔ _
      rw [bare_addEvent]
      rfl
    | identity i =>
      show ((s.addIdentity i).bare id).privileged = true ∨ _ ↔
        _ ∨ ∃ j ∈ i :: Op.identities xs, j.id = id ∧ j.privileged = true
      rw [privileged_bare_addIdentity, List.exists_mem_cons_iff, or_assoc]

/-- **What a graph flags**: of the identities it knows, those of its set and those reported so. -/
theorem flagged_run (p : GoString → Bool) (xs : List Op) (id : GoString) :
    ((new p).run xs).Flagged id ↔
      ((∃ e ∈ Op.events xs, e.identityID = id) ∨ ∃ i ∈ Op.identities xs, i.id = id) ∧
        (p id = true ∨ ∃ i ∈ Op.identities xs, i.id = id ∧ i.privileged = true) := by
  have hnew : (new p).find id = none := find_new p id
  rw [flagged_iff, isSome_find_run_iff (rooted_new p), privileged_bare_run, hnew]
  simp only [Option.isSome_none, Bool.false_eq_true, false_or]
  rfl

end Store

/-! ## Flags of the database -/

namespace Pg

/-- The row of the identity has the flag. -/
def Db.Flagged (db : Db) (id : GoString) : Prop :=
  ∃ r ∈ db.identities, r.id = id ∧ r.privileged = true

instance (db : Db) (id : GoString) : Decidable (db.Flagged id) :=
  inferInstanceAs (Decidable (∃ r ∈ db.identities, r.id = id ∧ r.privileged = true))

theorem flagged_upsert (x : IdentityRow) (rows : List IdentityRow) (id : GoString) :
    (∃ r ∈ Keyed.upsert IdentityRow.id x.id x (·.merge x) rows, r.id = id ∧ r.privileged = true) ↔
      (∃ r ∈ rows, r.id = id ∧ r.privileged = true) ∨ x.id = id ∧ x.privileged = true := by
  induction rows with
  | nil => simp [Keyed.upsert]
  | cons r rows ih =>
    rw [Keyed.upsert]
    split_ifs with h
    · have hflag : (r.merge x).privileged = (r.privileged || x.privileged) := rfl
      rw [List.exists_mem_cons_iff, List.exists_mem_cons_iff, IdentityRow.merge_id, hflag, ← h,
        Bool.or_eq_true, and_or_left, or_right_comm]
    · rw [List.exists_mem_cons_iff, List.exists_mem_cons_iff, ih, or_assoc]

theorem flagged_ingestIdentities (db : Db) (is : List Identity) (id : GoString) :
    ((ingestIdentities is).foldl Stmt.run db).Flagged id ↔
      db.Flagged id ∨ ∃ i ∈ is, i.id = id ∧ i.privileged = true := by
  unfold Db.Flagged
  have hrows := batch_pass1 Db.identities (w := fun rows i => Keyed.upsert IdentityRow.id i.id
    (IdentityRow.ofIdentity i) (·.merge (IdentityRow.ofIdentity i)) rows) (fun _ _ => rfl)
    (fun _ _ => rfl) is db
  rw [run_ingestIdentities, hrows]
  exact Loop.foldl_iff (P := fun rows : List IdentityRow => ∃ r ∈ rows, r.id = id ∧ r.privileged = true)
    (fun rows i => flagged_upsert (IdentityRow.ofIdentity i) rows id) is db.identities

theorem flagged_upsertPrivileged (db : Db) (j id : GoString) (b : Bool) :
    ((Stmt.upsertPrivileged j b).run db).Flagged id ↔ db.Flagged id ∨ j = id ∧ b = true := by
  unfold Db.Flagged
  rw [identities_run]
  exact flagged_upsert (IdentityRow.blank j b) db.identities id

theorem flagged_ingestFrom (p : GoString → Bool) (es : List Event) (id : GoString) :
    ∀ (seen : List GoString) (db : Db), ((ingestFrom p seen es).foldl Stmt.run db).Flagged id ↔
      db.Flagged id ∨ id ∉ seen ∧ (∃ e ∈ es, e.identityID = id) ∧ p id = true := by
  induction es with
  | nil =>
    intro seen db
    simp [ingestFrom]
  | cons e es ih =>
    intro seen db
    have hevent : ∀ d : Db, ((Stmt.insertEvent e).run d).Flagged id ↔ d.Flagged id := fun _ => Iff.rfl
    rw [ingestFrom, List.exists_mem_cons_iff]
    split_ifs with hseen
    · rw [List.foldl_cons, ih, hevent]
      by_cases h : e.identityID = id
      · subst h
        simp [hseen]
      · simp [h]
    · rw [List.foldl_cons, List.foldl_cons, ih, hevent, flagged_upsertPrivileged]
      by_cases h : e.identityID = id
      · subst h
        simp [hseen]
      · simp [h, Ne.symm h]

theorem flagged_ingest (db : Db) (es : List Event) (p : GoString → Bool) (id : GoString) :
    ((ingest es p).foldl Stmt.run db).Flagged id ↔
      db.Flagged id ∨ (∃ e ∈ es, e.identityID = id) ∧ p id = true := by
  refine (flagged_ingestFrom p es id [] db).trans ?_
  simp

theorem privileged_bare_snapshot (scan : Scan) (db : Db) (id : GoString) :
    ((snapshot scan db).bare id).privileged = true ↔ db.Flagged id := by
  have hset : ∀ n, ((scan.order n db.identities).any fun r => r.id == id && r.privileged) = true ↔
      db.Flagged id := by
    intro n
    rw [privileged_reading]
    simp [Db.Flagged, List.any_eq_true]
  have hrows : (∃ i ∈ (scan.order 1 db.identities).map IdentityRow.toIdentity,
      i.id = id ∧ i.privileged = true) ↔ db.Flagged id := by
    simp only [List.mem_map, exists_exists_and_eq_and, (scan.perm 1 db.identities).mem_iff]
    rfl
  have hlists : ((inventoryReading scan fun _ => db).bare id).privileged =
      ((described scan db).bare id).privileged := by
    rw [inventoryReading_eq]
    refine (Store.privileged_bare_updates _ (attachPermission _) _ (fun _ _ => rfl) _ _ id).trans ?_
    refine (Store.privileged_bare_updates _ attachModel _ (fun _ _ => rfl) _ _ id).trans ?_
    exact Store.privileged_bare_updates _ attachPrincipal _ (fun _ _ => rfl) _ _ id
  rw [snapshot, snapshotReading, Store.bare_addEvents, hlists]
  have hmerge := Loop.foldl_iff (P := fun s : Store => (s.bare id).privileged = true)
    (fun s i => Store.privileged_bare_addIdentity s i id)
    ((scan.order 1 db.identities).map IdentityRow.toIdentity)
    (Store.new fun id => (scan.order 0 db.identities).any fun r => r.id == id && r.privileged)
  refine hmerge.trans ?_
  rw [hrows]
  exact (or_congr_left (hset 0)).trans (or_self_iff)

/-- **What a snapshot flags** is what the rows flag. -/
theorem flagged_snapshot (scan : Scan) (db : Db) (id : GoString) :
    (snapshot scan db).Flagged id ↔ db.Flagged id := by
  rw [Store.flagged_iff, privileged_bare_snapshot]
  refine and_iff_right_of_imp fun ⟨r, hr, hid, _⟩ => ?_
  have hkept : ∀ {β : Type} (k : β → GoString) (f : Identity → β → Identity)
      (hf : ∀ i b, (f i b).id = i.id) (s : Store) (bs : List β), (s.find id).isSome = true →
        ((s.updates k f hf bs).find id).isSome = true := by
    intro β k f hf s bs hs
    rw [Store.find_updates]
    split_ifs
    · exact hs
    · rfl
  rw [snapshot, snapshotReading, Store.isSome_find_addEvents (coherent_inventoryReading _ _).rooted,
    inventoryReading_eq, listed]
  refine Or.inl (hkept _ _ _ _ _ (hkept _ _ _ _ _ (hkept _ _ _ _ _ ?_)))
  have hmem : r.toIdentity ∈ Keyed.reports Identity.id id
      ((scan.order 1 db.identities).map IdentityRow.toIdentity) :=
    Keyed.mem_reports.mpr ⟨List.mem_map_of_mem ((scan.perm 1 db.identities).mem_iff.mpr hr), hid⟩
  rw [described, Store.find_addIdentities, if_neg (List.ne_nil_of_mem hmem)]
  rfl

end Pg

/-! ## The two paths -/

open Pg

/-- The flag `load` sets on an identity the set names. -/
def setPrivileged (privSet : PrivilegedSet) (i : Identity) : Identity :=
  if privSet.get i.id then { i with privileged := true } else i

/-- `ingestPassportsPg`; nothing where no directory is given. -/
def ingestPassportsPg : Option (List PassportDoc) → List (List Stmt)
  | none => []
  | some docs => [ingestIdentities (docs.map PassportDoc.identity)]

/-- The transactions of `load` before the Passports. -/
def ingestParsed (privSet : PrivilegedSet) : Parsed → List (List Stmt)
  | .agentBus ids events =>
    [ingestIdentities (ids.map (setPrivileged privSet)), ingest events privSet.get]
  | .inventory ids => [ingestIdentities (ids.map (setPrivileged privSet))]
  | .log events => [ingest events privSet.get]

/-- `runLoad`, into an empty database, of what the connector and the Passport loader return. -/
def runLoad (parsed : Parsed) (privileged : GoString) (passports : Option (List PassportDoc)) :
    Except Stmt Db :=
  commitAll Db.empty (ingestParsed (privilegedSet privileged) parsed ++ ingestPassportsPg passports)

/-- The calls of `populate`. -/
def populate : Parsed → List Op
  | .agentBus ids events => ids.map .identity ++ events.map .event
  | .inventory ids => ids.map .identity
  | .log events => events.map .event

/-- The calls of `loadPassports`. -/
def loadPassports : Option (List PassportDoc) → List Op
  | none => []
  | some docs => docs.map fun doc => .identity doc.identity

/-- `buildGraph` of a single source. -/
def buildGraph (parsed : Parsed) (privileged : GoString) (passports : Option (List PassportDoc)) :
    Store :=
  (Store.new (privilegedSet privileged).get).run (populate parsed ++ loadPassports passports)

/-! ## What they flag -/

theorem Op.identities_append (xs ys : List Op) :
    Op.identities (xs ++ ys) = Op.identities xs ++ Op.identities ys := List.filterMap_append

theorem Op.events_append (xs ys : List Op) :
    Op.events (xs ++ ys) = Op.events xs ++ Op.events ys := List.filterMap_append

theorem Op.identities_map (ids : List Identity) :
    Op.identities (ids.map .identity) = ids ∧ Op.events (ids.map .identity) = [] := by
  induction ids with
  | nil => exact ⟨rfl, rfl⟩
  | cons i ids ih => exact ⟨congrArg (i :: ·) ih.1, ih.2⟩

theorem Op.events_map (es : List Event) :
    Op.events (es.map .event) = es ∧ Op.identities (es.map .event) = [] := by
  induction es with
  | nil => exact ⟨rfl, rfl⟩
  | cons e es ih => exact ⟨congrArg (e :: ·) ih.1, ih.2⟩

theorem calls_populate (parsed : Parsed) :
    Op.identities (populate parsed) = parsed.ids ∧ Op.events (populate parsed) = parsed.events := by
  cases parsed with
  | agentBus ids events =>
    rw [populate, Op.identities_append, Op.events_append]
    simp [Op.identities_map, Op.events_map, Parsed.ids, Parsed.events]
  | inventory ids => exact Op.identities_map ids
  | log events => exact (Op.events_map events).symm

theorem calls_loadPassports (passports : Option (List PassportDoc)) :
    Op.identities (loadPassports passports) = (passports.getD []).map PassportDoc.identity ∧
      Op.events (loadPassports passports) = [] := by
  cases passports with
  | none => exact ⟨rfl, rfl⟩
  | some docs =>
    have h := Op.identities_map (docs.map PassportDoc.identity)
    rw [List.map_map] at h
    exact h

theorem flagged_buildGraph (parsed : Parsed) (privileged : GoString)
    (passports : Option (List PassportDoc)) (id : GoString) :
    (buildGraph parsed privileged passports).Flagged id ↔
      (parsed.Names id ∨ ∃ doc ∈ passports.getD [], doc.id = id) ∧
        ((privilegedSet privileged).get id = true ∨
          ∃ i ∈ parsed.ids, i.id = id ∧ i.privileged = true) := by
  obtain ⟨hids, hevents⟩ := calls_populate parsed
  obtain ⟨hdocs, hnone⟩ := calls_loadPassports passports
  have hid : ∀ doc : PassportDoc, doc.identity.id = doc.id := fun _ => rfl
  have hunflagged : ∀ doc : PassportDoc, doc.identity.privileged = false := fun _ => rfl
  have hknown : (∃ i ∈ parsed.ids ++ (passports.getD []).map PassportDoc.identity, i.id = id) ↔
      (∃ i ∈ parsed.ids, i.id = id) ∨ ∃ doc ∈ passports.getD [], doc.id = id := by
    simp only [List.mem_append, List.mem_map, or_and_right, exists_or, exists_exists_and_eq_and, hid]
  have hflag : (∃ i ∈ parsed.ids ++ (passports.getD []).map PassportDoc.identity,
      i.id = id ∧ i.privileged = true) ↔ ∃ i ∈ parsed.ids, i.id = id ∧ i.privileged = true := by
    simp [or_and_right, exists_or, hunflagged]
  rw [buildGraph, Store.flagged_run, Op.identities_append, Op.events_append, hids, hevents, hdocs, hnone,
    List.append_nil, hknown, hflag, or_left_comm, or_assoc.symm]
  rfl

@[simp] theorem setPrivileged_id (privSet : PrivilegedSet) (i : Identity) :
    (setPrivileged privSet i).id = i.id := by
  unfold setPrivileged
  split_ifs <;> rfl

@[simp] theorem setPrivileged_privileged (privSet : PrivilegedSet) (i : Identity) :
    (setPrivileged privSet i).privileged = (privSet.get i.id || i.privileged) := by
  unfold setPrivileged
  split_ifs with h <;> simp [h]

theorem exists_setPrivileged (privSet : PrivilegedSet) (ids : List Identity) (id : GoString) :
    (∃ i ∈ ids.map (setPrivileged privSet), i.id = id ∧ i.privileged = true) ↔
      (∃ i ∈ ids, i.id = id) ∧ privSet.get id = true ∨ ∃ i ∈ ids, i.id = id ∧ i.privileged = true := by
  constructor
  · intro h
    obtain ⟨j, hj, hid, hflag⟩ := h
    obtain ⟨i, hi, rfl⟩ := List.mem_map.mp hj
    rw [setPrivileged_id] at hid
    rw [setPrivileged_privileged, hid, Bool.or_eq_true] at hflag
    exact hflag.imp (fun hset => ⟨⟨i, hi, hid⟩, hset⟩) fun hown => ⟨i, hi, hid, hown⟩
  · rintro (⟨⟨i, hi, rfl⟩, hset⟩ | ⟨i, hi, rfl, hown⟩)
    · exact ⟨_, List.mem_map_of_mem hi, by simp, by simp [hset]⟩
    · exact ⟨_, List.mem_map_of_mem hi, by simp, by simp [hown]⟩

theorem not_flagged_empty (id : GoString) : ¬ Db.empty.Flagged id := by
  rintro ⟨r, hr, -⟩
  cases hr

theorem flagged_runLoad {parsed : Parsed} {privileged : GoString}
    {passports : Option (List PassportDoc)} {db : Db}
    (h : runLoad parsed privileged passports = .ok db) (id : GoString) :
    db.Flagged id ↔ parsed.Names id ∧ (privilegedSet privileged).get id = true ∨
      ∃ i ∈ parsed.ids, i.id = id ∧ i.privileged = true := by
  have hdb := (commitAll_eq_ok.mp h).2
  rw [List.foldl_flatten, List.foldl_append] at hdb
  have hpassports : ∀ d : Db, ((ingestPassportsPg passports).foldl
      (fun d tx => tx.foldl Stmt.run d) d).Flagged id ↔ d.Flagged id := by
    intro d
    cases passports with
    | none => exact Iff.rfl
    | some docs =>
      refine (flagged_ingestIdentities d _ id).trans (or_iff_left ?_)
      rintro ⟨i, hi, -, hflag⟩
      obtain ⟨doc, -, rfl⟩ := List.mem_map.mp hi
      cases hflag
  have hempty := not_flagged_empty id
  rw [← hdb, hpassports]
  unfold Parsed.Names
  cases parsed with
  | agentBus ids events =>
    refine (flagged_ingest _ events _ id).trans ?_
    rw [flagged_ingestIdentities, exists_setPrivileged, or_iff_right hempty, or_right_comm, ← or_and_right]
    rfl
  | inventory ids =>
    refine (flagged_ingestIdentities _ _ id).trans ?_
    rw [exists_setPrivileged, or_iff_right hempty]
    simp [Parsed.ids, Parsed.events]
  | log events =>
    refine (flagged_ingest _ events _ id).trans ?_
    simp [Parsed.ids, Parsed.events, hempty]

/-- **The two paths flag the same identities** exactly when every Passport that the set names is of an
identity the source reports as well. -/
theorem privileged_agrees_iff (scan : Scan) {parsed : Parsed} {privileged : GoString}
    {passports : Option (List PassportDoc)} {db : Db}
    (h : runLoad parsed privileged passports = .ok db) :
    (∀ id, (snapshot scan db).Flagged id ↔ (buildGraph parsed privileged passports).Flagged id) ↔
      ∀ doc ∈ passports.getD [], (privilegedSet privileged).get doc.id = true → parsed.Names doc.id := by
  have hnames : ∀ id, (∃ i ∈ parsed.ids, i.id = id ∧ i.privileged = true) → parsed.Names id :=
    fun id ⟨i, hi, hid, _⟩ => Or.inl ⟨i, hi, hid⟩
  simp only [flagged_snapshot, flagged_runLoad h, flagged_buildGraph]
  constructor
  · intro hagree doc hdoc hset
    rcases (hagree doc.id).mpr ⟨Or.inr ⟨doc, hdoc, rfl⟩, Or.inl hset⟩ with hsource | hflagged
    · exact hsource.1
    · exact hnames doc.id hflagged
  · intro hall id
    have hid := hnames id
    constructor
    · rintro (⟨hsource, hset⟩ | hflagged)
      · exact ⟨Or.inl hsource, Or.inl hset⟩
      · exact ⟨Or.inl (hid hflagged), Or.inr hflagged⟩
    · rintro ⟨hsource | ⟨doc, hdoc, rfl⟩, hset | hflagged⟩
      · exact Or.inl ⟨hsource, hset⟩
      · exact Or.inr hflagged
      · exact Or.inl ⟨hall doc hdoc hset, hset⟩
      · exact Or.inr hflagged

/-- The Passport of a support agent. -/
def supportBot : PassportDoc :=
  ⟨"agent://acme/bot", "team@acme", "langgraph", "", some "spiffe-svid", [⟨"anthropic", "", ""⟩]⟩

/-- A login of alice. -/
def aliceLogin : Event :=
  ⟨.seconds 63900000000, "alice@acme", eventLogin, "success", "", "", "", ⟨0⟩, ⟨0⟩, "", "", "", ""⟩

theorem privileged_agrees_iff_bot :
    ∃ db, runLoad (.agentBus [Identity.zero "agent://acme/bot"] [aliceLogin])
        "agent://acme/bot, alice@acme" (some [supportBot]) = .ok db ∧
      ((∀ id, (snapshot Scan.table db).Flagged id ↔
          (buildGraph (.agentBus [Identity.zero "agent://acme/bot"] [aliceLogin])
            "agent://acme/bot, alice@acme" (some [supportBot])).Flagged id) ↔
        ∀ doc ∈ (some [supportBot]).getD [],
          (privilegedSet "agent://acme/bot, alice@acme").get doc.id = true →
            (Parsed.agentBus [Identity.zero "agent://acme/bot"] [aliceLogin]).Names doc.id) := by
  refine ⟨_, rfl, privileged_agrees_iff Scan.table rfl⟩

/-- A log that does not mention the agent: its Passport is stored without the flag the operator asked
for, and loaded with it. -/
theorem not_privileged_agrees_passportOnly :
    ∃ db, runLoad (.log [aliceLogin]) "agent://acme/bot" (some [supportBot]) = .ok db ∧
      ∀ scan, ¬ (snapshot scan db).Flagged "agent://acme/bot" ∧
        (buildGraph (.log [aliceLogin]) "agent://acme/bot" (some [supportBot])).Flagged
          "agent://acme/bot" := by
  refine ⟨_, rfl, fun scan => ⟨?_, ?_⟩⟩
  · rw [flagged_snapshot]
    decide
  · decide

end Idryx
