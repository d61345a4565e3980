import Idryx.Lib.LastWrite
import Idryx.Pg.Snapshot
import Idryx.Remediation.Rotation

/-!
# Saved recommendations

`internal/graph/remediations.go`, and `remediate --save-db` of `cmd/idryx/main.go`: a run upserts what it
recommends, by identity and kind, over what the runs before it left.

* `saveRemediations`, `remediationRecords`: the writer and the reader of the table;
* `SaveRun`, `saveAll`: runs over changing graphs;
* **`lookup_saveAll`**: under a key is what the last run that saved one recommended;
* **`mem_remediations_iff`**: when the table is what the last run recommended.
-/

namespace Idryx

open LastWrite
open Remediation (Recommendation)

/-! ## The table -/

namespace Remediation.Recommendation

/-- `UNIQUE (identity_id, kind)`. -/
def key (r : Recommendation) : GoString × GoString := (r.identityID, r.kind)

/-- The text parameters of the statement that saves it. -/
def texts (r : Recommendation) : List GoString := [r.identityID, r.kind, r.explanation, r.code]

/-- The statement executes when each of its texts can be stored. -/
def storable (r : Recommendation) : Bool := r.texts.all textStorable

end Remediation.Recommendation

namespace Pg

/-- A row of `remediations`; its `created_at` is the clock of the database. -/
structure RemediationRow where
  recommendation : Recommendation
  createdAt : Int

/-- `UNIQUE (identity_id, kind)`. -/
def RemediationRow.key (r : RemediationRow) : GoString × GoString := r.recommendation.key

theorem RemediationRow.key_mk (now : Int) (r : Recommendation) : RemediationRow.key ⟨r, now⟩ = r.key := rfl

/-- `INSERT … ON CONFLICT (identity_id, kind) DO UPDATE`, at this `now()` of the database. -/
def saveRemediation (now : Int) (rows : List RemediationRow) (r : Recommendation) :
    Except Recommendation (List RemediationRow) :=
  if r.storable then .ok (Keyed.upsert RemediationRow.key r.key ⟨r, now⟩ (fun _ => ⟨r, now⟩) rows) else .error r

/-- `SaveRemediations`: the whole batch, or the recommendation that failed. -/
def saveRemediations (now : Int) (rows : List RemediationRow) (recs : List Recommendation) :
    Except Recommendation (List RemediationRow) :=
  if recs.isEmpty then .ok rows else recs.foldlM (saveRemediation now) rows

/-- An order of texts that the database compares by. -/
structure Collation where
  lt : GoString → GoString → Bool

/-- `ORDER BY identity_id, kind`. -/
def RemediationRow.le (C : Collation) (a b : RemediationRow) : Prop :=
  C.lt a.key.1 b.key.1 ∨ a.key.1 = b.key.1 ∧ C.lt b.key.2 a.key.2 = false

instance (C : Collation) : DecidableRel (RemediationRow.le C) :=
  fun _ _ => inferInstanceAs (Decidable (_ ∨ _))

/-- A recommendation as it is stored. -/
structure StoredRemediation where
  recommendation : Recommendation
  createdAt : Time

/-- `RemediationRecords`. -/
def remediationRecords (C : Collation) (rows : List RemediationRow) : List StoredRemediation :=
  (rows.insertionSort (RemediationRow.le C)).map fun r => ⟨r.recommendation, Time.ofTimestamptz r.createdAt⟩

/-- `Remediations`. -/
def remediations (C : Collation) (rows : List RemediationRow) : List Recommendation :=
  (remediationRecords C rows).map StoredRemediation.recommendation

theorem mem_remediations {C : Collation} {rows : List RemediationRow} {r : Recommendation} :
    r ∈ remediations C rows ↔ ∃ row ∈ rows, row.recommendation = r := by
  simp [remediations, remediationRecords, List.mem_insertionSort]

/-- **A batch is saved exactly when every text in it can be stored.** -/
theorem saveRemediations_eq_ok {now : Int} {rows rows' : List RemediationRow} {recs : List Recommendation} :
    saveRemediations now rows recs = .ok rows' ↔ (∀ r ∈ recs, r.storable = true) ∧
      Keyed.upserts RemediationRow.key Recommendation.key (fun r => ⟨r, now⟩) (fun _ r => ⟨r, now⟩) rows recs =
        rows' := by
  have hloop : ∀ rows, recs.foldlM (saveRemediation now) rows = .ok rows' ↔ (∀ r ∈ recs, r.storable = true) ∧
      Keyed.upserts RemediationRow.key Recommendation.key (fun r => ⟨r, now⟩) (fun _ r => ⟨r, now⟩) rows recs =
        rows' := by
    induction recs with
    | nil => simp [Keyed.upserts, pure, Except.pure]
    | cons r recs ih =>
      intro rows
      rw [List.foldlM_cons, List.forall_mem_cons]
      by_cases h : r.storable = true
      · rw [saveRemediation, if_pos h, and_iff_right h]
        exact ih _
      · rw [saveRemediation, if_neg h]
        constructor
        · intro hc
          cases hc
        · rintro ⟨⟨hr, -⟩, -⟩
          exact absurd hr h
  unfold saveRemediations
  cases recs with
  | nil => simp [Keyed.upserts]
  | cons r recs => exact hloop rows

end Pg

/-! ## Runs -/

namespace Remediation

/-- What `runRemediate` collects. -/
def recommendations (U : Unicode) (days : Ages) (now : Time) (ids : List Identity) : List Recommendation :=
  ids.flatMap fun id => (generate U id).toList ++ (generateRotation U days now id).toList

theorem mem_recommendations {U : Unicode} {days : Ages} {now : Time} {ids : List Identity} {r : Recommendation} :
    r ∈ recommendations U days now ids ↔
      ∃ id ∈ ids, generate U id = some r ∨ generateRotation U days now id = some r := by
  simp [recommendations]

theorem key_of_generate {U : Unicode} {i : Identity} {r : Recommendation} (h : generate U i = some r) :
    r.key = (i.id, ("right_size" : GoString)) := by
  obtain ⟨-, -, rfl⟩ := generate_eq_some.mp h
  rfl

theorem key_of_generateRotation {U : Unicode} {days : Ages} {now : Time} {i : Identity} {r : Recommendation}
    (h : generateRotation U days now i = some r) : r.key = (i.id, ("rotation" : GoString)) := by
  obtain ⟨-, -, -, _, -, rfl⟩ := generateRotation_eq_some.mp h
  rfl

/-- **One recommendation of a kind for an identity.** -/
theorem nodup_keys_recommendations (U : Unicode) (days : Ages) (now : Time) {ids : List Identity}
    (h : (ids.map Identity.id).Nodup) : ((recommendations U days now ids).map Recommendation.key).Nodup := by
  have hid {i : Identity} {r : Recommendation}
      (hr : r ∈ (generate U i).toList ++ (generateRotation U days now i).toList) : r.key.1 = i.id := by
    rcases List.mem_append.mp hr with hr | hr
    · rw [key_of_generate (Option.mem_toList.mp hr)]
    · rw [key_of_generateRotation (Option.mem_toList.mp hr)]
  induction ids with
  | nil => exact List.nodup_nil
  | cons i ids ih =>
    rw [List.map_cons, List.nodup_cons] at h
    have hrest := ih h.2
    rw [recommendations, List.flatMap_cons, List.map_append, List.nodup_append]
    refine ⟨?_, hrest, ?_⟩
    · cases hg : generate U i with
      | none => cases generateRotation U days now i <;> simp
      | some g =>
        cases hr : generateRotation U days now i with
        | none => simp
        | some r =>
          have hne : ("right_size" : GoString) ≠ "rotation" := by decide
          simp [key_of_generate hg, key_of_generateRotation hr, hne]
    · rintro _ ha _ hb rfl
      obtain ⟨a, ha, hak⟩ := List.mem_map.mp ha
      obtain ⟨b, hb, hbk⟩ := List.mem_map.mp hb
      obtain ⟨j, hj, hb⟩ := List.mem_flatMap.mp hb
      refine h.1 (List.mem_map.mpr ⟨j, hj, ?_⟩)
      rw [← hid hb, ← hid ha, hbk, hak]

/-- A run of `remediate --save-db`: the graph it built, its clock, and the one of the database. -/
structure SaveRun where
  graph : Store
  now : Time
  savedAt : Int

namespace SaveRun

variable (U : Unicode) (days : Ages)

/-- What is recommended for the graph. -/
def recs (run : SaveRun) : List Recommendation := recommendations U days run.now run.graph.identities

/-- The table after the run; one that fails leaves it as it was. -/
def save (rows : List Pg.RemediationRow) (run : SaveRun) : List Pg.RemediationRow :=
  match Pg.saveRemediations run.savedAt rows (run.recs U days) with
  | .ok rows' => rows'
  | .error _ => rows

/-- The table after one run after another, the first on an empty one. -/
def saveAll (runs : List SaveRun) : List Pg.RemediationRow := runs.foldl (save U days) []

/-- Every text the run has for the database can be stored, so that it does not fail. -/
def Saves (run : SaveRun) : Prop := ∀ r ∈ run.recs U days, r.storable = true

/-- The run leaves this row under a key. -/
def Writes (k : GoString × GoString) (run : SaveRun) (row : Pg.RemediationRow) : Prop :=
  run.Saves U days ∧ row.createdAt = run.savedAt ∧ row.recommendation ∈ run.recs U days ∧ row.key = k

/-- The last run saves, and recommends something under every key a run before it saved. -/
def Covers (runs : List SaveRun) (last : SaveRun) : Prop :=
  last.Saves U days ∧ ∀ run ∈ runs, run.Saves U days → ∀ r ∈ run.recs U days,
    ∃ r' ∈ last.recs U days, r'.key = r.key

variable {U days}

theorem nodup_keys_recs (run : SaveRun) : ((run.recs U days).map Recommendation.key).Nodup :=
  nodup_keys_recommendations U days run.now run.graph.nodup_identities

theorem save_of_saves {run : SaveRun} (h : run.Saves U days) (rows : List Pg.RemediationRow) :
    run.save U days rows = Keyed.upserts Pg.RemediationRow.key Recommendation.key (fun r => ⟨r, run.savedAt⟩)
      (fun _ r => ⟨r, run.savedAt⟩) rows (run.recs U days) := by
  rw [save, Pg.saveRemediations_eq_ok.mpr ⟨h, rfl⟩]

theorem save_of_not_saves {run : SaveRun} (h : ¬ run.Saves U days) (rows : List Pg.RemediationRow) :
    run.save U days rows = rows := by
  unfold save
  cases hs : Pg.saveRemediations run.savedAt rows (run.recs U days) with
  | ok rows' => exact absurd (Pg.saveRemediations_eq_ok.mp hs).1 h
  | error r => rfl

/-- **One run**: a key holds what the run writes there, or what it held. -/
theorem lookup_save (run : SaveRun) (rows : List Pg.RemediationRow) (k : GoString × GoString)
    (row : Pg.RemediationRow) : Keyed.lookup Pg.RemediationRow.key k (run.save U days rows) = some row ↔
      Writes U days k run row ∨ (∀ row', ¬ Writes U days k run row') ∧
        Keyed.lookup Pg.RemediationRow.key k rows = some row := by
  by_cases hs : run.Saves U days
  · have hrow {row : Pg.RemediationRow} : Writes U days k run row ↔
        row.createdAt = run.savedAt ∧ row.recommendation ∈ run.recs U days ∧ row.key = k := and_iff_right hs
    rw [save_of_saves hs, Keyed.lookup_upserts (Pg.RemediationRow.key_mk _) fun _ r _ => Pg.RemediationRow.key_mk _ r]
    cases hl : Keyed.lookup Recommendation.key k (run.recs U days) with
    | none =>
      have hnil : Keyed.reports Recommendation.key k (run.recs U days) = [] := Keyed.filter_key_eq_nil hl
      have hno : ∀ row', ¬ Writes U days k run row' := by
        rintro row' ⟨-, -, hmem, hkey⟩
        exact Keyed.lookup_eq_none.mp hl (List.mem_map.mpr ⟨_, hmem, hkey⟩)
      rw [hnil, List.foldl_nil]
      exact ⟨fun h => Or.inr ⟨hno, h⟩, fun h => (h.resolve_left (hno row)).2⟩
    | some r =>
      have hone : Keyed.reports Recommendation.key k (run.recs U days) = [r] :=
        Keyed.filter_key_eq_singleton run.nodup_keys_recs hl
      have hkey : r.key = k := Keyed.lookup_key hl
      have hwrites : Writes U days k run ⟨r, run.savedAt⟩ := hrow.mpr ⟨rfl, Keyed.mem_of_lookup hl, hkey⟩
      rw [hone, List.foldl_cons, List.foldl_nil]
      have hput : ((Keyed.lookup Pg.RemediationRow.key k rows).elim (⟨r, run.savedAt⟩ : Pg.RemediationRow)
          fun _ => ⟨r, run.savedAt⟩) = ⟨r, run.savedAt⟩ := by
        cases Keyed.lookup Pg.RemediationRow.key k rows <;> rfl
      rw [hput, Option.some.injEq]
      constructor
      · rintro rfl
        exact Or.inl hwrites
      · rintro (h | ⟨hno, -⟩)
        · obtain ⟨hat, hmem, hrowKey⟩ := hrow.mp h
          have hr := Keyed.lookup_of_mem run.nodup_keys_recs hmem
          have hrecKey : row.recommendation.key = k := hrowKey
          rw [hrecKey, hl, Option.some.injEq] at hr
          rw [hr, ← hat]
        · exact absurd hwrites (hno _)
  · have hno : ∀ row', ¬ Writes U days k run row' := fun row' h => hs h.1
    rw [save_of_not_saves hs]
    exact ⟨fun h => Or.inr ⟨hno, h⟩, fun h => (h.resolve_left (hno row)).2⟩

theorem nodup_keys_saveAll (runs : List SaveRun) : ((saveAll U days runs).map Pg.RemediationRow.key).Nodup := by
  refine List.foldlRecOn (motive := fun rows : List Pg.RemediationRow =>
    (rows.map Pg.RemediationRow.key).Nodup) runs _ List.nodup_nil fun rows h run _ => ?_
  by_cases hs : run.Saves U days
  · rw [save_of_saves hs]
    exact Keyed.nodup_upserts (Pg.RemediationRow.key_mk _) (fun _ r _ => Pg.RemediationRow.key_mk _ r) h _
  · rw [save_of_not_saves hs]
    exact h

/-- **Under a key is what the last run to write there wrote.** -/
theorem lookup_saveAll (runs : List SaveRun) (k : GoString × GoString) (row : Pg.RemediationRow) :
    Keyed.lookup Pg.RemediationRow.key k (saveAll U days runs) = some row ↔ Last (Writes U days k) runs row := by
  induction runs using List.reverseRecOn generalizing row with
  | nil => simp [saveAll, Keyed.lookup, Last]
  | append_singleton runs run ih =>
    rw [last_concat, ← ih, ← lookup_save, saveAll, List.foldl_append]
    rfl

theorem mem_saveAll_iff {runs : List SaveRun} {row : Pg.RemediationRow} :
    row ∈ saveAll U days runs ↔ Last (Writes U days row.key) runs row := by
  rw [← lookup_saveAll]
  exact ⟨Keyed.lookup_of_mem (nodup_keys_saveAll runs), Keyed.mem_of_lookup⟩

/-- **The table is what the last run recommends** exactly if that run could save it, and recommends something
under every key an earlier one saved. -/
theorem mem_remediations_iff (C : Pg.Collation) (runs : List SaveRun) (last : SaveRun) :
    (∀ r, r ∈ Pg.remediations C (saveAll U days (runs ++ [last])) ↔ r ∈ last.recs U days) ↔
      Covers U days runs last := by
  constructor
  · intro h
    constructor
    · intro r hr
      obtain ⟨row, hrow, rfl⟩ := Pg.mem_remediations.mp ((h r).mpr hr)
      obtain ⟨run, -, hsaves, -, hmem, -⟩ := (mem_saveAll_iff.mp hrow).mem
      exact hsaves _ hmem
    · intro run hrun hsaves r hr
      have hwrites : Writes U days r.key run ⟨r, run.savedAt⟩ := ⟨hsaves, rfl, hr, rfl⟩
      have hsome : ¬ ∀ row, ¬ Last (Writes U days r.key) (runs ++ [last]) row := fun hno =>
        (forall_not_last_iff _ _).mp hno run (List.mem_append_left _ hrun) _ hwrites
      obtain ⟨row, hrow⟩ := not_forall_not.mp hsome
      have hmem := Keyed.mem_of_lookup ((lookup_saveAll _ _ _).mpr hrow)
      obtain ⟨_, -, -, -, -, hkey⟩ := hrow.mem
      exact ⟨row.recommendation, (h _).mp (Pg.mem_remediations.mpr ⟨row, hmem, rfl⟩), hkey⟩
  · rintro ⟨hsaves, hcovers⟩ r
    rw [Pg.mem_remediations]
    constructor
    · rintro ⟨row, hrow, rfl⟩
      rcases (last_concat _ _ _ _).mp (mem_saveAll_iff.mp hrow) with hlast | ⟨hno, hearlier⟩
      · exact hlast.2.2.1
      · obtain ⟨run, hrun, hrunSaves, -, hmem, -⟩ := hearlier.mem
        obtain ⟨r', hr', hkey⟩ := hcovers run hrun hrunSaves _ hmem
        exact absurd ⟨hsaves, rfl, hr', hkey⟩ (hno ⟨r', last.savedAt⟩)
    · intro hr
      refine ⟨⟨r, last.savedAt⟩, mem_saveAll_iff.mpr ((last_concat _ _ _ _).mpr (Or.inl ?_)), rfl⟩
      exact ⟨hsaves, rfl, hr, rfl⟩

end SaveRun

end Remediation

end Idryx
