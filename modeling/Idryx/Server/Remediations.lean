import Idryx.Lib.Joined
import Idryx.Remediation.Stored

/-!
# Serving recommendations

`identitiesJSON` and `remediationsJSON` of `internal/server/server.go`, and what `serve --db` of
`cmd/idryx/main.go` gives the server: a set that was saved is served as it is, the recommendations of an
identity are made again from the graph.

* `Server`, `remediationsJSON`, `embedded`, `serveDb`;
* `persistedRemTimes_of_mem`: the age found under a key is the one that was stored;
* **`remediationsJSON_serveDb`**: where the table is what the graph calls for, both views agree;
* **`saved_stay`**: over any runs, what the table holds, and when that is.
-/

namespace Idryx

open LastWrite
open Remediation

/-! ## What is served -/

/-- What the recommendations are served from. -/
structure Server where
  graph : Store
  remParam : Option (List Pg.StoredRemediation)

namespace Server

/-- `t.UTC().Format("2006-01-02 15:04:05 UTC")`. -/
def formatSeconds (t : Time) : GoString :=
  let (year, month, day) := Time.civil (t.ext / 86400)
  let sec := (t.ext % 86400).toNat
  (if year < 0 then ("-" : GoString) else "") ++ Time.pad 4 year.natAbs ++ "-" ++ Time.pad 2 month ++ "-" ++
    Time.pad 2 day ++ " " ++ Time.pad 2 (sec / 3600) ++ ":" ++ Time.pad 2 (sec / 60 % 60) ++ ":" ++
    Time.pad 2 (sec % 60) ++ " UTC"

/-- A recommendation as it is sent with its identity. -/
structure ApiRemediation where
  kind : GoString
  explanation : GoString
  code : GoString
  createdAt : GoString

/-- A recommendation as it is sent by itself. -/
structure ApiRecommendation where
  identity : GoString
  kind : GoString
  explanation : GoString
  code : GoString
  createdAt : GoString

/-- The key of `persistedRemTimes`. -/
def remTimeKey (id kind : GoString) : GoString := id ++ 0 :: kind

/-- A stored time under its key, unless it is zero. -/
def remTime (sr : Pg.StoredRemediation) : Option (GoString × GoString) :=
  if sr.createdAt.isZero then none
  else some (remTimeKey sr.recommendation.identityID sr.recommendation.kind, formatSeconds sr.createdAt)

/-- When each recommendation was first stored, by identity and kind. -/
def persistedRemTimes (remParam : Option (List Pg.StoredRemediation)) : Dict GoString GoString :=
  Dict.empty.sets remTime (remParam.getD [])

/-- A recommendation as it is embedded in an identity. -/
def apiRemediation (remTimes : Dict GoString GoString) (id : GoString) (rem : Recommendation) : ApiRemediation :=
  ⟨rem.kind, rem.explanation, rem.code, (remTimes (remTimeKey id rem.kind)).getD ""⟩

/-- The recommendations of an identity that is sent. -/
structure Embedded where
  id : GoString
  remediation : Option ApiRemediation
  rotation : Option ApiRemediation

/-- A persisted recommendation as it is served. -/
def apiStored (sr : Pg.StoredRemediation) : ApiRecommendation :=
  ⟨sr.recommendation.identityID, sr.recommendation.kind, sr.recommendation.explanation, sr.recommendation.code,
    if sr.createdAt.isZero then "" else formatSeconds sr.createdAt⟩

/-- A recommendation made from the graph as it is served. -/
def apiLive (id : GoString) (rem : Recommendation) : ApiRecommendation :=
  ⟨id, rem.kind, rem.explanation, rem.code, ""⟩

section

variable (U : Unicode) (days : Ages) (now : Time)

/-- `identitiesJSON`, to the recommendations. -/
def embedded (s : Server) : List Embedded :=
  let remTimes := persistedRemTimes s.remParam
  s.graph.identities.map fun id =>
    { id := id.id
      remediation := (generate U id).map (apiRemediation remTimes id.id)
      rotation := (generateRotation U days now id).map (apiRemediation remTimes id.id) }

/-- `remediationsJSON`. -/
def remediationsJSON (s : Server) : List ApiRecommendation :=
  match s.remParam with
  | some remParam => remParam.map apiStored
  | none => s.graph.identities.flatMap fun id =>
      ((generate U id).toList ++ (generateRotation U days now id).toList).map (apiLive id.id)

end

/-- The server of `serve --db`. -/
def serveDb (C : Pg.Collation) (g : Store) (rows : List Pg.RemediationRow) : Server :=
  let recs := Pg.remediationRecords C rows
  ⟨g, if 0 < recs.length then some recs else none⟩

/-! ## The two views -/

/-- The recommendations embedded in an identity, one for each. -/
def Embedded.recommendations (e : Embedded) : List ApiRecommendation :=
  (e.remediation.toList ++ e.rotation.toList).map fun r => ⟨e.id, r.kind, r.explanation, r.code, r.createdAt⟩

/-- A recommendation without its age. -/
def ApiRecommendation.undated (r : ApiRecommendation) : ApiRecommendation := { r with createdAt := "" }

/-- A recommendation with the age found under its key. -/
def dated (remTimes : Dict GoString GoString) (r : Recommendation) : ApiRecommendation :=
  ⟨r.identityID, r.kind, r.explanation, r.code, (remTimes (remTimeKey r.identityID r.kind)).getD ""⟩

variable {U : Unicode} {days : Ages} {now : Time}

theorem identityID_of_mem {i : Identity} {r : Recommendation}
    (h : r ∈ (generate U i).toList ++ (generateRotation U days now i).toList) : r.identityID = i.id := by
  rcases List.mem_append.mp h with h | h
  · exact congrArg Prod.fst (key_of_generate (Option.mem_toList.mp h))
  · exact congrArg Prod.fst (key_of_generateRotation (Option.mem_toList.mp h))

theorem flatMap_embedded (s : Server) : (s.embedded U days now).flatMap Embedded.recommendations =
    (Remediation.recommendations U days now s.graph.identities).map (dated (persistedRemTimes s.remParam)) := by
  unfold embedded Remediation.recommendations
  rw [List.flatMap_map, List.map_flatMap]
  refine List.flatMap_congr fun i _ => ?_
  have hone : ∀ r ∈ (generate U i).toList ++ (generateRotation U days now i).toList,
      dated (persistedRemTimes s.remParam) r = ⟨i.id, r.kind, r.explanation, r.code,
        (persistedRemTimes s.remParam (remTimeKey i.id r.kind)).getD ""⟩ := by
    intro r hr
    rw [dated, identityID_of_mem hr]
  rw [List.map_congr_left hone]
  cases generate U i <;> cases generateRotation U days now i <;> rfl

theorem remediationsJSON_live (g : Store) : (⟨g, none⟩ : Server).remediationsJSON U days now =
    (Remediation.recommendations U days now g.identities).map fun r => apiLive r.identityID r := by
  unfold remediationsJSON Remediation.recommendations
  rw [List.map_flatMap]
  refine List.flatMap_congr fun i _ => List.map_congr_left fun r hr => ?_
  rw [identityID_of_mem hr]

theorem remParam_serveDb {C : Pg.Collation} (g : Store) {rows : List Pg.RemediationRow}
    (h : Pg.remediationRecords C rows ≠ []) : (serveDb C g rows).remParam = some (Pg.remediationRecords C rows) :=
  if_pos (List.length_pos_iff.mpr h)

theorem remediationsJSON_stored {C : Pg.Collation} (g : Store) {rows : List Pg.RemediationRow}
    (h : Pg.remediationRecords C rows ≠ []) :
    (serveDb C g rows).remediationsJSON U days now = (Pg.remediationRecords C rows).map apiStored := by
  rw [remediationsJSON, remParam_serveDb g h]

/-! ## Ages -/

theorem zero_notMem_kind {ids : List Identity} {r : Recommendation}
    (h : r ∈ Remediation.recommendations U days now ids) : 0 ∉ r.kind := by
  obtain ⟨i, -, hi⟩ := mem_recommendations.mp h
  rcases hi with hi | hi
  · have hkind : r.kind = "right_size" := congrArg Prod.snd (key_of_generate hi)
    rw [hkind]
    decide
  · have hkind : r.kind = "rotation" := congrArg Prod.snd (key_of_generateRotation hi)
    rw [hkind]
    decide

theorem remTimeKey_inj {id id' kind kind' : GoString} (h : 0 ∉ kind) (h' : 0 ∉ kind') :
    remTimeKey id kind = remTimeKey id' kind' ↔ id = id' ∧ kind = kind' := Joined.append_sep_inj h h'

/-- **The age found under a key is the one stored there.** -/
theorem persistedRemTimes_of_mem {recs : List Pg.StoredRemediation}
    (hn : (recs.map fun sr => sr.recommendation.key).Nodup) (hnul : ∀ sr ∈ recs, 0 ∉ sr.recommendation.kind)
    {sr : Pg.StoredRemediation} (hsr : sr ∈ recs) :
    dated (persistedRemTimes (some recs)) sr.recommendation = apiStored sr := by
  have hgives (x : Pg.StoredRemediation) (hx : x ∈ recs) (v : GoString)
      (hv : Gives remTime (remTimeKey sr.recommendation.identityID sr.recommendation.kind) x v) : x = sr := by
    unfold Gives remTime at hv
    split_ifs at hv
    rw [Option.some.injEq, Prod.mk.injEq, remTimeKey_inj (hnul x hx) (hnul sr hsr)] at hv
    exact List.inj_on_of_nodup_map hn hx hsr (Prod.ext hv.1.1 hv.1.2)
  have htime : ∀ v, persistedRemTimes (some recs)
      (remTimeKey sr.recommendation.identityID sr.recommendation.kind) = some v ↔
      sr.createdAt.isZero = false ∧ formatSeconds sr.createdAt = v := by
    intro v
    rw [persistedRemTimes, Option.getD_some, sets_eq_some_iff, last_iff_of_unique]
    · constructor
      · rintro (⟨x, hx, hv⟩ | ⟨-, hv⟩)
        · obtain rfl := hgives x hx v hv
          unfold Gives remTime at hv
          split_ifs at hv with hzero
          simp only [Option.some.injEq, Prod.mk.injEq, true_and] at hv
          exact ⟨Bool.eq_false_iff.mpr hzero, hv⟩
        · cases hv
      · rintro ⟨hzero, rfl⟩
        refine Or.inl ⟨sr, hsr, ?_⟩
        unfold Gives remTime
        rw [hzero]
        rfl
    · intro x hx y hy v w hv hw
      obtain rfl := hgives x hx v hv
      obtain rfl := hgives y hy w hw
      unfold Gives at hv hw
      rw [hv, Option.some.injEq, Prod.mk.injEq] at hw
      exact hw.2
  unfold dated apiStored
  congr 1
  cases hzero : sr.createdAt.isZero with
  | true =>
    have hnone : persistedRemTimes (some recs)
        (remTimeKey sr.recommendation.identityID sr.recommendation.kind) = none := by
      refine Option.eq_none_iff_forall_ne_some.mpr fun v hv => ?_
      have hfalse := ((htime v).mp hv).1
      rw [hzero] at hfalse
      cases hfalse
    rw [hnone]
    rfl
  | false =>
    rw [(htime _).mpr ⟨hzero, rfl⟩]
    rfl

/-! ## Agreement -/

/-- **Where the table is what the graph calls for**, it is served as it would be made again, and as it is
embedded, with the ages. -/
theorem remediationsJSON_serveDb {C : Pg.Collation} {g : Store} {rows : List Pg.RemediationRow}
    (hn : (rows.map Pg.RemediationRow.key).Nodup)
    (h : ∀ r, r ∈ Pg.remediations C rows ↔ r ∈ Remediation.recommendations U days now g.identities) :
    (((serveDb C g rows).remediationsJSON U days now).map ApiRecommendation.undated).Perm
      ((⟨g, none⟩ : Server).remediationsJSON U days now) ∧
    ((serveDb C g rows).remediationsJSON U days now).Perm
      (((serveDb C g rows).embedded U days now).flatMap Embedded.recommendations) := by
  have hsorted : (Pg.remediationRecords C rows).map (fun sr => sr.recommendation.key) =
      (rows.insertionSort (Pg.RemediationRow.le C)).map Pg.RemediationRow.key := by
    rw [Pg.remediationRecords, List.map_map]
    rfl
  have hkeys : ((Pg.remediationRecords C rows).map fun sr => sr.recommendation.key).Nodup := by
    rw [hsorted]
    exact ((List.perm_insertionSort _ rows).map _).nodup_iff.mpr hn
  have hperm : (Pg.remediations C rows).Perm (Remediation.recommendations U days now g.identities) := by
    refine (List.perm_ext_iff_of_nodup ?_ ?_).mpr h
    · rw [Pg.remediations]
      refine List.Nodup.of_map Recommendation.key ?_
      rw [List.map_map]
      exact hkeys
    · exact (nodup_keys_recommendations U days now g.nodup_identities).of_map
  have hnul : ∀ sr ∈ Pg.remediationRecords C rows, 0 ∉ sr.recommendation.kind := fun sr hsr =>
    zero_notMem_kind ((h sr.recommendation).mp (List.mem_map_of_mem hsr))
  have hserved : (serveDb C g rows).remediationsJSON U days now =
      (Pg.remediations C rows).map (dated (persistedRemTimes (serveDb C g rows).remParam)) := by
    by_cases hrecs : Pg.remediationRecords C rows = []
    · have hnil : Remediation.recommendations U days now g.identities = [] := by
        rw [Pg.remediations, hrecs] at hperm
        exact hperm.nil_eq.symm
      have hlive : serveDb C g rows = ⟨g, none⟩ := by
        rw [serveDb, hrecs]
        rfl
      rw [hlive, remediationsJSON_live, hnil, Pg.remediations, hrecs]
      rfl
    · rw [remediationsJSON_stored g hrecs, remParam_serveDb g hrecs, Pg.remediations, List.map_map]
      exact List.map_congr_left fun sr hsr => (persistedRemTimes_of_mem hkeys hnul hsr).symm
  rw [hserved]
  constructor
  · rw [remediationsJSON_live, List.map_map]
    exact hperm.map _
  · rw [flatMap_embedded]
    exact hperm.map _

/-! ## Over runs -/

/-- **What is saved over any runs.** Under each key it is what the last run to save one there recommended. It
is what the last run recommended exactly if that run could be saved, and recommended something under every
key that an earlier one saved; then the persisted set is served as the graph would have it made again, and as it
is embedded. -/
theorem saved_stay (U : Unicode) (days : Ages) (C : Pg.Collation) (runs : List SaveRun) (last : SaveRun) :
    (∀ r, r ∈ Pg.remediations C (SaveRun.saveAll U days (runs ++ [last])) ↔
      ∃ createdAt, Last (SaveRun.Writes U days r.key) (runs ++ [last]) ⟨r, createdAt⟩) ∧
    ((∀ r, r ∈ Pg.remediations C (SaveRun.saveAll U days (runs ++ [last])) ↔ r ∈ last.recs U days) ↔
      SaveRun.Covers U days runs last) ∧
    (SaveRun.Covers U days runs last →
      (((serveDb C last.graph (SaveRun.saveAll U days (runs ++ [last]))).remediationsJSON U days last.now).map
        ApiRecommendation.undated).Perm ((⟨last.graph, none⟩ : Server).remediationsJSON U days last.now) ∧
      ((serveDb C last.graph (SaveRun.saveAll U days (runs ++ [last]))).remediationsJSON U days last.now).Perm
        (((serveDb C last.graph (SaveRun.saveAll U days (runs ++ [last]))).embedded U days last.now).flatMap
          Embedded.recommendations)) := by
  refine ⟨fun r => ?_, SaveRun.mem_remediations_iff C runs last, fun hcovers => ?_⟩
  · rw [Pg.mem_remediations]
    constructor
    · rintro ⟨row, hrow, rfl⟩
      exact ⟨row.createdAt, SaveRun.mem_saveAll_iff.mp hrow⟩
    · rintro ⟨createdAt, hlast⟩
      exact ⟨⟨r, createdAt⟩, SaveRun.mem_saveAll_iff.mpr hlast, rfl⟩
  · exact remediationsJSON_serveDb (SaveRun.nodup_keys_saveAll _)
      ((SaveRun.mem_remediations_iff C runs last).mpr hcovers)

/-- A role with a grant it uses and another. -/
def etlRole (used : Bool) : Identity :=
  { Identity.zero "arn:aws:iam::1:role/etl" with
    source := "aws_iam"
    permissions := [⟨"ReadData", false, true, [], ""⟩, ⟨"WriteData", false, used, [], ""⟩] }

/-- A run over a graph of this role alone. -/
def etlRun (used : Bool) : SaveRun where
  graph := (Store.new fun _ => false).addIdentity (etlRole used)
  now := Time.zero
  savedAt := 0

/-- **A grant that came into use** leaves its row: the last run recommends nothing, the table still holds that
the grant be revoked, and it is served where the graph would have nothing served. -/
theorem stale_row_stays :
    (∃ r, r ∈ Pg.remediations ⟨fun a b => a < b⟩
      (SaveRun.saveAll Unicode.basic (fun _ => 0) ([etlRun false] ++ [etlRun true])) ∧
      r ∉ (etlRun true).recs Unicode.basic fun _ => 0) ∧
    (serveDb ⟨fun a b => a < b⟩ (etlRun true).graph (SaveRun.saveAll Unicode.basic (fun _ => 0)
      ([etlRun false] ++ [etlRun true]))).remediationsJSON Unicode.basic (fun _ => 0) (etlRun true).now ≠ [] ∧
    (⟨(etlRun true).graph, none⟩ : Server).remediationsJSON Unicode.basic (fun _ => 0) (etlRun true).now = [] := by
  have hlast : (etlRun true).recs Unicode.basic (fun _ => 0) = [] := rfl
  have hfirst : (etlRun false).recs Unicode.basic (fun _ => 0) ≠ [] := List.cons_ne_nil _ _
  have hsaves : (etlRun false).Saves Unicode.basic fun _ => 0 :=
    List.all_eq_true.mp (by decide +kernel)
  obtain ⟨r, hr⟩ := List.exists_mem_of_ne_nil _ hfirst
  have hwrites : SaveRun.Writes Unicode.basic (fun _ => 0) r.key (etlRun false) ⟨r, 0⟩ := ⟨hsaves, rfl, hr, rfl⟩
  have hrow : (⟨r, 0⟩ : Pg.RemediationRow) ∈ SaveRun.saveAll Unicode.basic (fun _ => 0)
      ([etlRun false] ++ [etlRun true]) := by
    refine SaveRun.mem_saveAll_iff.mpr ⟨[], etlRun false, [etlRun true], rfl, hwrites, fun run hrun w hw => ?_⟩
    obtain rfl := List.mem_singleton.mp hrun
    have hmem := hw.2.2.1
    rw [hlast] at hmem
    cases hmem
  have hstored := Pg.mem_remediations (C := ⟨fun a b => a < b⟩).mpr ⟨_, hrow, rfl⟩
  refine ⟨⟨r, hstored, ?_⟩, ?_, ?_⟩
  · rw [hlast]
    exact List.not_mem_nil
  · obtain ⟨sr, hsr, -⟩ := List.mem_map.mp hstored
    rw [remediationsJSON_stored _ (List.ne_nil_of_mem hsr)]
    exact List.ne_nil_of_mem (List.mem_map_of_mem hsr)
  · rw [remediationsJSON_live]
    exact congrArg (List.map _) hlast

end Server

end Idryx
