import Idryx.AiUsage.Build
import Idryx.Graph.Store

/-!
# The two tables of a report

The provider rows are filled by one set of loops and the subject rows by another. Here: what each of them
says, by the declarations, the sightings and the scan.

* `mem_observedBy`, `mem_declaredBy`, `coded_iff`: the columns of a provider row;
* `seen_egress_iff`, `declared_iff`: what the subject rows of a provider say;
* `Consistent`: the tables agree, and no provider row names a gap all of its subject rows deny;
* **`consistent_iff`**: when they do;
* `endpoint_disagrees`: an agent that declares an endpoint of a provider it does not name.
-/

namespace Idryx.AiUsage

variable {U : Unicode} {matchHost : MatchHost} {ids : List Identity} {scan : Option CodeScan}
  {p s : GoString}

/-! ## The provider rows -/

namespace Rows

/-- The row of a provider, as it would be created if there is none. -/
def row (rows : List Row) (p : GoString) : Row := (Keyed.lookup Row.provider p rows).getD (Row.fresh p)

theorem row_update (rows : List Row) (q : GoString) {f : Row → Row}
    (hf : ∀ r, (f r).provider = r.provider) :
    row (update rows q f) p = if p = q then f (row rows q) else row rows p := by
  have hi : (f (Row.fresh q)).provider = q := hf _
  have hu : ∀ r : Row, r.provider = q → (f r).provider = q := fun r hr => (hf r).trans hr
  unfold row update
  split_ifs with h
  · subst h
    rw [Keyed.lookup_upsert_self hi hu]
    cases Keyed.lookup Row.provider p rows <;> rfl
  · rw [Keyed.lookup_upsert_ne hi hu h]

theorem nodup_update {rows : List Row} (hn : (rows.map Row.provider).Nodup) (q : GoString) {f : Row → Row}
    (hf : ∀ r, (f r).provider = r.provider) : ((update rows q f).map Row.provider).Nodup :=
  Keyed.nodup_upsert (hf _ : (f (Row.fresh q)).provider = q) (fun r hr => (hf r).trans hr) hn

/-- Who is in a column is who was marked as being in it. -/
structure Marked (st : Rows) : Prop where
  nodup : (st.rows.map Row.provider).Nodup
  declared : ∀ p s, s ∈ (row st.rows p).declaredBy ↔ s ∈ Groups.members st.seenDeclared p
  observed : ∀ p s, s ∈ (row st.rows p).observedBy ↔ s ∈ Groups.members st.seenObserved p

theorem marked_empty : Marked ⟨[], [], []⟩ :=
  ⟨List.nodup_nil, fun _ _ => Iff.rfl, fun _ _ => Iff.rfl⟩

theorem Marked.update {st : Rows} (h : Marked st) (q : GoString) {f : Row → Row}
    (hf : ∀ r, (f r).provider = r.provider) (hd : ∀ r, (f r).declaredBy = r.declaredBy)
    (ho : ∀ r, (f r).observedBy = r.observedBy) : Marked { st with rows := update st.rows q f } where
  nodup := nodup_update h.nodup q hf
  declared p s := by
    rw [← h.declared, row_update _ _ hf]
    split_ifs with hp
    · rw [hp, hd]
    · rfl
  observed p s := by
    rw [← h.observed, row_update _ _ hf]
    split_ifs with hp
    · rw [hp, ho]
    · rfl

theorem marked_addDeclared {st : Rows} (h : Marked st) (id provider : GoString) :
    Marked (addDeclared U id st provider) := by
  unfold addDeclared
  dsimp only
  split_ifs
  · exact h
  · exact h.update _ (fun _ => rfl) (fun _ => rfl) fun _ => rfl
  · have hf : ∀ r : Row, ({ r with declaredBy := r.declaredBy ++ [id] } : Row).provider = r.provider :=
      fun _ => rfl
    refine ⟨nodup_update h.nodup _ hf, fun p s => ?_, fun p s => ?_⟩
    · rw [row_update _ _ hf, Groups.mem_members_insert]
      split_ifs with hp
      · rw [List.mem_append, List.mem_singleton, h.declared, hp]
        simp only [true_and]
      · rw [h.declared]
        simp only [hp, false_and, or_false]
    · rw [row_update _ _ hf, ← h.observed]
      split_ifs with hp
      · rw [hp]
      · rfl

theorem marked_addObserved {st : Rows} (h : Marked st) (id provider : GoString) :
    Marked (addObserved U id st provider) := by
  unfold addObserved
  dsimp only
  split_ifs
  · exact h
  · exact h.update _ (fun _ => rfl) (fun _ => rfl) fun _ => rfl
  · have hf : ∀ r : Row, ({ r with observedBy := r.observedBy ++ [id] } : Row).provider = r.provider :=
      fun _ => rfl
    refine ⟨nodup_update h.nodup _ hf, fun p s => ?_, fun p s => ?_⟩
    · rw [row_update _ _ hf, ← h.declared]
      split_ifs with hp
      · rw [hp]
      · rfl
    · rw [row_update _ _ hf, Groups.mem_members_insert]
      split_ifs with hp
      · rw [List.mem_append, List.mem_singleton, h.observed, hp]
        simp only [true_and]
      · rw [h.observed]
        simp only [hp, false_and, or_false]

theorem marked_addCode {st : Rows} (h : Marked st) (entry : GoString × CodeScanEntry) :
    Marked (addCode U st entry) := by
  unfold addCode
  dsimp only
  split_ifs
  · exact h
  · exact h.update _ (fun _ => rfl) (fun _ => rfl) fun _ => rfl

theorem marked_identity {st : Rows} (h : Marked st) (id : Identity) :
    Marked (identity U matchHost st id) := by
  unfold identity
  refine List.foldlRecOn (motive := Marked) _ _ ?_ fun _ h _ _ => marked_addObserved h _ _
  exact List.foldlRecOn (motive := Marked) _ _ h fun _ h _ _ => marked_addDeclared h _ _

theorem marked_collect (U : Unicode) (matchHost : MatchHost) (ids : List Identity)
    (scan : Option CodeScan) : Marked (collect U matchHost ids scan) := by
  refine List.foldlRecOn (motive := Marked) _ _ ?_ fun _ h entry _ => marked_addCode h entry
  exact List.foldlRecOn (motive := Marked) _ _ marked_empty fun _ h id _ => marked_identity h id

/-! ### What each entry adds -/

theorem mem_seenDeclared_addDeclared (id : GoString) (st : Rows) (provider : GoString) :
    s ∈ Groups.members (addDeclared U id st provider).seenDeclared p ↔
      s ∈ Groups.members st.seenDeclared p ∨ Names U p provider ∧ s = id := by
  unfold addDeclared
  by_cases hblank : normalize U provider = ""
  · simp [hblank, Names]
  · rw [names_iff hblank]
    simp only [if_neg hblank]
    split_ifs with hmem
    · refine (or_iff_left_of_imp ?_).symm
      rintro ⟨rfl, rfl⟩
      exact hmem
    · exact Groups.mem_members_insert

theorem mem_seenObserved_addObserved (id : GoString) (st : Rows) (provider : GoString) :
    s ∈ Groups.members (addObserved U id st provider).seenObserved p ↔
      s ∈ Groups.members st.seenObserved p ∨ Names U p provider ∧ s = id := by
  unfold addObserved
  by_cases hblank : normalize U provider = ""
  · simp [hblank, Names]
  · rw [names_iff hblank]
    simp only [if_neg hblank]
    split_ifs with hmem
    · refine (or_iff_left_of_imp ?_).symm
      rintro ⟨rfl, rfl⟩
      exact hmem
    · exact Groups.mem_members_insert

theorem seenObserved_addDeclared (id : GoString) (st : Rows) (provider : GoString) :
    (addDeclared U id st provider).seenObserved = st.seenObserved := by
  unfold addDeclared
  dsimp only
  split_ifs <;> rfl

theorem seenDeclared_addObserved (id : GoString) (st : Rows) (provider : GoString) :
    (addObserved U id st provider).seenDeclared = st.seenDeclared := by
  unfold addObserved
  dsimp only
  split_ifs <;> rfl

theorem seen_addCode (st : Rows) (entry : GoString × CodeScanEntry) :
    (addCode U st entry).seenDeclared = st.seenDeclared ∧
      (addCode U st entry).seenObserved = st.seenObserved := by
  unfold addCode
  dsimp only
  split_ifs <;> exact ⟨rfl, rfl⟩

theorem part_update {γ : Type*} (π : Row → γ) (rows : List Row) (q : GoString) {f : Row → Row}
    (hf : ∀ r, (f r).provider = r.provider) (hπ : ∀ r, π (f r) = π r) :
    π (row (update rows q f) p) = π (row rows p) := by
  rw [row_update _ _ hf]
  split_ifs with hp
  · rw [hp, hπ]
  · rfl

theorem part_identity {γ : Type*} (π : Row → γ) (hdeclared : ∀ r ids, π { r with declaredBy := ids } = π r)
    (hobserved : ∀ r ids, π { r with observedBy := ids } = π r) (st : Rows) (id : Identity) :
    π (row (identity U matchHost st id).rows p) = π (row st.rows p) := by
  have hdecl (st : Rows) (q : GoString) : π (row (addDeclared U id.id st q).rows p) = π (row st.rows p) := by
    unfold addDeclared
    dsimp only
    split_ifs
    · rfl
    · exact part_update π _ _ (fun _ => rfl) fun _ => rfl
    · dsimp only
      refine part_update π _ _ ?_ ?_
      · exact fun _ => rfl
      · exact fun r => hdeclared r _
  have hobs (st : Rows) (q : GoString) : π (row (addObserved U id.id st q).rows p) = π (row st.rows p) := by
    unfold addObserved
    dsimp only
    split_ifs
    · rfl
    · exact part_update π _ _ (fun _ => rfl) fun _ => rfl
    · dsimp only
      refine part_update π _ _ ?_ ?_
      · exact fun _ => rfl
      · exact fun r => hobserved r _
  unfold identity
  rw [Loop.foldl_fixed (f := fun st : Rows => π (row st.rows p)) fun st q _ => hobs st q,
    Loop.foldl_fixed (f := fun st : Rows => π (row st.rows p)) fun st q _ => hdecl st q]

theorem coded_addCode (st : Rows) (entry : GoString × CodeScanEntry) :
    0 < (row (addCode U st entry).rows p).codeSites ↔
      0 < (row st.rows p).codeSites ∨ Names U p entry.1 ∧ 0 < entry.2.sites := by
  unfold addCode
  by_cases hblank : normalize U entry.1 = ""
  · simp [hblank, Names]
  · rw [names_iff hblank]
    simp only [if_neg hblank]
    rw [row_update _ _ (by exact fun _ => rfl)]
    split_ifs with hp
    · rw [hp]
      simp only [true_and]
      omega
    · simp only [hp, false_and, or_false]

end Rows

/-! ## What the columns say -/

/-- The identity was seen reaching the provider. -/
def Sighted (U : Unicode) (matchHost : MatchHost) (id : Identity) (p : GoString) : Prop :=
  ∃ h, (p, h) ∈ id.events.filterMap (sighting U matchHost)

theorem sighted_iff {id : Identity} : Sighted U matchHost id p ↔
    ∃ provider ∈ id.events.filterMap (Rows.reached matchHost), Names U p provider := by
  unfold Sighted Names
  simp only [List.mem_filterMap]
  constructor
  · rintro ⟨h, e, he, hs⟩
    unfold sighting at hs
    split_ifs at hs with htype
    cases hm : matchHost e.resource with
    | none =>
      rw [hm] at hs
      cases hs
    | some provider =>
      simp only [hm] at hs
      split_ifs at hs with hblank
      simp only [Option.some.injEq, Prod.mk.injEq] at hs
      refine ⟨provider, ⟨e, he, ?_⟩, hblank, hs.1⟩
      rw [Rows.reached, if_neg (not_not.mpr htype), hm]
  · rintro ⟨provider, ⟨e, he, hr⟩, hblank, rfl⟩
    unfold Rows.reached at hr
    split_ifs at hr with htype
    rw [not_not] at htype
    refine ⟨hostOnly U e.resource, e, he, ?_⟩
    rw [sighting, if_pos htype, hr]
    exact if_neg hblank

/-- **The declared column of a provider**: the subjects that name it. -/
theorem mem_declaredBy : s ∈ (Rows.row (collect U matchHost ids scan).rows p).declaredBy ↔
    ∃ id ∈ ids, s = id.id ∧ Declares U id.declaredModels p := by
  have hidentity : ∀ (st : Rows) (id : Identity),
      s ∈ Groups.members (Rows.identity U matchHost st id).seenDeclared p ↔
        s ∈ Groups.members st.seenDeclared p ∨ s = id.id ∧ Declares U id.declaredModels p := by
    intro st id
    unfold Rows.identity
    rw [Loop.foldl_fixed (f := Rows.seenDeclared) fun st q _ => Rows.seenDeclared_addObserved id.id st q,
      Loop.foldl_iff (P := fun st : Rows => s ∈ Groups.members st.seenDeclared p)
        (Rows.mem_seenDeclared_addDeclared id.id)]
    apply or_congr_right
    simp only [List.mem_map, exists_exists_and_eq_and, Names, Declares]
    grind
  rw [(Rows.marked_collect U matchHost ids scan).declared, collect,
    Loop.foldl_fixed (f := Rows.seenDeclared) fun st entry _ => (Rows.seen_addCode st entry).1,
    Loop.foldl_iff (P := fun st : Rows => s ∈ Groups.members st.seenDeclared p) hidentity]
  exact or_iff_right List.not_mem_nil

/-- **The observed column of a provider**: the subjects seen reaching it. -/
theorem mem_observedBy : s ∈ (Rows.row (collect U matchHost ids scan).rows p).observedBy ↔
    ∃ id ∈ ids, s = id.id ∧ Sighted U matchHost id p := by
  have hidentity : ∀ (st : Rows) (id : Identity),
      s ∈ Groups.members (Rows.identity U matchHost st id).seenObserved p ↔
        s ∈ Groups.members st.seenObserved p ∨ s = id.id ∧ Sighted U matchHost id p := by
    intro st id
    unfold Rows.identity
    rw [Loop.foldl_iff (P := fun st : Rows => s ∈ Groups.members st.seenObserved p)
        (Rows.mem_seenObserved_addObserved id.id),
      Loop.foldl_fixed (f := Rows.seenObserved) fun st q _ => Rows.seenObserved_addDeclared id.id st q,
      sighted_iff]
    apply or_congr_right
    grind
  rw [(Rows.marked_collect U matchHost ids scan).observed, collect,
    Loop.foldl_fixed (f := Rows.seenObserved) fun st entry _ => (Rows.seen_addCode st entry).2,
    Loop.foldl_iff (P := fun st : Rows => s ∈ Groups.members st.seenObserved p) hidentity]
  exact or_iff_right List.not_mem_nil

theorem coded_iff : 0 < (Rows.row (collect U matchHost ids scan).rows p).codeSites ↔
    ∃ entry ∈ (scan.map CodeScan.providers).getD [], Names U p entry.1 ∧ 0 < entry.2.sites := by
  have hidentity (st : Rows) (id : Identity) :
      (Rows.row (Rows.identity U matchHost st id).rows p).codeSites = (Rows.row st.rows p).codeSites :=
    Rows.part_identity Row.codeSites (fun _ _ => rfl) (fun _ _ => rfl) st id
  rw [collect, Loop.foldl_iff (P := fun st : Rows => 0 < (Rows.row st.rows p).codeSites) Rows.coded_addCode,
    Loop.foldl_fixed (f := fun st : Rows => (Rows.row st.rows p).codeSites) fun st id _ => hidentity st id]
  exact or_iff_right (Nat.lt_irrefl 0)

theorem mem_rows {r : Row} (h : r ∈ (build U matchHost ids scan).rows) :
    r.provider ≠ "" ∧ r = (Rows.row (collect U matchHost ids scan).rows r.provider).finish scan.isSome := by
  have hne : r.provider ≠ "" := by
    obtain ⟨_, _, ⟨_, _, hn⟩ | ⟨_, _, _, _, hn⟩⟩ | ⟨_, _, hn⟩ :=
      mem_providers_rows.mp (List.mem_map_of_mem h)
    · exact hn.2 ▸ hn.1
    · exact hn.2 ▸ hn.1
    · exact hn.2 ▸ hn.1
  refine ⟨hne, ?_⟩
  obtain ⟨r', hr', rfl⟩ := List.mem_map.mp ((List.mem_insertionSort _).mp h)
  have hl := Keyed.lookup_of_mem (Rows.marked_collect U matchHost ids scan).nodup hr'
  show _ = ((Keyed.lookup Row.provider r'.provider _).getD _).finish _
  rw [hl]
  rfl


/-! ## What the subject rows say -/

/-- The provider is not named, and every host it was reached on is an endpoint's. -/
def Covered (U : Unicode) (matchHost : MatchHost) (id : Identity) (p : GoString) : Prop :=
  Sighted U matchHost id p ∧
    ∀ h, (p, h) ∈ id.events.filterMap (sighting U matchHost) → DeclaresHost U id.declaredModels h

theorem mem_seen_gather {id : Identity} :
    p ∈ (gather U matchHost id).seen.map Prod.fst ↔ Sighted U matchHost id p := by
  rw [seen_gather, Groups.mem_keys_ofPairs]
  rfl

theorem covered_iff {id : Identity} :
    (gather U matchHost id).coveredByEndpoint p = true ↔ Covered U matchHost id p := by
  by_cases hseen : Sighted U matchHost id p
  · rw [← Bool.not_eq_false, coveredByEndpoint_eq_false seen_gather (mem_seen_gather.mpr hseen)]
    unfold Covered
    push Not
    simp only [mem_hosts_gather, hseen, true_and]
  · refine iff_of_false ?_ fun h => hseen h.1
    have hnone : Groups.members (gather U matchHost id).seen p = [] := by
      rw [List.eq_nil_iff_forall_not_mem]
      intro h hh
      rw [seen_gather, Groups.mem_members_ofPairs] at hh
      exact hseen ⟨h, hh⟩
    unfold SubjectFacts.coveredByEndpoint
    simp only [hnone, List.isEmpty_nil, if_true, Bool.false_eq_true, not_false_eq_true]

theorem mem_providers_gather {id : Identity} : p ∈ (gather U matchHost id).providers ↔
    Declares U id.declaredModels p ∨ Sighted U matchHost id p := by
  rw [mem_providers, mem_declared_gather, mem_seen_gather]

theorem mem_subjectRows {id : Identity} {row : SubjectRow} (hp : p ≠ "") :
    row ∈ subjectRows U matchHost scan id ∧ row.provider = p ↔
      (Declares U id.declaredModels p ∨ Sighted U matchHost id p) ∧
        row = providerRow scan id (gather U matchHost id) p := by
  rw [← mem_providers_gather]
  unfold subjectRows
  generalize gather U matchHost id = f
  dsimp only
  split_ifs with hnone hempty
  · -- no subject: nothing is declared and nothing was seen
    simp only [Bool.and_eq_true, List.isEmpty_iff] at hnone
    refine iff_of_false (fun h => List.not_mem_nil h.1) fun h => ?_
    have hmem := mem_providers.mp h.1
    rw [hnone.1.2, hnone.2] at hmem
    exact hmem.elim List.not_mem_nil List.not_mem_nil
  · -- the only row is about no provider
    rw [List.isEmpty_iff.mp hempty]
    refine iff_of_false (fun h => hp ?_) fun h => List.not_mem_nil h.1
    rw [← h.2, List.mem_singleton.mp h.1]
    rfl
  · constructor
    · rintro ⟨hrow, rfl⟩
      obtain ⟨q, hq, rfl⟩ := List.mem_map.mp hrow
      exact ⟨(List.mem_insertionSort _).mp hq, rfl⟩
    · rintro ⟨hmem, rfl⟩
      exact ⟨List.mem_map.mpr ⟨p, (List.mem_insertionSort _).mpr hmem, rfl⟩, rfl⟩

theorem seen_providerRow {id : Identity} :
    (providerRow scan id (gather U matchHost id) p).seen = .egress ↔ Sighted U matchHost id p := by
  rw [← mem_seen_gather, ← List.contains_iff_mem]
  show (if _ then _ else _) = _ ↔ _
  split_ifs with hseen hbus
  · exact iff_of_true rfl hseen
  · exact iff_of_false (fun h => by cases h) hseen
  · exact iff_of_false (fun h => by cases h) hseen

theorem declared_providerRow {id : Identity} :
    (providerRow scan id (gather U matchHost id) p).declared = true ↔
      Declares U id.declaredModels p ∨ Covered U matchHost id p := by
  show (_ || _) = true ↔ _
  rw [Bool.or_eq_true, List.contains_iff_mem, mem_declared_gather, covered_iff]

theorem code_providerRow {id : Identity} {f : SubjectFacts} :
    (providerRow scan id f p).code = some .found ↔ 0 < (scan.map fun scan => scan.sites p).getD 0 := by
  show some (if _ then _ else if _ then _ else _) = _ ↔ _
  cases scan with
  | none => simp
  | some scan =>
    simp only [Option.isNone_some, Bool.false_eq_true, if_false, Option.some.injEq]
    split_ifs with h
    · exact iff_of_true rfl h
    · exact iff_of_false (fun h => by cases h) h

theorem exists_subject {P : SubjectRow → Prop} (hp : p ≠ "") :
    (∃ sub ∈ (build U matchHost ids scan).subjects, sub.provider = p ∧ P sub) ↔
      ∃ id ∈ ids, (Declares U id.declaredModels p ∨ Sighted U matchHost id p) ∧
        P (providerRow scan id (gather U matchHost id) p) := by
  constructor
  · rintro ⟨sub, hsub, hprov, hP⟩
    obtain ⟨id, hid, hrow⟩ := mem_buildSubjects.mp hsub
    obtain ⟨hmem, rfl⟩ := (mem_subjectRows hp).mp ⟨hrow, hprov⟩
    exact ⟨id, hid, hmem, hP⟩
  · rintro ⟨id, hid, hmem, hP⟩
    have hrow : providerRow scan id (gather U matchHost id) p ∈ subjectRows U matchHost scan id ∧ _ :=
      (mem_subjectRows hp).mpr ⟨hmem, rfl⟩
    exact ⟨_, mem_buildSubjects.mpr ⟨id, hid, hrow.1⟩, hrow.2, hP⟩

theorem exists_subject_provider (hp : p ≠ "") :
    (∃ sub ∈ (build U matchHost ids scan).subjects, sub.provider = p) ↔
      ∃ id ∈ ids, Declares U id.declaredModels p ∨ Sighted U matchHost id p := by
  have h : (∃ sub ∈ (build U matchHost ids scan).subjects, sub.provider = p ∧ True) ↔ _ :=
    exists_subject hp
  simpa only [and_true] using h

/-- **The subjects seen reaching a provider.** -/
theorem seen_egress_iff (hp : p ≠ "") :
    (∃ sub ∈ (build U matchHost ids scan).subjects,
      sub.provider = p ∧ sub.subject = s ∧ sub.seen = .egress) ↔
        ∃ id ∈ ids, s = id.id ∧ Sighted U matchHost id p := by
  rw [exists_subject hp]
  constructor
  · rintro ⟨id, hid, -, hs, hseen⟩
    exact ⟨id, hid, hs.symm, seen_providerRow.mp hseen⟩
  · rintro ⟨id, hid, hs, hseen⟩
    exact ⟨id, hid, Or.inr hseen, hs.symm, seen_providerRow.mpr hseen⟩

/-- **The subjects marked as declaring a provider**: by its name, or by the hosts of their endpoints. -/
theorem declared_iff (hp : p ≠ "") :
    (∃ sub ∈ (build U matchHost ids scan).subjects,
      sub.provider = p ∧ sub.subject = s ∧ sub.declared = true) ↔
        ∃ id ∈ ids, s = id.id ∧ (Declares U id.declaredModels p ∨ Covered U matchHost id p) := by
  rw [exists_subject hp]
  constructor
  · rintro ⟨id, hid, -, hs, hdec⟩
    exact ⟨id, hid, hs.symm, declared_providerRow.mp hdec⟩
  · rintro ⟨id, hid, hs, hdec⟩
    exact ⟨id, hid, hdec.imp_right And.left, hs.symm, declared_providerRow.mpr hdec⟩

/-! ## One report -/

/-- A subject row says that its provider has no such gap. -/
def SubjectRow.denies (sub : SubjectRow) : Gap → Bool
  | .declaredNotSeen => !sub.declared || sub.seen == .egress
  | .seenNotDeclared => sub.declared || sub.seen != .egress
  | .inCodeNotSeen => sub.code != some .found || sub.seen == .egress
  | _ => false

/-- The two tables of a report agree. -/
structure Consistent (U : Unicode) (scan : Option CodeScan) (r : Report) : Prop where
  observed : ∀ row ∈ r.rows, ∀ s, s ∈ row.observedBy ↔
    ∃ sub ∈ r.subjects, sub.provider = row.provider ∧ sub.subject = s ∧ sub.seen = .egress
  declared : ∀ row ∈ r.rows, ∀ s, s ∈ row.declaredBy ↔
    ∃ sub ∈ r.subjects, sub.provider = row.provider ∧ sub.subject = s ∧ sub.declared = true
  providers : ∀ p, p ∈ r.rows.map Row.provider ↔ p ≠ "" ∧
    ((∃ sub ∈ r.subjects, sub.provider = p) ∨
      ∃ entry ∈ (scan.map CodeScan.providers).getD [], normalize U entry.1 = p)
  gaps : ∀ row ∈ r.rows, ∀ g ∈ row.gaps, (∃ sub ∈ r.subjects, sub.provider = row.provider) →
    ∃ sub ∈ r.subjects, sub.provider = row.provider ∧ sub.denies g = false

/-- No subject reaches a provider it does not name on the hosts of its endpoints alone. -/
def EndpointsNamed (U : Unicode) (matchHost : MatchHost) (ids : List Identity) : Prop :=
  ∀ id ∈ ids, ∀ p, Covered U matchHost id p →
    ∃ other ∈ ids, id.id = other.id ∧ Declares U other.declaredModels p

/-- A provider in the code that is declared and was not seen has its sites under its own key. -/
def ScanNamed (U : Unicode) (matchHost : MatchHost) (ids : List Identity) (scan : Option CodeScan) :
    Prop :=
  ∀ p, (∃ entry ∈ (scan.map CodeScan.providers).getD [], Names U p entry.1 ∧ 0 < entry.2.sites) →
    (∃ id ∈ ids, Declares U id.declaredModels p) →
      (∃ id ∈ ids, Sighted U matchHost id p) ∨ 0 < (scan.map fun scan => scan.sites p).getD 0

/-! ## When the tables agree -/

theorem mem_observedBy_rows {row : Row} (h : row ∈ (build U matchHost ids scan).rows) :
    s ∈ row.observedBy ↔ ∃ id ∈ ids, s = id.id ∧ Sighted U matchHost id row.provider := by
  have hcollect : s ∈ (Rows.row (collect U matchHost ids scan).rows row.provider).observedBy ↔ _ :=
    mem_observedBy
  rw [← hcollect]
  conv_lhs => rw [(mem_rows h).2]
  exact List.mem_insertionSort _

theorem mem_declaredBy_rows {row : Row} (h : row ∈ (build U matchHost ids scan).rows) :
    s ∈ row.declaredBy ↔ ∃ id ∈ ids, s = id.id ∧ Declares U id.declaredModels row.provider := by
  have hcollect : s ∈ (Rows.row (collect U matchHost ids scan).rows row.provider).declaredBy ↔ _ :=
    mem_declaredBy
  rw [← hcollect]
  conv_lhs => rw [(mem_rows h).2]
  exact List.mem_insertionSort _

theorem observed_rows {row : Row} (h : row ∈ (build U matchHost ids scan).rows) :
    row.observed = true ↔ ∃ id ∈ ids, Sighted U matchHost id row.provider := by
  unfold Row.observed
  rw [decide_eq_true_iff, List.length_pos_iff_exists_mem]
  simp only [mem_observedBy_rows h]
  grind

theorem declared_rows {row : Row} (h : row ∈ (build U matchHost ids scan).rows) :
    row.declared = true ↔ ∃ id ∈ ids, Declares U id.declaredModels row.provider := by
  unfold Row.declared
  rw [decide_eq_true_iff, List.length_pos_iff_exists_mem]
  simp only [mem_declaredBy_rows h]
  grind

theorem coded_rows {row : Row} (h : row ∈ (build U matchHost ids scan).rows) :
    row.coded = true ↔ ∃ entry ∈ (scan.map CodeScan.providers).getD [],
      Names U row.provider entry.1 ∧ 0 < entry.2.sites := by
  have hcollect : 0 < (Rows.row (collect U matchHost ids scan).rows row.provider).codeSites ↔ _ :=
    coded_iff
  rw [← hcollect]
  unfold Row.coded
  rw [decide_eq_true_iff]
  conv_lhs => rw [(mem_rows h).2]
  rfl

theorem gaps_rows {row : Row} (h : row ∈ (build U matchHost ids scan).rows) :
    row.gaps = providerGaps row scan.isSome := by
  conv_lhs => rw [(mem_rows h).2]
  conv_rhs => rw [(mem_rows h).2]
  rfl

theorem mem_providers_iff : p ∈ (build U matchHost ids scan).rows.map Row.provider ↔
    (∃ id ∈ ids, Declares U id.declaredModels p ∨ Sighted U matchHost id p) ∨
      ∃ entry ∈ (scan.map CodeScan.providers).getD [], Names U p entry.1 := by
  rw [mem_providers_rows]
  simp only [sighted_iff, List.mem_filterMap]
  unfold Declares Names
  grind

theorem exists_row (h : p ∈ (build U matchHost ids scan).rows.map Row.provider) :
    ∃ row ∈ (build U matchHost ids scan).rows, row.provider = p :=
  List.mem_map.mp h

/-- **The providers are always the same.** -/
theorem providers_consistent : p ∈ (build U matchHost ids scan).rows.map Row.provider ↔ p ≠ "" ∧
    ((∃ sub ∈ (build U matchHost ids scan).subjects, sub.provider = p) ∨
      ∃ entry ∈ (scan.map CodeScan.providers).getD [], normalize U entry.1 = p) := by
  by_cases hp : p = ""
  · refine iff_of_false (fun h => ?_) fun h => h.1 hp
    obtain ⟨row, hrow, rfl⟩ := exists_row h
    exact (mem_rows hrow).1 hp
  · rw [exists_subject_provider hp, mem_providers_iff]
    unfold Names
    grind

theorem declared_consistent :
    (∀ row ∈ (build U matchHost ids scan).rows, ∀ s, s ∈ row.declaredBy ↔
      ∃ sub ∈ (build U matchHost ids scan).subjects,
        sub.provider = row.provider ∧ sub.subject = s ∧ sub.declared = true) ↔
      EndpointsNamed U matchHost ids := by
  constructor
  · intro h id hid p hcov
    have hmem : p ∈ (build U matchHost ids scan).rows.map Row.provider :=
      mem_providers_iff.mpr (Or.inl ⟨id, hid, Or.inr hcov.1⟩)
    obtain ⟨row, hrow, rfl⟩ := exists_row hmem
    apply (mem_declaredBy_rows hrow).mp
    rw [h row hrow, declared_iff (mem_rows hrow).1]
    exact ⟨id, hid, rfl, Or.inr hcov⟩
  · intro h row hrow s
    rw [mem_declaredBy_rows hrow, declared_iff (mem_rows hrow).1]
    constructor
    · rintro ⟨id, hid, hs, hd⟩
      exact ⟨id, hid, hs, Or.inl hd⟩
    · rintro ⟨id, hid, rfl, hd | hcov⟩
      · exact ⟨id, hid, rfl, hd⟩
      · exact h id hid row.provider hcov

theorem exists_not_denies_seenNotDeclared (h : EndpointsNamed U matchHost ids) {row : Row}
    (hrow : row ∈ (build U matchHost ids scan).rows) (hobs : row.observed = true)
    (hdec : row.declared ≠ true) : ∃ sub ∈ (build U matchHost ids scan).subjects,
      sub.provider = row.provider ∧ sub.denies .seenNotDeclared = false := by
  obtain ⟨id, hid, hseen⟩ := (observed_rows hrow).mp hobs
  have hnone : ¬ ∃ id ∈ ids, Declares U id.declaredModels row.provider :=
    mt (declared_rows hrow).mpr hdec
  have hcov : ¬ Covered U matchHost id row.provider := by
    intro hcov
    obtain ⟨other, hother, -, hd⟩ := h id hid _ hcov
    exact hnone ⟨other, hother, hd⟩
  have hnot : ¬ (providerRow scan id (gather U matchHost id) row.provider).declared = true := by
    rw [declared_providerRow]
    rintro (hd | hc)
    · exact hnone ⟨id, hid, hd⟩
    · exact hcov hc
  refine (exists_subject (mem_rows hrow).1).mpr ⟨id, hid, Or.inr hseen, ?_⟩
  simp only [SubjectRow.denies, seen_providerRow.mpr hseen, Bool.not_eq_true _ ▸ hnot, bne_self_eq_false,
    Bool.or_false]

theorem exists_not_denies_declaredNotSeen {row : Row} (hrow : row ∈ (build U matchHost ids scan).rows)
    (hdec : row.declared = true) (hobs : row.observed ≠ true) :
    ∃ sub ∈ (build U matchHost ids scan).subjects,
      sub.provider = row.provider ∧ sub.denies .declaredNotSeen = false := by
  obtain ⟨id, hid, hd⟩ := (declared_rows hrow).mp hdec
  have hseen : (providerRow scan id (gather U matchHost id) row.provider).seen ≠ .egress := by
    rw [Ne, seen_providerRow]
    exact fun h => hobs ((observed_rows hrow).mpr ⟨id, hid, h⟩)
  refine (exists_subject (mem_rows hrow).1).mpr ⟨id, hid, Or.inl hd, ?_⟩
  simp only [SubjectRow.denies, declared_providerRow.mpr (Or.inl hd), Bool.not_true, Bool.false_or,
    beq_eq_false_iff_ne]
  exact hseen

/-- The subject rows of a provider in the code that was not seen say so if it has sites under its own
key, all of them or none. -/
theorem exists_not_denies_inCodeNotSeen {row : Row} (hrow : row ∈ (build U matchHost ids scan).rows)
    (hobs : row.observed ≠ true) (hdec : row.declared = true) :
    (∃ sub ∈ (build U matchHost ids scan).subjects,
      sub.provider = row.provider ∧ sub.denies .inCodeNotSeen = false) ↔
        0 < (scan.map fun scan => scan.sites row.provider).getD 0 := by
  rw [exists_subject (mem_rows hrow).1]
  have hdenies : ∀ id ∈ ids,
      ((providerRow scan id (gather U matchHost id) row.provider).denies .inCodeNotSeen = false ↔
        0 < (scan.map fun scan => scan.sites row.provider).getD 0) := by
    intro id hid
    have hseen : (providerRow scan id (gather U matchHost id) row.provider).seen ≠ .egress := by
      rw [Ne, seen_providerRow]
      exact fun h => hobs ((observed_rows hrow).mpr ⟨id, hid, h⟩)
    have hcode : (providerRow scan id (gather U matchHost id) row.provider).code = some .found ↔ _ :=
      code_providerRow
    rw [← hcode]
    simp only [SubjectRow.denies, Bool.or_eq_false_iff, bne_eq_false_iff_eq, beq_eq_false_iff_ne]
    exact and_iff_left hseen
  constructor
  · rintro ⟨id, hid, -, h⟩
    exact (hdenies id hid).mp h
  · intro h
    obtain ⟨id, hid, hd⟩ := (declared_rows hrow).mp hdec
    exact ⟨id, hid, Or.inl hd, (hdenies id hid).mpr h⟩

theorem mem_providerGaps {row : Row} {scanned : Bool} {g : Gap} : g ∈ providerGaps row scanned ↔
    g = .declaredNotSeen ∧ row.declared = true ∧ row.observed ≠ true ∨
      g = .seenNotDeclared ∧ row.observed = true ∧ row.declared ≠ true ∨
        g = .inCodeNotSeen ∧ scanned = true ∧ row.coded = true ∧ row.observed ≠ true := by
  unfold providerGaps
  cases row.declared <;> cases row.observed <;> cases row.coded <;> cases scanned <;> simp

theorem exists_subject_row {row : Row} (hrow : row ∈ (build U matchHost ids scan).rows) :
    (∃ sub ∈ (build U matchHost ids scan).subjects, sub.provider = row.provider) ↔
      row.declared = true ∨ row.observed = true := by
  rw [exists_subject_provider (mem_rows hrow).1, declared_rows hrow, observed_rows hrow]
  grind

theorem gaps_consistent (h : EndpointsNamed U matchHost ids) :
    (∀ row ∈ (build U matchHost ids scan).rows, ∀ g ∈ row.gaps,
      (∃ sub ∈ (build U matchHost ids scan).subjects, sub.provider = row.provider) →
        ∃ sub ∈ (build U matchHost ids scan).subjects,
          sub.provider = row.provider ∧ sub.denies g = false) ↔
      ScanNamed U matchHost ids scan := by
  constructor
  · rintro hgaps p ⟨entry, hentry, hnames, hsites⟩ ⟨id, hid, hd⟩
    by_contra hnot
    rw [not_or] at hnot
    obtain ⟨row, hrow, rfl⟩ := exists_row (mem_providers_iff.mpr (Or.inr ⟨entry, hentry, hnames⟩))
    have hobs : row.observed ≠ true := mt (observed_rows hrow).mp hnot.1
    have hdec : row.declared = true := (declared_rows hrow).mpr ⟨id, hid, hd⟩
    have hscan : scan.isSome = true := by
      cases scan with
      | none => exact absurd hentry List.not_mem_nil
      | some scan => rfl
    have hmem : Gap.inCodeNotSeen ∈ row.gaps := by
      rw [gaps_rows hrow, mem_providerGaps]
      exact Or.inr (Or.inr ⟨rfl, hscan, (coded_rows hrow).mpr ⟨entry, hentry, hnames, hsites⟩, hobs⟩)
    have hsub := (exists_subject_row hrow).mpr (Or.inl hdec)
    exact hnot.2 ((exists_not_denies_inCodeNotSeen hrow hobs hdec).mp (hgaps row hrow _ hmem hsub))
  · intro hscan row hrow g hg hsub
    rw [gaps_rows hrow, mem_providerGaps] at hg
    rcases hg with ⟨rfl, hdec, hobs⟩ | ⟨rfl, hobs, hdec⟩ | ⟨rfl, -, hcoded, hobs⟩
    · exact exists_not_denies_declaredNotSeen hrow hdec hobs
    · exact exists_not_denies_seenNotDeclared h hrow hobs hdec
    · -- its subject rows are those of the subjects that declare it
      have hdec : row.declared = true := ((exists_subject_row hrow).mp hsub).resolve_right hobs
      apply (exists_not_denies_inCodeNotSeen hrow hobs hdec).mpr
      apply (hscan row.provider ((coded_rows hrow).mp hcoded) ((declared_rows hrow).mp hdec)).resolve_left
      exact mt (observed_rows hrow).mpr hobs

/-- **When the two tables of a report agree.** -/
theorem consistent_iff (U : Unicode) (matchHost : MatchHost) (ids : List Identity)
    (scan : Option CodeScan) : Consistent U scan (build U matchHost ids scan) ↔
      EndpointsNamed U matchHost ids ∧ ScanNamed U matchHost ids scan := by
  constructor
  · intro h
    have hnamed := declared_consistent.mp h.declared
    exact ⟨hnamed, (gaps_consistent hnamed).mp h.gaps⟩
  · rintro ⟨hnamed, hscan⟩
    refine ⟨?_, declared_consistent.mpr hnamed, fun p => providers_consistent,
      (gaps_consistent hnamed).mpr hscan⟩
    intro row hrow s
    rw [mem_observedBy_rows hrow, seen_egress_iff (mem_rows hrow).1]

/-! ## An endpoint of a provider that is not named -/

/-- The graph of an agent that declares one provider, on a host of another, and reaches it there. -/
def proxiedGraph : Store :=
  ((Store.new fun _ => false).addIdentity
    { Identity.zero "agent://acme.example/bot" with
      type := identityAgent
      source := "passport"
      declaredModels := [⟨"anthropic", "", "api.openai.com:443"⟩] }).addEvent
    { (default : Event) with
      identityID := "agent://acme.example/bot"
      type := eventEgress
      resource := "api.openai.com:443" }

/-- **A provider row says that nobody declares what all of its subject rows say is declared**: the
declared host counts for the subject and not for the provider. -/
theorem endpoint_disagrees :
    ¬ ∀ (U : Unicode) (matchHost : MatchHost) (s : Store) (scan : Option CodeScan),
      Consistent U scan (build U matchHost s.identities scan) := by
  intro h
  have hgaps := (h Unicode.basic (matchLLMHost Unicode.basic) proxiedGraph none).gaps
  have hdenied : ∃ row ∈ (build Unicode.basic (matchLLMHost Unicode.basic) proxiedGraph.identities
      none).rows, Gap.seenNotDeclared ∈ row.gaps ∧
        (∃ sub ∈ (build Unicode.basic (matchLLMHost Unicode.basic) proxiedGraph.identities
          none).subjects, sub.provider = row.provider) ∧
        ∀ sub ∈ (build Unicode.basic (matchLLMHost Unicode.basic) proxiedGraph.identities
          none).subjects, sub.provider = row.provider → sub.denies .seenNotDeclared = true := by
    decide +kernel
  obtain ⟨row, hrow, hg, hsub, hall⟩ := hdenied
  obtain ⟨sub, hmem, hprov, hnot⟩ := hgaps row hrow _ hg hsub
  rw [hall sub hmem hprov] at hnot
  cases hnot

end Idryx.AiUsage
