import Idryx.AiUsage.Consistency
import Idryx.Lib.Totals

/-!
# The order the report is built in

`Build` ranges over Go maps, whose order is random, and over what a Reader returns. Here each loop over a
map takes its entries in an order of its own, and the two readings of the graph may differ in the order of
the identities, of their events and of their declared models.

* `Site`, `MapOrder`: the loops over maps, and an order for each; `buildIn`: `Build` in these orders;
* `Rearranged`: the same identities in another order, each with its lists in another order;
* `finish_row_eq`, `subjectRowsIn_eq`, `sourceRowsIn_eq`: the parts of the report, which do not change;
* **`buildIn_eq`**.
-/

namespace Idryx.AiUsage

/-! ## Orders -/

/-- The loops over a map, each time they run. -/
inductive Site where
  | codeProviders | rows | codeSites | busSources
  | declared (subject : GoString) | reached (subject : GoString) | providers (subject : GoString)
  | bus (subject provider : GoString) | hosts (subject provider : GoString)
  | covered (subject provider : GoString)

/-- An order of the entries of a map for each loop over one. -/
structure MapOrder where
  visit : {α : Type} → Site → List α → List α
  perm : ∀ {α : Type} (site : Site) (entries : List α), (visit site entries).Perm entries

/-- The scan, a loop over its providers to come. -/
def CodeScan.visit (O : MapOrder) (site : Site) (scan : CodeScan) : CodeScan :=
  { scan with
    providers := O.visit site scan.providers
    nodup := ((O.perm site scan.providers).map Prod.fst).nodup_iff.mpr scan.nodup }

section Definitions

variable (O : MapOrder) (U : Unicode) (matchHost : MatchHost) (scan : Option CodeScan) (id : Identity)
  (f : SubjectFacts) (p : GoString)

/-- `coveredByEndpoint`. -/
def coveredIn : Bool :=
  let hosts := Groups.members f.seen p
  if hosts.isEmpty then false else (O.visit (.covered id.id p) hosts).all fun h => f.hosts.contains h

/-- `busCounts`. -/
def busCountsIn : List BusCount :=
  ((O.visit (.bus id.id p) f.bus).map fun row => ⟨row.1, row.2⟩).insertionSort
    fun a b : BusCount => a.source ≤ b.source

/-- The row of an identity about no provider. -/
def bareRowIn : SubjectRow :=
  { subject := id.id
    kind := (classify id).1
    attribution := (classify id).2
    provider := ""
    declared := false
    models := []
    seen := if f.bus ≠ [] then .busOnly else .none
    via := []
    hosts := []
    bus := busCountsIn O id f ""
    code := none
    codeSites := 0
    gap := if hasDeclaration id then .declaresNoModels else .noDeclaration }

/-- The row of an identity about one provider. -/
def providerRowIn : SubjectRow :=
  let declared := (f.declared.map Prod.fst).contains p || coveredIn O id f p
  let reached := (f.seen.map Prod.fst).contains p
  let seen : Seen := if reached then .egress else if f.bus ≠ [] then .busOnly else .none
  let sites := (scan.map fun scan => scan.sites p).getD 0
  { subject := id.id
    kind := (classify id).1
    attribution := (classify id).2
    provider := p
    declared := declared
    models := dedupeSorted (((Keyed.lookup Prod.fst p f.declared).map Prod.snd).getD [])
    seen := seen
    via := if reached then [if isCaptured id.id then "ebpf" else "egress-log"] else []
    hosts := if reached then Strings.sort (O.visit (.hosts id.id p) (Groups.members f.seen p)) else []
    bus := busCountsIn O id f p
    code := some (if scan.isNone then .notScanned else if 0 < sites then .found else .notFound)
    codeSites := sites
    gap :=
      if declared && seen == .egress then .agrees
      else if declared && seen == .busOnly then .declaredBusOnly
      else if declared then .declaredNotSeen
      else if f.declared ≠ [] then .seenNotDeclared
      else .seenNoDeclaration }

/-- The providers of an identity, put into a map from the keys of two others. -/
def providersIn : List GoString :=
  (O.visit (.declared id.id) (f.declared.map Prod.fst) ++
    O.visit (.reached id.id) (f.seen.map Prod.fst)).foldl Groups.insertMember []

/-- The rows of one identity. -/
def subjectRowsIn : List SubjectRow :=
  let f := gather U matchHost id
  if !id.isAgent && f.declared.isEmpty && f.seen.isEmpty then []
  else if (providersIn O id f).isEmpty then [bareRowIn O id f]
  else (Strings.sort (O.visit (.providers id.id) (providersIn O id f))).map (providerRowIn O scan id f)

/-- What each source contributed. -/
def sourceRowsIn (t : Tally) : List SourceRow :=
  sourceRows U { t with busSources := O.visit .busSources t.busSources }
    (scan.map (CodeScan.visit O .codeSites))

/-- `buildSubjects`, over the identities the graph returns. -/
def buildSubjectsIn (ids : List Identity) : List SubjectRow × List SourceRow :=
  ((ids.flatMap (subjectRowsIn O U matchHost scan)).insertionSort SubjectRow.notAfter,
    sourceRowsIn O U scan
      (ids.foldl (Tally.identity U matchHost) ⟨0, 0, 0, 0, 0, 0, [], [], [], []⟩))

/-- `Build`, which reads the identities of the graph twice. -/
def buildIn (first second : List Identity) : Report where
  rows := ((O.visit .rows (collect U matchHost first (scan.map (CodeScan.visit O .codeProviders))).rows).map
    (Row.finish scan.isSome)).insertionSort fun a b => a.provider ≤ b.provider
  sources := (buildSubjectsIn O U matchHost scan second).2
  subjects := (buildSubjectsIn O U matchHost scan second).1
  codeScan := (scan.map fun scan => ⟨true, scan.root, scan.generatedAt, scan.tool⟩).getD
    ⟨false, "", "", ""⟩
  limits := baseLimits ++ (scan.map CodeScan.limits).getD []

end Definitions

/-! ## Rearrangements -/

/-- One identity, with its events and its declared models in another order. -/
structure Reordered (i j : Identity) : Prop where
  rest : { i with events := j.events, declaredModels := j.declaredModels } = j
  events : i.events.Perm j.events
  declaredModels : i.declaredModels.Perm j.declaredModels

/-- The same identities in another order, each reordered. -/
def Rearranged (ids ids' : List Identity) : Prop := ∃ js, ids.Perm js ∧ List.Forall₂ Reordered js ids'

theorem Reordered.symm {i j : Identity} (h : Reordered i j) : Reordered j i where
  rest := by rw [← h.rest]
  events := h.events.symm
  declaredModels := h.declaredModels.symm

theorem Reordered.eq {α : Type*} {i j : Identity} (h : Reordered i j) (f : Identity → α)
    (hf : ∀ (i : Identity) es ms, f { i with events := es, declaredModels := ms } = f i) : f i = f j :=
  (hf i j.events j.declaredModels).symm.trans (congrArg f h.rest)

theorem Reordered.hasDeclaration_eq {i j : Identity} (h : Reordered i j) :
    hasDeclaration i = hasDeclaration j := by
  have hempty : i.declaredModels.isEmpty = j.declaredModels.isEmpty := h.declaredModels.isEmpty_eq
  have hsource : i.source = j.source := h.eq Identity.source fun _ _ _ => rfl
  have hatt : i.attestation = j.attestation := h.eq Identity.attestation fun _ _ _ => rfl
  unfold hasDeclaration
  rw [hempty, hsource, hatt]

theorem Rearranged.map_perm {α : Type*} {ids ids' : List Identity} (h : Rearranged ids ids')
    {f g : Identity → α} (hfg : ∀ i j, Reordered i j → f i = g j) : (ids.map f).Perm (ids'.map g) := by
  obtain ⟨js, hperm, hall⟩ := h
  have heq : js.map f = ids'.map g := by
    clear hperm
    induction hall with
    | nil => rfl
    | cons hij _ ih => rw [List.map_cons, List.map_cons, hfg _ _ hij, ih]
  exact heq ▸ hperm.map f

/-! ## What one identity says -/

section Facts

variable {U : Unicode} {matchHost : MatchHost} {i j : Identity} {p x : GoString}

/-- A model that is declared for a provider, by its name. -/
def DeclaresModel (U : Unicode) (ms : List DeclaredModel) (p x : GoString) : Prop :=
  ∃ m ∈ ms, (normalize U m.provider ≠ "" ∧ normalize U m.provider = p) ∧
    Strings.trimSpace m.model ≠ "" ∧ Strings.trimSpace m.model = x

theorem mem_models_declare (f : SubjectFacts) (m : DeclaredModel) :
    x ∈ Groups.members (SubjectFacts.declare U f m).declared p ↔ x ∈ Groups.members f.declared p ∨
      (normalize U m.provider ≠ "" ∧ normalize U m.provider = p) ∧
        Strings.trimSpace m.model ≠ "" ∧ Strings.trimSpace m.model = x := by
  by_cases hblank : normalize U m.provider = ""
  · unfold SubjectFacts.declare
    simp [hblank]
  · have hdeclare : (SubjectFacts.declare U f m).declared =
        if Strings.trimSpace m.model ≠ "" then
          Keyed.upsert Prod.fst (normalize U m.provider)
            (normalize U m.provider, [Strings.trimSpace m.model])
            (fun row => (row.1, row.2 ++ [Strings.trimSpace m.model])) f.declared
        else Keyed.upsert Prod.fst (normalize U m.provider) (normalize U m.provider, []) (fun row => row)
          f.declared := by
      unfold SubjectFacts.declare
      simp only [if_neg hblank]
    rw [hdeclare]
    unfold Groups.members
    by_cases hp : p = normalize U m.provider
    · subst hp
      split_ifs with hname
      · rw [Keyed.lookup_upsert_self (by rfl) (by exact fun _ h => h)]
        cases Keyed.lookup Prod.fst (normalize U m.provider) f.declared <;> simp [hblank, hname, eq_comm]
      · rw [Keyed.lookup_upsert_self (by rfl) (by exact fun _ h => h)]
        cases Keyed.lookup Prod.fst (normalize U m.provider) f.declared <;> simp [hname]
    · simp only [Ne.symm hp, and_false, false_and, or_false]
      split_ifs
      · rw [Keyed.lookup_upsert_ne (by rfl) (by exact fun _ h => h) hp]
      · rw [Keyed.lookup_upsert_ne (by rfl) (by exact fun _ h => h) hp]

theorem mem_models_gather : x ∈ Groups.members (gather U matchHost i).declared p ↔
    DeclaresModel U i.declaredModels p x := by
  unfold gather
  rw [Loop.foldl_fixed (f := SubjectFacts.declared) fun f e _ => (observe_eq f e).1,
    Loop.foldl_iff (P := fun f : SubjectFacts => x ∈ Groups.members f.declared p) mem_models_declare]
  exact or_iff_right List.not_mem_nil

/-- The source of an event of the bus. -/
def busSource (e : Event) : Option GoString :=
  if e.type = eventEgress then none else if e.source ≠ "" then some e.source else none

theorem bus_gather : (gather U matchHost i).bus = Totals.counts (i.events.filterMap busSource) := by
  have hdeclare : ∀ (f : SubjectFacts) (m : DeclaredModel), (SubjectFacts.declare U f m).bus = f.bus := by
    intro f m
    unfold SubjectFacts.declare
    by_cases hblank : normalize U m.provider = ""
    · simp only [if_pos hblank]
    · simp only [if_neg hblank]
  have hobserve : ∀ (f : SubjectFacts) (e : Event), (SubjectFacts.observe U matchHost f e).bus =
      (busSource e).elim f.bus fun s => Totals.put (· + ·) f.bus s 1 := by
    intro f e
    unfold SubjectFacts.observe busSource
    split_ifs
    · cases matchHost e.resource with
      | none => rfl
      | some provider =>
        dsimp only
        split_ifs <;> rfl
    · rfl
    · rfl
  have hrun : ∀ (es : List Event) (f : SubjectFacts),
      (es.foldl (SubjectFacts.observe U matchHost) f).bus =
        (es.filterMap busSource).foldl (fun m s => Totals.put (· + ·) m s 1) f.bus := by
    intro es
    induction es with
    | nil => exact fun _ => rfl
    | cons e es ih =>
      intro f
      rw [List.foldl_cons, ih, hobserve, List.filterMap_cons]
      cases busSource e <;> rfl
  unfold gather
  rw [hrun, Loop.foldl_fixed (f := SubjectFacts.bus) fun f m _ => hdeclare f m]
  rfl

/-- What is gathered of two identities agrees up to order. -/
structure SameFacts (f g : SubjectFacts) : Prop where
  declared : ∀ p, p ∈ f.declared.map Prod.fst ↔ p ∈ g.declared.map Prod.fst
  models : ∀ p x, x ∈ Groups.members f.declared p ↔ x ∈ Groups.members g.declared p
  endpoints : ∀ h, h ∈ f.hosts ↔ h ∈ g.hosts
  reached : ∀ p, p ∈ f.seen.map Prod.fst ↔ p ∈ g.seen.map Prod.fst
  hosts : ∀ p, (Groups.members f.seen p).Perm (Groups.members g.seen p)
  bus : f.bus.Perm g.bus

theorem sameFacts_gather (h : Reordered i j) : SameFacts (gather U matchHost i) (gather U matchHost j) where
  declared p := by
    rw [mem_declared_gather, mem_declared_gather]
    unfold Declares
    simp only [h.declaredModels.mem_iff]
  models p x := by
    rw [mem_models_gather, mem_models_gather]
    unfold DeclaresModel
    simp only [h.declaredModels.mem_iff]
  endpoints x := by
    rw [mem_hosts_gather, mem_hosts_gather]
    unfold DeclaresHost
    simp only [h.declaredModels.mem_iff]
  reached p := by
    rw [seen_gather, seen_gather, Groups.mem_keys_ofPairs, Groups.mem_keys_ofPairs]
    simp only [(h.events.filterMap _).mem_iff]
  hosts p := by
    rw [seen_gather, seen_gather]
    refine (List.perm_ext_iff_of_nodup (Groups.nodup_members_ofPairs _ _)
      (Groups.nodup_members_ofPairs _ _)).mpr fun x => ?_
    rw [Groups.mem_members_ofPairs, Groups.mem_members_ofPairs, (h.events.filterMap _).mem_iff]
  bus := by
    rw [bus_gather, bus_gather]
    exact Totals.counts_perm (h.events.filterMap _)

end Facts

/-! ## The subject rows -/

section Subjects

variable {O : MapOrder} {U : Unicode} {matchHost : MatchHost} {scan : Option CodeScan}
  {i j : Identity} {f g : SubjectFacts} {p : GoString}

theorem SameFacts.declared_eq_nil (h : SameFacts f g) : f.declared = [] ↔ g.declared = [] := by
  simp only [← List.map_eq_nil_iff (f := Prod.fst), List.eq_nil_iff_forall_not_mem, h.declared]

theorem SameFacts.seen_eq_nil (h : SameFacts f g) : f.seen = [] ↔ g.seen = [] := by
  simp only [← List.map_eq_nil_iff (f := Prod.fst), List.eq_nil_iff_forall_not_mem, h.reached]

theorem SameFacts.coveredIn_eq (h : SameFacts f g) : coveredIn O i f p = g.coveredByEndpoint p := by
  have hempty : (Groups.members f.seen p).isEmpty = (Groups.members g.seen p).isEmpty :=
    (h.hosts p).isEmpty_eq
  have hall : ((O.visit (.covered i.id p) (Groups.members f.seen p)).all fun h => f.hosts.contains h) =
      (Groups.members g.seen p).all fun h => g.hosts.contains h := by
    rw [Bool.eq_iff_iff, List.all_eq_true, List.all_eq_true]
    simp only [(O.perm _ _).mem_iff, (h.hosts p).mem_iff, List.contains_iff_mem, h.endpoints]
  unfold coveredIn SubjectFacts.coveredByEndpoint
  dsimp only
  rw [hempty, hall]

theorem SameFacts.busCountsIn_eq (h : SameFacts f g) (hn : (f.bus.map Prod.fst).Nodup) :
    busCountsIn O i f p = busCounts g.bus := by
  have hperm : ((O.visit (.bus i.id p) f.bus).map fun row => (⟨row.1, row.2⟩ : BusCount)).Perm
      (g.bus.map fun row => ⟨row.1, row.2⟩) := ((O.perm _ _).trans h.bus).map _
  refine StableSort.insertionSort_perm_key BusCount.source hperm ?_
  rw [List.map_map]
  exact ((O.perm _ _).map Prod.fst).nodup_iff.mpr hn

theorem SameFacts.bus_eq_nil (h : SameFacts f g) : f.bus = [] ↔ g.bus = [] := by
  rw [← List.isEmpty_iff, h.bus.isEmpty_eq, List.isEmpty_iff]

theorem dedupeSorted_congr {xs ys : List GoString} (h : ∀ x, x ∈ xs ↔ x ∈ ys) :
    dedupeSorted xs = dedupeSorted ys := by
  refine Strings.sort_perm ((List.perm_ext_iff_of_nodup ?_ ?_).mpr fun x => ?_)
  · exact Groups.nodup_foldl_insertMember List.nodup_nil xs
  · exact Groups.nodup_foldl_insertMember List.nodup_nil ys
  · rw [Groups.mem_foldl_members, Groups.mem_foldl_members, h]

theorem SameFacts.bareRowIn_eq (h : SameFacts f g) (hn : (f.bus.map Prod.fst).Nodup)
    (hij : Reordered i j) : bareRowIn O i f = bareRow j g := by
  have hid : i.id = j.id := hij.eq Identity.id fun _ _ _ => rfl
  have hclass : classify i = classify j := hij.eq classify fun _ _ _ => rfl
  unfold bareRowIn bareRow
  rw [h.busCountsIn_eq hn, hid, hclass, hij.hasDeclaration_eq]
  simp only [ne_eq, h.bus_eq_nil]

theorem SameFacts.providerRowIn_eq (h : SameFacts f g) (hn : (f.bus.map Prod.fst).Nodup)
    (hij : Reordered i j) : providerRowIn O scan i f p = providerRow scan j g p := by
  have hid : i.id = j.id := hij.eq Identity.id fun _ _ _ => rfl
  have hclass : classify i = classify j := hij.eq classify fun _ _ _ => rfl
  have hdeclared : (f.declared.map Prod.fst).contains p = (g.declared.map Prod.fst).contains p := by
    rw [Bool.eq_iff_iff, List.contains_iff_mem, List.contains_iff_mem, h.declared]
  have hreached : (f.seen.map Prod.fst).contains p = (g.seen.map Prod.fst).contains p := by
    rw [Bool.eq_iff_iff, List.contains_iff_mem, List.contains_iff_mem, h.reached]
  have hmodels : dedupeSorted (((Keyed.lookup Prod.fst p f.declared).map Prod.snd).getD []) =
      dedupeSorted (((Keyed.lookup Prod.fst p g.declared).map Prod.snd).getD []) :=
    dedupeSorted_congr (h.models p)
  have hhosts : Strings.sort (O.visit (.hosts i.id p) (Groups.members f.seen p)) =
      Strings.sort (Groups.members g.seen p) := Strings.sort_perm ((O.perm _ _).trans (h.hosts p))
  unfold providerRowIn providerRow
  rw [h.busCountsIn_eq hn, h.coveredIn_eq, hdeclared, hreached, hmodels, hhosts, hid, hclass]
  simp only [ne_eq, h.bus_eq_nil, h.declared_eq_nil]

theorem SameFacts.providersIn_eq (h : SameFacts f g) :
    (∀ p, p ∈ providersIn O i f ↔ p ∈ g.providers) ∧ Strings.sort (O.visit (.providers i.id)
      (providersIn O i f)) = Strings.sort g.providers := by
  have hmem : ∀ p, p ∈ providersIn O i f ↔ p ∈ g.providers := by
    intro p
    unfold providersIn SubjectFacts.providers
    simp only [Groups.mem_foldl_members, List.mem_append, (O.perm _ _).mem_iff, h.declared, h.reached]
  refine ⟨hmem, Strings.sort_perm ((O.perm _ _).trans ((List.perm_ext_iff_of_nodup ?_ ?_).mpr hmem))⟩
  · exact Groups.nodup_foldl_insertMember List.nodup_nil _
  · exact Groups.nodup_foldl_insertMember List.nodup_nil _

/-- **The rows of one identity** do not change. -/
theorem subjectRowsIn_eq (hij : Reordered i j) :
    subjectRowsIn O U matchHost scan i = subjectRows U matchHost scan j := by
  have h : SameFacts (gather U matchHost i) (gather U matchHost j) := sameFacts_gather hij
  have hn : ((gather U matchHost i).bus.map Prod.fst).Nodup := by
    rw [bus_gather]
    exact Totals.nodup_counts _
  have hagent : i.isAgent = j.isAgent := hij.eq Identity.isAgent fun _ _ _ => rfl
  obtain ⟨hmem, hsort⟩ := h.providersIn_eq (O := O) (i := i)
  have hempty : (providersIn O i (gather U matchHost i)).isEmpty =
      (gather U matchHost j).providers.isEmpty := by
    rw [Bool.eq_iff_iff, List.isEmpty_iff, List.isEmpty_iff, List.eq_nil_iff_forall_not_mem,
      List.eq_nil_iff_forall_not_mem]
    simp only [hmem]
  have hdeclared : (gather U matchHost i).declared.isEmpty = (gather U matchHost j).declared.isEmpty := by
    rw [Bool.eq_iff_iff, List.isEmpty_iff, List.isEmpty_iff, h.declared_eq_nil]
  have hseen : (gather U matchHost i).seen.isEmpty = (gather U matchHost j).seen.isEmpty := by
    rw [Bool.eq_iff_iff, List.isEmpty_iff, List.isEmpty_iff, h.seen_eq_nil]
  have hrow : providerRowIn O scan i (gather U matchHost i) =
      providerRow scan j (gather U matchHost j) := funext fun p => h.providerRowIn_eq hn hij
  unfold subjectRowsIn subjectRows
  dsimp only
  rw [hagent, hdeclared, hseen, hempty, hsort, hrow, h.bareRowIn_eq hn hij]

theorem subjectRows_injective {a b : SubjectRow} (ha : a ∈ subjectRows U matchHost scan i)
    (hb : b ∈ subjectRows U matchHost scan i) (h : a.provider = b.provider) : a = b := by
  unfold subjectRows at ha hb
  dsimp only at ha hb
  split_ifs at ha hb
  · cases ha
  · rw [List.mem_singleton.mp ha, List.mem_singleton.mp hb]
  · obtain ⟨p, -, rfl⟩ := List.mem_map.mp ha
    obtain ⟨q, -, rfl⟩ := List.mem_map.mp hb
    have hpq : p = q := h
    rw [hpq]

instance : IsTrans SubjectRow SubjectRow.notAfter :=
  have : IsTrans SubjectRow fun a b => a.provider ≤ b.provider := ⟨fun _ _ _ => trans_of (· ≤ ·)⟩
  inferInstanceAs (IsTrans SubjectRow
    (StableSort.orderBy (fun a b => a.provider ≤ b.provider) SubjectRow.subject))

instance : Std.Total SubjectRow.notAfter :=
  have : Std.Total fun a b : SubjectRow => a.provider ≤ b.provider :=
    ⟨fun a b => Std.Total.total a.provider b.provider⟩
  inferInstanceAs (Std.Total
    (StableSort.orderBy (fun a b : SubjectRow => a.provider ≤ b.provider) SubjectRow.subject))

/-- **The subject rows** do not change: no two of them are about one subject and one provider. -/
theorem subjectsIn_eq {ids ids' : List Identity} (hn : (ids.map Identity.id).Nodup)
    (h : Rearranged ids ids') : (buildSubjectsIn O U matchHost scan ids').1 =
      (buildSubjects U matchHost ids scan).1 := by
  have hperm : (ids.flatMap (subjectRows U matchHost scan)).Perm
      (ids'.flatMap (subjectRowsIn O U matchHost scan)) := by
    rw [List.flatMap_def, List.flatMap_def]
    exact (h.map_perm fun _ _ hij => (subjectRowsIn_eq hij.symm).symm).flatten
  refine (StableSort.insertionSort_perm SubjectRow.notAfter hperm ?_).symm
  intro a ha b hb hab hba
  obtain ⟨x, hx, hax⟩ := List.mem_flatMap.mp ha
  obtain ⟨y, hy, hby⟩ := List.mem_flatMap.mp hb
  have hkeys : a.subject = b.subject ∧ a.provider = b.provider := by
    rcases hab with hlt | ⟨heq, hle⟩
    · rcases hba with hgt | ⟨heq, -⟩
      · exact absurd hgt (List.lt_asymm hlt)
      · exact absurd (heq ▸ hlt) (List.lt_irrefl _)
    · rcases hba with hgt | ⟨-, hge⟩
      · exact absurd (heq ▸ hgt) (List.lt_irrefl _)
      · exact ⟨heq, antisymm_of (· ≤ ·) hle hge⟩
  have hxy : x = y := by
    refine List.inj_on_of_nodup_map hn hx hy ?_
    rw [← subject_of_mem hax, ← subject_of_mem hby, hkeys.1]
  exact subjectRows_injective hax (hxy ▸ hby) hkeys.2

end Subjects

/-! ## The sources -/

section Sources

variable {O : MapOrder} {U : Unicode} {matchHost : MatchHost} {scan : Option CodeScan}
  {ids ids' : List Identity}

theorem tally_sum {f : Tally → ℕ} {w : Identity → ℕ} (h : Rearranged ids ids')
    (hstep : ∀ t id, f (Tally.identity U matchHost t id) = f t + w id)
    (hw : ∀ i j, Reordered i j → w i = w j) (t : Tally) :
    f (ids.foldl (Tally.identity U matchHost) t) = f (ids'.foldl (Tally.identity U matchHost) t) := by
  rw [Loop.foldl_sum hstep, Loop.foldl_sum hstep, (h.map_perm hw).sum_eq]

theorem tally_events {f : Tally → ℕ} {g : GoString → Event → ℕ} (h : Rearranged ids ids')
    (hevent : ∀ id t e, f (Tally.event matchHost id t e) = f t + g id e)
    (hdeclare : ∀ t d ms, f { t with declaredSubjects := d, modelSubjects := ms } = f t) (t : Tally) :
    f (ids.foldl (Tally.identity U matchHost) t) = f (ids'.foldl (Tally.identity U matchHost) t) := by
  refine tally_sum h (w := fun id => (id.events.map (g id.id)).sum) (fun t id => ?_) (fun i j hij => ?_) t
  · unfold Tally.identity
    dsimp only
    rw [Loop.foldl_sum (hevent id.id)]
    split_ifs
    · rw [hdeclare]
    · rw [hdeclare]
    · rfl
  · have hid : i.id = j.id := hij.eq Identity.id fun _ _ _ => rfl
    rw [hid]
    exact (hij.events.map _).sum_eq

theorem Rearranged.exists_iff (h : Rearranged ids ids') {P : Identity → Prop}
    (hP : ∀ i j, Reordered i j → (P i ↔ P j)) : (∃ id ∈ ids, P id) ↔ ∃ id ∈ ids', P id := by
  have hmem := (h.map_perm (f := P) (g := P) fun i j hij => propext (hP i j hij)).mem_iff (a := True)
  simpa [List.mem_map] using hmem

theorem tally_set {f : Tally → List GoString} {g : GoString → Event → Option GoString}
    (h : Rearranged ids ids') (hevent : ∀ id t e, f (Tally.event matchHost id t e) =
      (g id e).elim (f t) (Groups.insertMember (f t)))
    (hdeclare : ∀ t d ms, f { t with declaredSubjects := d, modelSubjects := ms } = f t) {t : Tally}
    (ht : f t = []) : (f (ids.foldl (Tally.identity U matchHost) t)).Perm
      (f (ids'.foldl (Tally.identity U matchHost) t)) := by
  have hstart : ∀ (t : Tally) (id : Identity), f (if hasDeclaration id then
      { t with
        declaredSubjects := t.declaredSubjects + 1
        modelSubjects := if (gather U matchHost id).declared ≠ [] then t.modelSubjects + 1
          else t.modelSubjects }
      else t) = f t := by
    intro t id
    split_ifs
    · rw [hdeclare]
    · rw [hdeclare]
    · rfl
  have hmem : ∀ (ids : List Identity) x, x ∈ f (ids.foldl (Tally.identity U matchHost) t) ↔
      ∃ id ∈ ids, ∃ e ∈ id.events, g id.id e = some x := by
    intro ids x
    have hone : ∀ id t e, x ∈ f (Tally.event matchHost id t e) ↔ x ∈ f t ∨ g id e = some x := by
      intro id t e
      rw [hevent]
      cases g id e with
      | none => simp
      | some y => simp [Groups.mem_insertMember, eq_comm]
    have hidentity : ∀ t id, x ∈ f (Tally.identity U matchHost t id) ↔
        x ∈ f t ∨ ∃ e ∈ id.events, g id.id e = some x := by
      intro t id
      unfold Tally.identity
      dsimp only
      rw [Loop.foldl_iff (P := fun t : Tally => x ∈ f t) (hone id.id), hstart]
    rw [Loop.foldl_iff (P := fun t : Tally => x ∈ f t) hidentity, ht]
    exact or_iff_right List.not_mem_nil
  have hnodup : ∀ ids : List Identity, (f (ids.foldl (Tally.identity U matchHost) t)).Nodup := by
    intro ids
    refine List.foldlRecOn (motive := fun t : Tally => (f t).Nodup) ids _ (ht ▸ List.nodup_nil) ?_
    intro t hn id _
    unfold Tally.identity
    refine List.foldlRecOn (motive := fun t : Tally => (f t).Nodup) id.events _ ?_ ?_
    · exact (hstart t id).symm ▸ hn
    · intro t hn e _
      rw [hevent]
      cases g id.id e with
      | none => exact hn
      | some y => exact Groups.nodup_insertMember hn y
  refine (List.perm_ext_iff_of_nodup (hnodup ids) (hnodup ids')).mpr fun x => ?_
  rw [hmem, hmem]
  refine h.exists_iff fun i j hij => ?_
  have hid : i.id = j.id := hij.eq Identity.id fun _ _ _ => rfl
  simp only [hid, hij.events.mem_iff]

theorem codeSource_visit (O : MapOrder) (site : Site) (scan : Option CodeScan) :
    codeSource (scan.map (CodeScan.visit O site)) = codeSource scan := by
  cases scan with
  | none => rfl
  | some scan =>
    have hperm := O.perm site scan.providers
    have hsites : (O.visit site scan.providers).foldl (fun sites row => sites + row.2.sites) 0 =
        scan.providers.foldl (fun sites row => sites + row.2.sites) 0 := by
      refine hperm.foldl_eq' (fun x _ y _ n => ?_) 0
      omega
    simp only [Option.map_some, codeSource, CodeScan.visit, hsites, hperm.length_eq]

/-- The tallies agree, the sets up to order. -/
structure SameTally (t u : Tally) : Prop where
  declaredSubjects : t.declaredSubjects = u.declaredSubjects
  modelSubjects : t.modelSubjects = u.modelSubjects
  busEvents : t.busEvents = u.busEvents
  egressEvents : t.egressEvents = u.egressEvents
  ebpfEvents : t.ebpfEvents = u.ebpfEvents
  providerFlows : t.providerFlows = u.providerFlows
  busSubjects : t.busSubjects.Perm u.busSubjects
  egressSubjects : t.egressSubjects.Perm u.egressSubjects
  ebpfSubjects : t.ebpfSubjects.Perm u.ebpfSubjects
  busSources : t.busSources.Perm u.busSources

theorem subjects_event (id : GoString) (t : Tally) (e : Event) :
    (Tally.event matchHost id t e).declaredSubjects = t.declaredSubjects ∧
      (Tally.event matchHost id t e).modelSubjects = t.modelSubjects := by
  unfold Tally.event
  split_ifs <;> exact ⟨rfl, rfl⟩

theorem sameTally (U : Unicode) (matchHost : MatchHost) (h : Rearranged ids ids') :
    SameTally (ids.foldl (Tally.identity U matchHost) ⟨0, 0, 0, 0, 0, 0, [], [], [], []⟩)
      (ids'.foldl (Tally.identity U matchHost) ⟨0, 0, 0, 0, 0, 0, [], [], [], []⟩) where
  declaredSubjects := by
    refine tally_sum (f := Tally.declaredSubjects) (w := fun id => if hasDeclaration id then 1 else 0) h
      (fun t id => ?_) (fun i j hij => ?_) _
    · unfold Tally.identity
      rw [Loop.foldl_fixed (f := Tally.declaredSubjects) fun t e _ => (subjects_event id.id t e).1]
      split_ifs <;> rfl
    · rw [hij.hasDeclaration_eq]
  modelSubjects := by
    refine tally_sum (f := Tally.modelSubjects)
      (w := fun id => if hasDeclaration id then
        if (gather U matchHost id).declared ≠ [] then 1 else 0 else 0) h
      (fun t id => ?_) (fun i j hij => ?_) _
    · unfold Tally.identity
      rw [Loop.foldl_fixed (f := Tally.modelSubjects) fun t e _ => (subjects_event id.id t e).2]
      split_ifs <;> rfl
    · simp only [hij.hasDeclaration_eq, ne_eq, (sameFacts_gather hij).declared_eq_nil]
  busEvents := by
    refine tally_events (f := Tally.busEvents)
      (g := fun _ e => if e.type = eventEgress then 0 else if e.source ≠ "" then 1 else 0) h
      (fun id t e => ?_) (fun _ _ _ => rfl) _
    unfold Tally.event
    split_ifs <;> rfl
  egressEvents := by
    refine tally_events (f := Tally.egressEvents) (g := fun _ e => if e.type = eventEgress then 1 else 0) h
      (fun id t e => ?_) (fun _ _ _ => rfl) _
    unfold Tally.event
    split_ifs <;> rfl
  ebpfEvents := by
    refine tally_events (f := Tally.ebpfEvents)
      (g := fun id e => if e.type = eventEgress then if isCaptured id then 1 else 0 else 0) h
      (fun id t e => ?_) (fun _ _ _ => rfl) _
    unfold Tally.event
    split_ifs <;> simp_all
  providerFlows := by
    refine tally_events (f := Tally.providerFlows)
      (g := fun _ e => if e.type = eventEgress then if (matchHost e.resource).isSome then 1 else 0 else 0) h
      (fun id t e => ?_) (fun _ _ _ => rfl) _
    unfold Tally.event
    split_ifs <;> simp_all
  busSubjects := by
    refine tally_set (f := Tally.busSubjects)
      (g := fun id e => if e.type = eventEgress then none else if e.source ≠ "" then some id else none) h
      (fun id t e => ?_) (fun _ _ _ => rfl) rfl
    unfold Tally.event
    split_ifs <;> rfl
  egressSubjects := by
    refine tally_set (f := Tally.egressSubjects)
      (g := fun id e => if e.type = eventEgress then some id else none) h
      (fun id t e => ?_) (fun _ _ _ => rfl) rfl
    unfold Tally.event
    split_ifs <;> rfl
  ebpfSubjects := by
    refine tally_set (f := Tally.ebpfSubjects)
      (g := fun id e => if e.type = eventEgress then if isCaptured id then some id else none else none) h
      (fun id t e => ?_) (fun _ _ _ => rfl) rfl
    unfold Tally.event
    split_ifs <;> simp_all
  busSources := by
    refine tally_set (f := Tally.busSources)
      (g := fun _ e => if e.type = eventEgress then none
        else if e.source ≠ "" then some e.source else none) h
      (fun id t e => ?_) (fun _ _ _ => rfl) rfl
    unfold Tally.event
    split_ifs <;> rfl

/-- **The sources** do not change. -/
theorem sourcesIn_eq (h : Rearranged ids ids') : (buildSubjectsIn O U matchHost scan ids').2 =
    (buildSubjects U matchHost ids scan).2 := by
  have ht := sameTally U matchHost h
  generalize hu : ids'.foldl (Tally.identity U matchHost) ⟨0, 0, 0, 0, 0, 0, [], [], [], []⟩ = u at ht
  have hnames : listNames U (O.visit .busSources u.busSources) = listNames U
      (ids.foldl (Tally.identity U matchHost) ⟨0, 0, 0, 0, 0, 0, [], [], [], []⟩).busSources := by
    unfold listNames
    rw [Strings.sort_perm ((O.perm _ _).trans ht.busSources.symm)]
  show sourceRowsIn O U scan (ids'.foldl _ _) = sourceRows U _ scan
  rw [hu]
  unfold sourceRowsIn sourceRows
  dsimp only
  rw [codeSource_visit, hnames, ht.declaredSubjects, ht.modelSubjects, ht.busEvents, ht.egressEvents,
    ht.ebpfEvents, ht.providerFlows, ht.busSubjects.length_eq, ht.egressSubjects.length_eq,
    ht.ebpfSubjects.length_eq]

end Sources

/-! ## The provider rows -/

section Providers

variable {O : MapOrder} {U : Unicode} {matchHost : MatchHost} {scan scan' : Option CodeScan}
  {ids ids' : List Identity} {p x : GoString}

namespace Rows

theorem nodup_part {π : Row → List GoString} {rows : List Row} (h : ∀ p, (π (row rows p)).Nodup)
    {q : GoString} {f : Row → Row} (hf : ∀ r, (f r).provider = r.provider) (hπ : ∀ r, π (f r) = π r)
    (p : GoString) : (π (row (update rows q f) p)).Nodup := by
  rw [part_update π rows q hf hπ]
  exact h p

theorem nodup_part_concat {π : Row → List GoString} {rows : List Row} (h : ∀ p, (π (row rows p)).Nodup)
    {q id : GoString} {f : Row → Row} (hf : ∀ r, (f r).provider = r.provider) (hπ : ∀ r, π (f r) = π r ++ [id])
    (hid : id ∉ π (row rows q)) (p : GoString) : (π (row (update rows q f) p)).Nodup := by
  rw [row_update rows q hf]
  split_ifs
  · rw [hπ, ← List.concat_eq_append]
    exact (h q).concat hid
  · exact h p

instance (p q : GoString) : Decidable (Names U p q) := inferInstanceAs (Decidable (_ ∧ _))

theorem row_addCode (st : Rows) (entry : GoString × CodeScanEntry) :
    (row (addCode U st entry).rows p).codeSites =
        (row st.rows p).codeSites + (if Names U p entry.1 then entry.2.sites else 0) ∧
      (row (addCode U st entry).rows p).codeLabels =
        (row st.rows p).codeLabels ++ if Names U p entry.1 then entry.2.labels else [] := by
  unfold addCode
  by_cases hblank : normalize U entry.1 = ""
  · simp [hblank, Names]
  · simp only [if_neg hblank, names_iff hblank]
    rw [row_update _ _ (by exact fun _ => rfl)]
    split_ifs with hp
    · rw [hp]
      exact ⟨rfl, rfl⟩
    · simp

/-- No identity is twice in a column. -/
structure Once (st : Rows) : Prop where
  marked : Marked st
  declared : ∀ p, (row st.rows p).declaredBy.Nodup
  observed : ∀ p, (row st.rows p).observedBy.Nodup

theorem once_addDeclared {st : Rows} (h : Once st) (id provider : GoString) :
    Once (addDeclared U id st provider) := by
  refine ⟨marked_addDeclared h.marked id provider, fun p => ?_, fun p => ?_⟩
  · unfold addDeclared
    dsimp only
    split_ifs with hblank hmem
    · exact h.declared p
    · dsimp only
      refine nodup_part (π := Row.declaredBy) h.declared ?_ ?_ p <;> exact fun _ => rfl
    · dsimp only
      refine nodup_part_concat (π := Row.declaredBy) h.declared ?_ ?_ (mt (h.marked.declared _ _).mp hmem) p <;>
        exact fun _ => rfl
  · unfold addDeclared
    dsimp only
    split_ifs with hblank hmem
    · exact h.observed p
    · dsimp only
      refine nodup_part (π := Row.observedBy) h.observed ?_ ?_ p <;> exact fun _ => rfl
    · dsimp only
      refine nodup_part (π := Row.observedBy) h.observed ?_ ?_ p <;> exact fun _ => rfl

theorem once_addObserved {st : Rows} (h : Once st) (id provider : GoString) :
    Once (addObserved U id st provider) := by
  refine ⟨marked_addObserved h.marked id provider, fun p => ?_, fun p => ?_⟩
  · unfold addObserved
    dsimp only
    split_ifs with hblank hmem
    · exact h.declared p
    · dsimp only
      refine nodup_part (π := Row.declaredBy) h.declared ?_ ?_ p <;> exact fun _ => rfl
    · dsimp only
      refine nodup_part (π := Row.declaredBy) h.declared ?_ ?_ p <;> exact fun _ => rfl
  · unfold addObserved
    dsimp only
    split_ifs with hblank hmem
    · exact h.observed p
    · dsimp only
      refine nodup_part (π := Row.observedBy) h.observed ?_ ?_ p <;> exact fun _ => rfl
    · dsimp only
      refine nodup_part_concat (π := Row.observedBy) h.observed ?_ ?_ (mt (h.marked.observed _ _).mp hmem) p <;>
        exact fun _ => rfl

theorem once_addCode {st : Rows} (h : Once st) (entry : GoString × CodeScanEntry) :
    Once (addCode U st entry) := by
  refine ⟨marked_addCode h.marked entry, fun p => ?_, fun p => ?_⟩
  · unfold addCode
    dsimp only
    split_ifs
    · exact h.declared p
    · dsimp only
      refine nodup_part (π := Row.declaredBy) h.declared ?_ ?_ p <;> exact fun _ => rfl
  · unfold addCode
    dsimp only
    split_ifs
    · exact h.observed p
    · dsimp only
      refine nodup_part (π := Row.observedBy) h.observed ?_ ?_ p <;> exact fun _ => rfl

theorem once_collect (U : Unicode) (matchHost : MatchHost) (ids : List Identity)
    (scan : Option CodeScan) : Once (collect U matchHost ids scan) := by
  refine List.foldlRecOn (motive := Once) _ _ ?_ fun _ h entry _ => once_addCode h entry
  refine List.foldlRecOn (motive := Once) _ _
    ⟨marked_empty, fun _ => List.nodup_nil, fun _ => List.nodup_nil⟩ fun st h id _ => ?_
  unfold identity
  refine List.foldlRecOn (motive := Once) _ _ ?_ fun _ h _ _ => once_addObserved h _ _
  exact List.foldlRecOn (motive := Once) _ _ h fun _ h _ _ => once_addDeclared h _ _

theorem provider_row (rows : List Row) (p : GoString) : (row rows p).provider = p := by
  unfold row
  cases h : Keyed.lookup Row.provider p rows with
  | none => rfl
  | some r => exact Keyed.lookup_key h

end Rows

theorem code_collect : (Rows.row (collect U matchHost ids scan).rows p).codeSites =
      (((scan.map CodeScan.providers).getD []).map fun entry =>
        if Names U p entry.1 then entry.2.sites else 0).sum ∧
    (Rows.row (collect U matchHost ids scan).rows p).codeLabels =
      ((scan.map CodeScan.providers).getD []).flatMap fun entry =>
        if Names U p entry.1 then entry.2.labels else [] := by
  have hsites : (Rows.row (ids.foldl (Rows.identity U matchHost) ⟨[], [], []⟩).rows p).codeSites = 0 :=
    Loop.foldl_fixed (f := fun st : Rows => (Rows.row st.rows p).codeSites)
      (fun st id _ => Rows.part_identity Row.codeSites (fun _ _ => rfl) (fun _ _ => rfl) st id) _
  have hlabels : (Rows.row (ids.foldl (Rows.identity U matchHost) ⟨[], [], []⟩).rows p).codeLabels = [] :=
    Loop.foldl_fixed (f := fun st : Rows => (Rows.row st.rows p).codeLabels)
      (fun st id _ => Rows.part_identity Row.codeLabels (fun _ _ => rfl) (fun _ _ => rfl) st id) _
  unfold collect
  rw [Loop.foldl_sum (f := fun st : Rows => (Rows.row st.rows p).codeSites)
      fun st entry => (Rows.row_addCode st entry).1,
    Loop.foldl_append (f := fun st : Rows => (Rows.row st.rows p).codeLabels)
      fun st entry => (Rows.row_addCode st entry).2, hsites, hlabels]
  exact ⟨Nat.zero_add _, List.nil_append _⟩

theorem perm_visit (O : MapOrder) (site : Site) (scan : Option CodeScan) :
    ((((scan.map (CodeScan.visit O site)).map CodeScan.providers).getD []).Perm
      ((scan.map CodeScan.providers).getD [])) := by
  cases scan with
  | none => exact List.Perm.refl _
  | some scan => exact O.perm site scan.providers

/-- **A provider's row as it is reported** does not change. -/
theorem finish_row_eq (h : Rearranged ids ids') (site : Site) (scanned : Bool) :
    (Rows.row (collect U matchHost ids' (scan.map (CodeScan.visit O site))).rows p).finish scanned =
      (Rows.row (collect U matchHost ids scan).rows p).finish scanned := by
  have hscan := perm_visit O site scan
  have once := Rows.once_collect U matchHost ids scan
  have once' := Rows.once_collect U matchHost ids' (scan.map (CodeScan.visit O site))
  have hid : ∀ i j, Reordered i j → i.id = j.id := fun i j hij => hij.eq Identity.id fun _ _ _ => rfl
  have hdeclared : Strings.sort
      (Rows.row (collect U matchHost ids' (scan.map (CodeScan.visit O site))).rows p).declaredBy =
        Strings.sort (Rows.row (collect U matchHost ids scan).rows p).declaredBy := by
    refine Strings.sort_perm ((List.perm_ext_iff_of_nodup (once'.declared p) (once.declared p)).mpr ?_)
    intro s
    rw [mem_declaredBy, mem_declaredBy]
    refine (h.exists_iff fun i j hij => ?_).symm
    unfold Declares
    simp only [hid i j hij, hij.declaredModels.mem_iff]
  have hobserved : Strings.sort
      (Rows.row (collect U matchHost ids' (scan.map (CodeScan.visit O site))).rows p).observedBy =
        Strings.sort (Rows.row (collect U matchHost ids scan).rows p).observedBy := by
    refine Strings.sort_perm ((List.perm_ext_iff_of_nodup (once'.observed p) (once.observed p)).mpr ?_)
    intro s
    rw [mem_observedBy, mem_observedBy]
    refine (h.exists_iff fun i j hij => ?_).symm
    unfold Sighted
    simp only [hid i j hij, (hij.events.filterMap _).mem_iff]
  have hsites : (Rows.row (collect U matchHost ids' (scan.map (CodeScan.visit O site))).rows p).codeSites =
      (Rows.row (collect U matchHost ids scan).rows p).codeSites := by
    rw [code_collect.1, code_collect.1]
    exact (hscan.map _).sum_eq
  have hlabels : dedupeSorted
      (Rows.row (collect U matchHost ids' (scan.map (CodeScan.visit O site))).rows p).codeLabels =
        dedupeSorted (Rows.row (collect U matchHost ids scan).rows p).codeLabels := by
    refine dedupeSorted_congr fun x => ?_
    rw [code_collect.2, code_collect.2, List.mem_flatMap, List.mem_flatMap]
    simp only [hscan.mem_iff]
  unfold Row.finish providerGaps Row.declared Row.observed Row.coded
  dsimp only
  rw [hdeclared, hobserved, hsites, hlabels, Rows.provider_row, Rows.provider_row]

theorem map_finish (h : Rows.Once (collect U matchHost ids scan)) (scanned : Bool) :
    (collect U matchHost ids scan).rows.map (Row.finish scanned) =
      ((collect U matchHost ids scan).rows.map Row.provider).map fun p =>
        (Rows.row (collect U matchHost ids scan).rows p).finish scanned := by
  rw [List.map_map]
  refine List.map_congr_left fun r hr => ?_
  show r.finish scanned = ((Keyed.lookup Row.provider r.provider _).getD _).finish scanned
  rw [Keyed.lookup_of_mem h.marked.nodup hr]
  rfl

/-- **The provider rows** do not change. -/
theorem rowsIn_eq (h : Rearranged ids ids') : (buildIn O U matchHost scan ids' ids').rows =
    (build U matchHost ids scan).rows := by
  have once := Rows.once_collect U matchHost ids scan
  have once' := Rows.once_collect U matchHost ids' (scan.map (CodeScan.visit O .codeProviders))
  have hkeys : ((collect U matchHost ids' (scan.map (CodeScan.visit O .codeProviders))).rows.map
      Row.provider).Perm ((collect U matchHost ids scan).rows.map Row.provider) := by
    refine (List.perm_ext_iff_of_nodup once'.marked.nodup once.marked.nodup).mpr fun p => ?_
    rw [mem_providers_collect, mem_providers_collect]
    refine or_congr (h.exists_iff fun i j hij => ?_).symm ?_
    · simp only [hij.declaredModels.mem_iff, hij.events.mem_iff]
    · simp only [(perm_visit O .codeProviders scan).mem_iff]
  have hperm : ((O.visit .rows (collect U matchHost ids'
      (scan.map (CodeScan.visit O .codeProviders))).rows).map (Row.finish scan.isSome)).Perm
        ((collect U matchHost ids scan).rows.map (Row.finish scan.isSome)) := by
    refine ((O.perm _ _).map _).trans ?_
    rw [map_finish once', map_finish once]
    simp only [finish_row_eq h]
    exact hkeys.map _
  refine StableSort.insertionSort_perm_key Row.provider hperm ?_
  refine ((hperm.map Row.provider).nodup_iff).mpr ?_
  rw [List.map_map]
  exact once.marked.nodup

end Providers

/-! ## The report -/

/-- **The report does not depend on order**: not on that in which each reading of the graph returns the
identities, their events and their declared models, and not on that of any loop over a map. -/
theorem buildIn_eq (O : MapOrder) (U : Unicode) (matchHost : MatchHost) (scan : Option CodeScan)
    (s : Store) {first second : List Identity} (h₁ : Rearranged s.identities first)
    (h₂ : Rearranged s.identities second) :
    buildIn O U matchHost scan first second = build U matchHost s.identities scan := by
  have hrows : (buildIn O U matchHost scan first first).rows =
      (build U matchHost s.identities scan).rows := rowsIn_eq h₁
  have hsubjects : (buildSubjectsIn O U matchHost scan second).1 =
      (buildSubjects U matchHost s.identities scan).1 := subjectsIn_eq s.nodup_identities h₂
  have hsources : (buildSubjectsIn O U matchHost scan second).2 =
      (buildSubjects U matchHost s.identities scan).2 := sourcesIn_eq h₂
  unfold buildIn build at hrows ⊢
  dsimp only at hrows
  rw [hrows, hsubjects, hsources]

/-- Entries in the opposite order. -/
def MapOrder.reversed : MapOrder := ⟨fun _ entries => entries.reverse, fun _ => List.reverse_perm⟩

/-- Two agents, the first with two declared models and two events. -/
def pairGraph : Store :=
  let model : GoString → DeclaredModel := fun provider =>
    { provider := provider, model := "m", endpoint := "" }
  let event : GoString → Event := fun resource =>
    { (default : Event) with identityID := "agent://a", type := eventEgress, resource := resource }
  ((((Store.new fun _ => false).addIdentity { Identity.zero "agent://a" with
    type := identityAgent, declaredModels := [model "openai", model "cohere"] }).addIdentity
      { Identity.zero "agent://b" with type := identityAgent }).addEvent
        (event "api.openai.com")).addEvent (event "api.anthropic.com")

theorem buildIn_eq_pairGraph :
    buildIn .reversed .basic (matchLLMHost .basic) none
        (pairGraph.identities.reverse.map fun i => { i with events := i.events.reverse })
        (pairGraph.identities.map fun i => { i with declaredModels := i.declaredModels.reverse }) =
      build .basic (matchLLMHost .basic) pairGraph.identities none := by
  refine buildIn_eq .reversed .basic (matchLLMHost .basic) none pairGraph ?_ ?_
  · refine ⟨pairGraph.identities.reverse, (List.reverse_perm _).symm, ?_⟩
    refine List.forall₂_map_right_iff.mpr (List.forall₂_same.mpr fun i _ => ⟨rfl, ?_, .refl _⟩)
    exact (List.reverse_perm _).symm
  · refine ⟨pairGraph.identities, .refl _, ?_⟩
    refine List.forall₂_map_right_iff.mpr (List.forall₂_same.mpr fun i _ => ⟨rfl, .refl _, ?_⟩)
    exact (List.reverse_perm _).symm

end Idryx.AiUsage
