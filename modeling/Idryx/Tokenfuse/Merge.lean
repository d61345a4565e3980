import Idryx.Tokenfuse.Load
import Idryx.Lib.Totals
import Idryx.Go.Search

/-!
# A load is the fold of its files

What `Report.merge` and `LoadWith` of `internal/ingest/tokenfuse` make of the reports of several files.

* `Report.eventsOf`, `Report.readOf`, `Report.typeCount`, `Report.unreadSources`;
* `Tallied`: the report of one file counts its events; `tallied_scan`;
* `Merges`: each field of a load by the fields of its files;
* **`merges_loadWith`**: every load of readable files merges them, in the order of their paths.
-/

namespace Idryx.Tokenfuse

/-- `UnreadSources`: the sources with an event and none that is read. -/
def Report.unreadSources (r : Report) : List GoString :=
  Strings.sort ((r.sources.filter fun p => 0 < p.2.events && p.2.read == 0).map Prod.fst)

/-- The events counted under a source. -/
def Report.eventsOf (r : Report) (s : GoString) : ℕ := Totals.amount SourceTally.events r.sources s

/-- Those of a type a detector reads. -/
def Report.readOf (r : Report) (s : GoString) : ℕ := Totals.amount SourceTally.read r.sources s

/-- The events counted under a type no detector reads. -/
def Report.typeCount (r : Report) (t : GoString) : ℕ := Totals.amount id r.unknownTypes t

/-- Two tallies added up. -/
def SourceTally.add (a b : SourceTally) : SourceTally := ⟨a.events + b.events, a.read + b.read⟩

/-- A detector reads events of the type. -/
def isRead (t : GoString) : Bool := (knownType t).isSome

/-! ## The tallies of one file -/

/-- The tallies count the events ingested so far, each key once. -/
structure Tallied (st : Scan) : Prop where
  types_nodup : (st.rep.unknownTypes.map Prod.fst).Nodup
  sources_nodup : (st.rep.sources.map Prod.fst).Nodup
  events : ∀ s, st.rep.eventsOf s = st.out.events.countP (·.source == s)
  read : ∀ s, st.rep.readOf s = st.out.events.countP fun e => e.source == s && isRead e.type
  types : ∀ t, st.rep.typeCount t = st.out.events.countP fun e => e.type == t && !isRead e.type

section Step

variable (B : Bus) (pol : Option Stream.Policy) (file stem : GoString)

/-- **What one line does to the tallies**: nothing, or it records an event. -/
theorem parseLine_tallies (st : Scan) (bytes : GoString) :
    ((parseLine B pol file stem st bytes).rep.unknownTypes = st.rep.unknownTypes ∧
      (parseLine B pol file stem st bytes).rep.sources = st.rep.sources ∧
      (parseLine B pol file stem st bytes).out.events = st.out.events) ∨
    ∃ env ts,
      (parseLine B pol file stem st bytes).rep.unknownTypes = (st.rep.record env).unknownTypes ∧
      (parseLine B pol file stem st bytes).rep.sources = (st.rep.record env).sources ∧
      (parseLine B pol file stem st bytes).out.events = st.out.events ++ [eventOf env ts] := by
  have hturn := parseLine_turn B pol file stem st bytes
  generalize parseLine B pol file stem st bytes = st' at hturn ⊢
  cases hturn with
  | blank | malformed | foreign => exact Or.inl ⟨rfl, rfl, rfl⟩
  | ingested env ts | unknownStream env ts =>
    exact Or.inr ⟨env, ts, rfl, rfl, events_ingest B st.out env ts⟩

variable {B pol file stem}

theorem record_sources (rep : Report) (env : Envelope) : (rep.record env).sources =
    Totals.put SourceTally.add rep.sources env.source ⟨1, if isRead env.type then 1 else 0⟩ := rfl

theorem record_unknownTypes (rep : Report) (env : Envelope) : (rep.record env).unknownTypes =
    if isRead env.type then rep.unknownTypes
    else Totals.put (· + ·) rep.unknownTypes env.type 1 := rfl

theorem eventsOf_record (rep : Report) (env : Envelope) (s : GoString) :
    (rep.record env).eventsOf s = rep.eventsOf s + if env.source = s then 1 else 0 := by
  rw [Report.eventsOf, record_sources, Totals.amount_put fun _ _ => rfl]
  rfl

theorem readOf_record (rep : Report) (env : Envelope) (s : GoString) :
    (rep.record env).readOf s =
      rep.readOf s + if env.source = s then if isRead env.type then 1 else 0 else 0 := by
  rw [Report.readOf, record_sources, Totals.amount_put fun _ _ => rfl]
  rfl

theorem typeCount_record (rep : Report) (env : Envelope) (t : GoString) :
    (rep.record env).typeCount t =
      rep.typeCount t + if isRead env.type then 0 else if env.type = t then 1 else 0 := by
  rw [Report.typeCount, record_unknownTypes]
  split_ifs with h
  · rfl
  all_goals
    rw [Totals.amount_put fun _ _ => rfl]
    simp [*, Report.typeCount]

theorem tallied_parseLine {st : Scan} (h : Tallied st) (bytes : GoString) :
    Tallied (parseLine B pol file stem st bytes) := by
  rcases parseLine_tallies B pol file stem st bytes with ⟨ht, hs, he⟩ | ⟨env, ts, ht, hs, he⟩
  · refine ⟨ht ▸ h.types_nodup, hs ▸ h.sources_nodup, fun s => ?_, fun s => ?_, fun t => ?_⟩
    · rw [Report.eventsOf, hs, he]
      exact h.events s
    · rw [Report.readOf, hs, he]
      exact h.read s
    · rw [Report.typeCount, ht, he]
      exact h.types t
  · have htype := eventOf_type env ts
    have hsource : (eventOf env ts).source = env.source := rfl
    refine ⟨ht ▸ ?_, ?_, fun s => ?_, fun s => ?_, fun t => ?_⟩
    · rw [record_unknownTypes]
      split_ifs
      · exact h.types_nodup
      · exact Totals.nodup_put h.types_nodup
    · rw [hs, record_sources]
      exact Totals.nodup_put h.sources_nodup
    · rw [Report.eventsOf, hs, he, List.countP_append, List.countP_singleton, ← h.events]
      refine (eventsOf_record st.rep env s).trans ?_
      simp [hsource]
    · rw [Report.readOf, hs, he, List.countP_append, List.countP_singleton, ← h.read]
      refine (readOf_record st.rep env s).trans ?_
      by_cases hr : isRead env.type = true
      · simp [hsource, htype, hr]
      · simp [hsource, htype, hr]
    · rw [Report.typeCount, ht, he, List.countP_append, List.countP_singleton, ← h.types]
      refine (typeCount_record st.rep env t).trans ?_
      by_cases hr : isRead env.type = true
      · simp [htype, hr]
      · simp [htype, hr]

end Step

theorem tallied_scan (B : Bus) (pol : Option Stream.Policy) (file data : GoString) :
    Tallied (scan B pol file data) := by
  refine List.foldlRecOn (motive := Tallied) _ _ ?_ fun _ h l _ => tallied_parseLine h l
  exact ⟨List.nodup_nil, List.nodup_nil, fun _ => rfl, fun _ => rfl, fun _ => rfl⟩

/-! ## The reports of several files -/

/-- The reports of the files. -/
def reportsOf (B : Bus) (policy : Stream.Policy) (files : List (GoString × GoString)) : List Report :=
  files.map fun f => (parse B f.2 f.1 (some policy)).rep

theorem rep_loadFiles (B : Bus) (policy : Stream.Policy) (files : List (GoString × GoString)) :
    (loadFiles B policy files).rep =
      (reportsOf B policy files).foldl Report.merge Loading.start.rep := by
  unfold reportsOf loadFiles
  rw [List.foldl_map]
  exact (List.foldl_hom Loading.rep fun _ _ => rfl).symm

theorem sources_foldl_merge (rs : List Report) (r : Report) : (rs.foldl Report.merge r).sources =
    (rs.map Report.sources).foldl (Totals.merge SourceTally.add) r.sources := by
  rw [List.foldl_map]
  exact (List.foldl_hom Report.sources fun _ _ => rfl).symm

theorem unknownTypes_foldl_merge (rs : List Report) (r : Report) :
    (rs.foldl Report.merge r).unknownTypes =
      (rs.map Report.unknownTypes).foldl (Totals.merge (· + ·)) r.unknownTypes := by
  rw [List.foldl_map]
  exact (List.foldl_hom Report.unknownTypes fun _ _ => rfl).symm

theorem verified_foldl_merge (rs : List Report) (r : Report) :
    (rs.foldl Report.merge r).chain.verified =
      (r.chain.verified && rs.all fun o => o.chain.verified) := by
  induction rs generalizing r with
  | nil => exact (Bool.and_true _).symm
  | cons o rs ih =>
    rw [List.foldl_cons, ih, List.all_cons, ← Bool.and_assoc]
    rfl

theorem nodup_sources_merge {rs : List Report} {r : Report} (hr : (r.sources.map Prod.fst).Nodup) :
    ((rs.foldl Report.merge r).sources.map Prod.fst).Nodup := by
  rw [sources_foldl_merge]
  exact List.foldlRecOn (motive := fun m : List (GoString × SourceTally) => (m.map Prod.fst).Nodup)
    _ _ hr fun _ h o _ => Totals.nodup_merge h o

theorem mem_unreadSources {r : Report} (hr : (r.sources.map Prod.fst).Nodup) {s : GoString} :
    s ∈ r.unreadSources ↔ 0 < r.eventsOf s ∧ r.readOf s = 0 := by
  have hmem : s ∈ r.unreadSources ↔ ∃ p ∈ r.sources, (0 < p.2.events ∧ p.2.read = 0) ∧ p.1 = s := by
    unfold Report.unreadSources Strings.sort
    rw [List.mem_insertionSort]
    simp only [List.mem_map, List.mem_filter, Bool.and_eq_true, decide_eq_true_eq, beq_iff_eq,
      and_assoc]
  rw [hmem, Report.eventsOf, Report.readOf, Totals.amount, Totals.amount]
  constructor
  · rintro ⟨p, hp, hcount, rfl⟩
    rw [Keyed.lookup_of_mem hr hp]
    exact hcount
  · intro h
    cases hl : Keyed.lookup Prod.fst s r.sources with
    | none =>
      rw [hl] at h
      exact absurd h.1 (Nat.lt_irrefl 0)
    | some p =>
      rw [hl] at h
      exact ⟨p, Keyed.mem_of_lookup hl, h, Keyed.lookup_key hl⟩

theorem nodup_unreadSources {r : Report} (hr : (r.sources.map Prod.fst).Nodup) :
    r.unreadSources.Nodup := by
  refine (List.perm_insertionSort _ _).nodup_iff.mpr ?_
  exact hr.sublist (List.filter_sublist.map Prod.fst)

/-! ## What a load returns -/

/-- The events `parse` returns for a file. -/
def fileEvents (B : Bus) (policy : Stream.Policy) (f : GoString × GoString) : List Event :=
  (parse B f.2 f.1 (some policy)).events

/-- What a load returns, by what `parse` returns for each of its files. -/
structure Merges (B : Bus) (policy : Stream.Policy) (files : List (GoString × GoString)) (p : Parsed) :
    Prop where
  events : p.events = files.flatMap (fileEvents B policy)
  identities : p.identities.Sublist (yielded B policy files)
  first : ∀ type id, type = identityAgent ∨ type = identityHuman →
    p.identities.filter (fun i => i.type == type && i.id == id) =
      ((yielded B policy files).find? fun i => i.type == type && i.id == id).toList
  lines : p.rep.lines = ((reportsOf B policy files).map Report.lines).sum
  malformed : p.rep.malformed = ((reportsOf B policy files).map Report.malformed).sum
  foreignSource : p.rep.foreignSource = ((reportsOf B policy files).map Report.foreignSource).sum
  unknownStream : p.rep.unknownStream = ((reportsOf B policy files).map Report.unknownStream).sum
  types : ∀ t, p.rep.typeCount t = ((reportsOf B policy files).map (·.typeCount t)).sum
  sourceEvents : ∀ s, p.rep.eventsOf s = ((reportsOf B policy files).map (·.eventsOf s)).sum
  sourceRead : ∀ s, p.rep.readOf s = ((reportsOf B policy files).map (·.readOf s)).sum
  verified : p.rep.chain.verified = (reportsOf B policy files).all (·.chain.verified)
  chained : p.rep.chain.chained = ((reportsOf B policy files).map (·.chain.chained)).sum
  heads : p.rep.chain.heads = ((reportsOf B policy files).map (·.chain.heads)).sum
  unverifiable : p.rep.chain.unverifiable =
    (reportsOf B policy files).flatMap (·.chain.unverifiable)
  breaks : p.rep.chain.breaks = (reportsOf B policy files).flatMap (·.chain.breaks)
  foreign : p.rep.foreign = ((reportsOf B policy files).flatMap Report.foreign).take maxForeignPairs
  unknown : p.rep.unknown = ((reportsOf B policy files).flatMap Report.unknown).take maxForeignPairs
  unread_sorted : p.rep.unreadSources.Pairwise (· ≤ ·) ∧ p.rep.unreadSources.Nodup
  unread : ∀ s, s ∈ p.rep.unreadSources ↔
    (∃ f ∈ files, ∃ e ∈ fileEvents B policy f, e.source = s) ∧
      ∀ f ∈ files, ∀ e ∈ fileEvents B policy f, e.source = s → isRead e.type = false

section Load

variable (B : Bus) (policy : Stream.Policy) (files : List (GoString × GoString))

theorem forall_reportsOf {P : Report → Prop} : (∀ r ∈ reportsOf B policy files, P r) ↔
    ∀ f ∈ files, P (parse B f.2 f.1 (some policy)).rep := List.forall_mem_map

theorem tallied_parse (f : GoString × GoString) :
    (((parse B f.2 f.1 (some policy)).rep.unknownTypes.map Prod.fst).Nodup ∧
      ((parse B f.2 f.1 (some policy)).rep.sources.map Prod.fst).Nodup) ∧
    (∀ s, (parse B f.2 f.1 (some policy)).rep.eventsOf s =
      (fileEvents B policy f).countP (·.source == s)) ∧
    ∀ s, (parse B f.2 f.1 (some policy)).rep.readOf s =
      (fileEvents B policy f).countP fun e => e.source == s && isRead e.type := by
  have h := tallied_scan B (some policy) f.1 f.2
  exact ⟨⟨h.types_nodup, h.sources_nodup⟩, h.events, h.read⟩

theorem typeCount_loadFiles (t : GoString) : (loadFiles B policy files).rep.typeCount t =
    ((reportsOf B policy files).map (·.typeCount t)).sum := by
  have hnodup : ∀ m ∈ (reportsOf B policy files).map Report.unknownTypes, (m.map Prod.fst).Nodup := by
    rw [List.forall_mem_map, forall_reportsOf]
    exact fun f _ => (tallied_parse B policy f).1.1
  rw [Report.typeCount, rep_loadFiles, unknownTypes_foldl_merge,
    Totals.amount_foldl_merge (fun _ _ => rfl) hnodup, List.map_map]
  exact Nat.zero_add _

theorem nodup_sources_reportsOf :
    ∀ m ∈ (reportsOf B policy files).map Report.sources, (m.map Prod.fst).Nodup := by
  rw [List.forall_mem_map, forall_reportsOf]
  exact fun f _ => (tallied_parse B policy f).1.2

theorem eventsOf_loadFiles (s : GoString) : (loadFiles B policy files).rep.eventsOf s =
    ((reportsOf B policy files).map (·.eventsOf s)).sum := by
  rw [Report.eventsOf, rep_loadFiles, sources_foldl_merge,
    Totals.amount_foldl_merge (fun _ _ => rfl) (nodup_sources_reportsOf B policy files), List.map_map]
  exact Nat.zero_add _

theorem readOf_loadFiles (s : GoString) : (loadFiles B policy files).rep.readOf s =
    ((reportsOf B policy files).map (·.readOf s)).sum := by
  rw [Report.readOf, rep_loadFiles, sources_foldl_merge,
    Totals.amount_foldl_merge (fun _ _ => rfl) (nodup_sources_reportsOf B policy files), List.map_map]
  exact Nat.zero_add _

theorem nodup_sources_loadFiles : ((loadFiles B policy files).rep.sources.map Prod.fst).Nodup := by
  rw [rep_loadFiles]
  exact nodup_sources_merge List.nodup_nil

/-- **The unread sources of a load** have an event in some file and a read one in none. -/
theorem mem_unreadSources_loadFiles (s : GoString) : s ∈ (loadFiles B policy files).rep.unreadSources ↔
    (∃ f ∈ files, ∃ e ∈ fileEvents B policy f, e.source = s) ∧
      ∀ f ∈ files, ∀ e ∈ fileEvents B policy f, e.source = s → isRead e.type = false := by
  have hsome : (∃ n ∈ (reportsOf B policy files).map (·.eventsOf s), 0 < n) ↔
      ∃ f ∈ files, ∃ e ∈ fileEvents B policy f, e.source = s := by
    simp only [reportsOf, List.mem_map, exists_exists_and_eq_and]
    refine exists_congr fun f => and_congr_right fun _ => ?_
    rw [(tallied_parse B policy f).2.1, List.countP_pos_iff]
    simp only [beq_iff_eq]
  have hnone : (∀ n ∈ (reportsOf B policy files).map (·.readOf s), n = 0) ↔
      ∀ f ∈ files, ∀ e ∈ fileEvents B policy f, e.source = s → isRead e.type = false := by
    rw [List.forall_mem_map, forall_reportsOf]
    refine forall₂_congr fun f _ => ?_
    rw [(tallied_parse B policy f).2.2, List.countP_eq_zero]
    simp only [Bool.and_eq_true, beq_iff_eq, not_and, Bool.not_eq_true]
  rw [mem_unreadSources (nodup_sources_loadFiles B policy files), eventsOf_loadFiles, readOf_loadFiles,
    List.sum_pos_iff_exists_pos_nat, List.sum_eq_zero_iff_forall_eq_nat, hsome, hnone]

theorem filter_identities_loadFiles {type : GoString} (id : GoString)
    (htype : type = identityAgent ∨ type = identityHuman) :
    (loadFiles B policy files).out.identities.filter (fun i => i.type == type && i.id == id) =
      ((yielded B policy files).find? fun i => i.type == type && i.id == id).toList := by
  -- between agents and humans alone, a type is told by whether it is that of agents
  have hsame : ∀ i ∈ yielded B policy files, (i.type == type && i.id == id) =
      sameNode i { Identity.zero id with type := type } := by
    intro i hi
    obtain ⟨f, -, hf⟩ := List.mem_flatMap.mp hi
    have htypes : ∀ a ∈ [identityAgent, identityHuman], ∀ b ∈ [identityAgent, identityHuman],
        (a == b) = ((a == identityAgent) == (b == identityAgent)) := by decide
    have hi' : i.type ∈ [identityAgent, identityHuman] := by simpa using type_parse hf
    have htype' : type ∈ [identityAgent, identityHuman] := by simpa using htype
    rw [htypes i.type hi' type htype']
    rfl
  have hsub : ∀ i ∈ KeepFirst.keepFirst sameNode [] (yielded B policy files),
      i ∈ yielded B policy files := fun i hi =>
    (KeepFirst.mem_of_mem_keepFirst hi).resolve_left List.not_mem_nil
  have hsym : ∀ a b : Identity, sameNode a b = true ↔
      (a.type == identityAgent) = (b.type == identityAgent) ∧ a.id = b.id := by
    intro a b
    simp [sameNode, sameEntry, nodeEntry]
  rw [identities_loadFiles, List.filter_congr fun i hi => hsame i (hsub i hi),
    List.find?_congr fun i hi => hsame i hi]
  apply KeepFirst.filter_keepFirst_class
  · intro a b hab
    rw [hsym] at hab
    rw [Bool.eq_iff_iff, hsym, hsym, hab.1, hab.2]
  · intro a b ha hb
    rw [hsym] at ha hb ⊢
    exact ⟨ha.1.trans hb.1.symm, ha.2.trans hb.2.symm⟩

/-- **What the loop makes of its files** is the merge of what `parse` makes of each. -/
theorem merges_loadFiles : Merges B policy files
    { identities := (loadFiles B policy files).out.identities
      events := (loadFiles B policy files).out.events
      rep := (loadFiles B policy files).rep } := by
  have hsum : ∀ g : Report → ℕ, g Loading.start.rep = 0 → (∀ r o, g (r.merge o) = g r + g o) →
      g (loadFiles B policy files).rep = ((reportsOf B policy files).map g).sum := by
    intro g hstart hstep
    rw [rep_loadFiles, Loop.foldl_sum hstep, hstart, Nat.zero_add]
  have hnodup := nodup_sources_loadFiles B policy files
  exact
    { events := events_loadFiles B policy files
      identities := by
        rw [identities_loadFiles]
        exact KeepFirst.keepFirst_sublist_append [] _
      first := fun type id htype => filter_identities_loadFiles B policy files id htype
      lines := hsum Report.lines rfl fun _ _ => rfl
      malformed := hsum Report.malformed rfl fun _ _ => rfl
      foreignSource := hsum Report.foreignSource rfl fun _ _ => rfl
      unknownStream := hsum Report.unknownStream rfl fun _ _ => rfl
      types := typeCount_loadFiles B policy files
      sourceEvents := eventsOf_loadFiles B policy files
      sourceRead := readOf_loadFiles B policy files
      verified := by
        rw [rep_loadFiles, verified_foldl_merge]
        exact Bool.true_and _
      chained := hsum (·.chain.chained) rfl fun _ _ => rfl
      heads := hsum (·.chain.heads) rfl fun _ _ => rfl
      unverifiable := by
        rw [rep_loadFiles]
        exact Loop.foldl_append (f := fun r : Report => r.chain.unverifiable) (fun _ _ => rfl) _ _
      breaks := by
        rw [rep_loadFiles]
        exact Loop.foldl_append (f := fun r : Report => r.chain.breaks) (fun _ _ => rfl) _ _
      foreign := by
        rw [rep_loadFiles]
        exact Loop.foldl_append_take (f := Report.foreign) (fun _ _ => rfl) _ (Nat.zero_le _)
      unknown := by
        rw [rep_loadFiles]
        exact Loop.foldl_append_take (f := Report.unknown) (fun _ _ => rfl) _ (Nat.zero_le _)
      unread_sorted := ⟨Strings.pairwise_sort _, nodup_unreadSources hnodup⟩
      unread := mem_unreadSources_loadFiles B policy files }

end Load

/-! ## The files that are matched -/

/-- The paths a glob stands for: those it matches, or itself. -/
def matched (pathOrGlob : GoString) (found : List GoString) : List GoString :=
  if found = [] then [pathOrGlob] else found

theorem readFiles_ok {fs : FileSystem} {paths : List GoString}
    (h : ∀ path ∈ paths, ∃ data, fs.readFile path = .ok data) :
    ∃ files, readFiles fs paths = .ok files ∧ files.map Prod.fst = paths ∧
      ∀ f ∈ files, fs.readFile f.1 = .ok f.2 := by
  induction paths with
  | nil => exact ⟨[], rfl, rfl, by simp⟩
  | cons path paths ih =>
    rw [List.forall_mem_cons] at h
    obtain ⟨data, hdata⟩ := h.1
    obtain ⟨files, hfiles, hpaths, hread⟩ := ih h.2
    refine ⟨(path, data) :: files, ?_, congrArg (path :: ·) hpaths, ?_⟩
    · rw [readFiles, hdata, hfiles]
      rfl
    · rw [List.forall_mem_cons]
      exact ⟨hdata, hread⟩

/-- **A load is the fold of its files.** Where every file matched can be read, the load reads them in
the order of their paths and returns the merge of what `parse` returns for each. -/
theorem merges_loadWith (B : Bus) (fs : FileSystem) (pathOrGlob : GoString) (policy : Stream.Policy)
    {found : List GoString} (hglob : fs.glob pathOrGlob = .ok found)
    (hread : ∀ path ∈ matched pathOrGlob found, ∃ data, fs.readFile path = .ok data) :
    ∃ files p, (files.map Prod.fst).Perm (matched pathOrGlob found) ∧
      (files.map Prod.fst).Pairwise (· ≤ ·) ∧ (∀ f ∈ files, fs.readFile f.1 = .ok f.2) ∧
      loadWith B fs pathOrGlob policy = .ok p ∧ Merges B policy files p := by
  have hpaths : loadPaths B fs pathOrGlob = .ok (Strings.sort (matched pathOrGlob found)) := by
    rw [loadPaths, hglob]
    rfl
  have hsorted : ∀ path ∈ Strings.sort (matched pathOrGlob found), ∃ data, fs.readFile path = .ok data :=
    fun path hpath => hread path ((List.mem_insertionSort _).mp hpath)
  obtain ⟨files, hfiles, hnames, hdata⟩ := readFiles_ok hsorted
  refine ⟨files, _, ?_, ?_, hdata, ?_, merges_loadFiles B policy files⟩
  · rw [hnames]
    exact List.perm_insertionSort _ _
  · rw [hnames]
    exact Strings.pairwise_sort _
  · rw [loadWith_eq, filesOf, hpaths, Except.bind, hfiles]

/-- Two files a glob matches out of order. -/
def twoFiles : FileSystem where
  glob _ := .ok ["b.ndjson", "a.ndjson"]
  readFile path :=
    if path = "a.ndjson" then .ok (blobOf [plainEnvelope "a" "agent://acme.example/bot" []])
    else if path = "b.ndjson" then .ok (blobOf [plainEnvelope "b" "agent://acme.example/bot" []])
    else .error "no such file or directory"

theorem merges_twoFiles :
    let B := busOf [plainEnvelope "a" "agent://acme.example/bot" [],
      plainEnvelope "b" "agent://acme.example/bot" []]
    ∃ files p, (files.map Prod.fst).Perm (matched "*.ndjson" ["b.ndjson", "a.ndjson"]) ∧
      (files.map Prod.fst).Pairwise (· ≤ ·) ∧ (∀ f ∈ files, twoFiles.readFile f.1 = .ok f.2) ∧
      loadWith B twoFiles "*.ndjson" Stream.Policy.default = .ok p ∧
      Merges B Stream.Policy.default files p := by
  apply merges_loadWith _ twoFiles "*.ndjson" Stream.Policy.default (by rfl)
  intro path hpath
  have hpaths : path = "b.ndjson" ∨ path = "a.ndjson" := by simpa [matched] using hpath
  rcases hpaths with rfl | rfl
  · exact ⟨_, by rfl⟩
  · exact ⟨_, by rfl⟩

end Idryx.Tokenfuse
