import Idryx.Tokenfuse.Parse

/-!
# Reading several files

`LoadWith` of `internal/ingest/tokenfuse`: the files a path or glob names are parsed in the order of
their paths, each under the stream rule of its own name.

* `Report.merge`, `keep`, `loadFile`, `loadWith`;
* **`loadWith_eq`**: the load reads all its files, or fails, and then folds what `parse` makes of each;
* **`identities_loadFiles`**: of the identities the files yield, the first of each agent and human is
  kept; `events_loadFiles`: the events are those of the files in turn.
-/

namespace Idryx.Tokenfuse

/-! ## Merging reports -/

/-- One file's chain verdict folded into an aggregate. -/
def Chain.merge (c o : Chain) : Chain where
  verified := c.verified && o.verified
  chained := c.chained + o.chained
  heads := c.heads + o.heads
  unverifiable := c.unverifiable ++ o.unverifiable
  breaks := c.breaks ++ o.breaks

/-- The counts of two files added up. -/
def Report.merge (r o : Report) : Report where
  lines := r.lines + o.lines
  malformed := r.malformed + o.malformed
  unknownTypes := o.unknownTypes.foldl (fun m p => bump m p.1 p.2) r.unknownTypes
  chain := r.chain.merge o.chain
  sources := o.sources.foldl (fun m p => tally m p.1 p.2) r.sources
  foreignSource := r.foreignSource + o.foreignSource
  foreign := r.foreign ++ o.foreign.take (maxForeignPairs - r.foreign.length)
  unknownStream := r.unknownStream + o.unknownStream
  unknown := r.unknown ++ o.unknown.take (maxForeignPairs - r.unknown.length)

/-! ## The loop over the files -/

/-- The variables of the loop. -/
structure Loading where
  out : Emitted
  rep : Report

namespace Loading

/-- The aggregate starts as checked, and each file's verdict is ANDed in. -/
def start : Loading :=
  { out := Emitted.empty
    rep := { newReport with chain := { Chain.unchecked with verified := true } } }

end Loading

/-- Keep an identity of a file unless an earlier file produced it. -/
def Emitted.keep (o : Emitted) (i : Identity) : Emitted :=
  if i.type = identityAgent then o.once true i
  else if i.type = identityHuman then o.once false i
  else { o with identities := o.identities ++ [i] }

/-- Add what `parse` made of one file. -/
def Loading.add (st : Loading) (r : Parsed) : Loading :=
  let o := r.identities.foldl Emitted.keep st.out
  { out := { o with events := o.events ++ r.events }, rep := st.rep.merge r.rep }

/-- One turn of the loop. -/
def loadFile (B : Bus) (fs : FileSystem) (policy : Stream.Policy) (st : Loading) (path : GoString) :
    Except GoString Loading :=
  match fs.readFile path with
  | .error err => .error (("tokenfuse: read " : GoString) ++ path ++ (": " : GoString) ++ err)
  | .ok data => .ok (st.add (parse B data path (some policy)))

/-- The paths a load reads, in order: those the glob matches, or else the path itself. -/
def loadPaths (B : Bus) (fs : FileSystem) (pathOrGlob : GoString) :
    Except GoString (List GoString) :=
  match fs.glob pathOrGlob with
  | .error err =>
    .error (("tokenfuse: bad glob " : GoString) ++ Strconv.quote B.unicode pathOrGlob ++
      (": " : GoString) ++ err)
  | .ok found => .ok (Strings.sort (if found = [] then [pathOrGlob] else found))

/-- `LoadWith`. -/
def loadWith (B : Bus) (fs : FileSystem) (pathOrGlob : GoString) (policy : Stream.Policy) :
    Except GoString Parsed :=
  match loadPaths B fs pathOrGlob with
  | .error err => .error err
  | .ok paths =>
    match paths.foldlM (loadFile B fs policy) Loading.start with
    | .error err => .error err
    | .ok st => .ok { identities := st.out.identities, events := st.out.events, rep := st.rep }

/-! ## The files of a load -/

/-- The contents of the files, each with its path, or the error of the first that cannot be read. -/
def readFiles (fs : FileSystem) : List GoString → Except GoString (List (GoString × GoString))
  | [] => .ok []
  | path :: paths =>
    match fs.readFile path with
    | .error err => .error (("tokenfuse: read " : GoString) ++ path ++ (": " : GoString) ++ err)
    | .ok data => (readFiles fs paths).map ((path, data) :: ·)

/-- The files a load reads. -/
def filesOf (B : Bus) (fs : FileSystem) (pathOrGlob : GoString) :
    Except GoString (List (GoString × GoString)) :=
  (loadPaths B fs pathOrGlob).bind (readFiles fs)

/-- What the loop makes of the files it has read. -/
def loadFiles (B : Bus) (policy : Stream.Policy) (files : List (GoString × GoString)) : Loading :=
  files.foldl (fun st f => st.add (parse B f.2 f.1 (some policy))) Loading.start

/-- **A load reads its files, or fails, and folds what `parse` makes of each.** -/
theorem loadWith_eq (B : Bus) (fs : FileSystem) (pathOrGlob : GoString) (policy : Stream.Policy) :
    loadWith B fs pathOrGlob policy =
      match filesOf B fs pathOrGlob with
      | .error err => .error err
      | .ok files =>
        let st := loadFiles B policy files
        .ok { identities := st.out.identities, events := st.out.events, rep := st.rep } := by
  have hloop : ∀ (paths : List GoString) (st : Loading),
      paths.foldlM (loadFile B fs policy) st = (readFiles fs paths).map fun files =>
        files.foldl (fun st f => st.add (parse B f.2 f.1 (some policy))) st := by
    intro paths
    induction paths with
    | nil => intro st; rfl
    | cons path paths ih =>
      intro st
      rw [List.foldlM_cons, loadFile, readFiles]
      cases fs.readFile path with
      | error err => rfl
      | ok data =>
        refine (ih _).trans ?_
        cases readFiles fs paths <;> rfl
  unfold loadWith filesOf
  cases loadPaths B fs pathOrGlob with
  | error err => rfl
  | ok paths =>
    simp only [hloop, Except.bind]
    cases readFiles fs paths <;> rfl

/-! ## What is kept -/

/-- The entry of an identity of a file. -/
def nodeEntry (i : Identity) : Bool × Identity := (i.type == identityAgent, i)

/-- Two identities of one type and one id, where the types are those of agents and humans. -/
def sameNode (i j : Identity) : Bool := sameEntry (nodeEntry i) (nodeEntry j)

theorem type_parse {B : Bus} {pol : Option Stream.Policy} {data file : GoString} {i : Identity}
    (hi : i ∈ (parse B data file pol).identities) :
    i.type = identityAgent ∨ i.type = identityHuman := by
  rw [(parse_out B pol file data).1, emit_identities, List.mem_map] at hi
  obtain ⟨k, hk, rfl⟩ := hi
  obtain ⟨x, -, hx⟩ := List.mem_flatMap.mp ((KeepFirst.mem_of_mem_keepFirst hk).resolve_left
    List.not_mem_nil)
  rcases List.mem_cons.mp hx with rfl | hx
  · show (if B.isClaimedSubject x.1.agentID then identityHuman else identityAgent) = _ ∨
      (if B.isClaimedSubject x.1.agentID then identityHuman else identityAgent) = _
    split_ifs
    · exact Or.inr rfl
    · exact Or.inl rfl
  · obtain ⟨p, -, rfl⟩ := List.mem_map.mp hx
    exact Or.inr rfl

theorem Emits.keep {o : Emitted} {ks : List (Bool × Identity)} (h : Emits o ks) {i : Identity}
    (hi : i.type = identityAgent ∨ i.type = identityHuman) :
    Emits (o.keep i) (KeepFirst.keepFirst sameEntry ks [nodeEntry i]) := by
  unfold Emitted.keep nodeEntry
  rcases hi with hi | hi
  · rw [if_pos hi, hi]
    exact h.once true i
  · have hne : i.type ≠ identityAgent := by
      rw [hi]
      decide
    rw [if_neg hne, if_pos hi, hi]
    exact h.once false i

theorem Emits.foldl_keep {o : Emitted} {ks : List (Bool × Identity)} (h : Emits o ks)
    {is : List Identity} (his : ∀ i ∈ is, i.type = identityAgent ∨ i.type = identityHuman) :
    Emits (is.foldl Emitted.keep o) (KeepFirst.keepFirst sameEntry ks (is.map nodeEntry)) := by
  induction is generalizing o ks with
  | nil => exact h
  | cons i is ih =>
    have hrest := ih (h.keep (his i List.mem_cons_self)) fun j hj => his j (List.mem_cons_of_mem _ hj)
    rwa [← KeepFirst.keepFirst_append] at hrest

/-- The identities the files yield, before repeats are dropped. -/
def yielded (B : Bus) (policy : Stream.Policy) (files : List (GoString × GoString)) :
    List Identity :=
  files.flatMap fun f => (parse B f.2 f.1 (some policy)).identities

theorem emits_loadFiles (B : Bus) (policy : Stream.Policy) (files : List (GoString × GoString)) :
    Emits (loadFiles B policy files).out
      (KeepFirst.keepFirst sameEntry [] ((yielded B policy files).map nodeEntry)) := by
  have hrun : ∀ (st : Loading) (ks : List (Bool × Identity)), Emits st.out ks →
      Emits (files.foldl (fun st f => st.add (parse B f.2 f.1 (some policy))) st).out
        (KeepFirst.keepFirst sameEntry ks ((yielded B policy files).map nodeEntry)) := by
    induction files with
    | nil => exact fun st ks h => h
    | cons f files ih =>
      intro st ks h
      have htypes : ∀ i ∈ (parse B f.2 f.1 (some policy)).identities,
          i.type = identityAgent ∨ i.type = identityHuman := fun i hi => type_parse hi
      have hfile := h.foldl_keep htypes
      rw [yielded, List.flatMap_cons, List.map_append, KeepFirst.keepFirst_append]
      exact ih _ _ ⟨hfile.identities, hfile.agents, hfile.humans⟩
  exact hrun Loading.start [] Emits.empty

/-- **The identities of a load**: of those the files yield, the first of each agent and human. -/
theorem identities_loadFiles (B : Bus) (policy : Stream.Policy)
    (files : List (GoString × GoString)) : (loadFiles B policy files).out.identities =
      KeepFirst.keepFirst sameNode [] (yielded B policy files) := by
  have hmap : KeepFirst.keepFirst sameEntry [] ((yielded B policy files).map nodeEntry) =
      (KeepFirst.keepFirst sameNode [] (yielded B policy files)).map nodeEntry :=
    (KeepFirst.map_keepFirst nodeEntry sameEntry [] (yielded B policy files)).symm
  rw [(emits_loadFiles B policy files).identities, hmap, List.map_map]
  exact List.map_id _

theorem events_foldl_keep (o : Emitted) (is : List Identity) :
    (is.foldl Emitted.keep o).events = o.events := by
  apply Loop.foldl_fixed
  intro o i _
  unfold Emitted.keep
  split_ifs
  · exact events_once o true i
  · exact events_once o false i
  · rfl

theorem events_loadFiles (B : Bus) (policy : Stream.Policy) (files : List (GoString × GoString)) :
    (loadFiles B policy files).out.events =
      files.flatMap fun f => (parse B f.2 f.1 (some policy)).events := by
  apply Loop.foldl_append (f := fun st : Loading => st.out.events)
  intro st f
  show ((parse B f.2 f.1 (some policy)).identities.foldl Emitted.keep st.out).events ++ _ = _
  rw [events_foldl_keep]

end Idryx.Tokenfuse
