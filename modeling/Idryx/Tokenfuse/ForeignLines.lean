import Idryx.Tokenfuse.Load

/-!
# Foreign lines leave no trace

A line whose source its file may not carry is refused before it can make an identity or an event.

* `withoutForeign`: a blob with its foreign lines taken out;
* `admitted_withoutForeign`: that removes no admitted event;
* `Sourced`: identities and events that come, field by field, from events their file may carry;
* **`foreign_lines_inert`**: two runs, one without the foreign lines, agree on the identities and
  events, and these are sourced; for one blob and for every list of files.
-/

namespace Idryx.Tokenfuse

variable (B : Bus) (pol : Stream.Policy)

/-- The line is an envelope whose source the stream may not carry. -/
def foreignLine (stem bytes : GoString) : Bool :=
  match B.unmarshal (Strings.trimSpace bytes) with
  | none => false
  | some env => pol.check stem env.source == .foreign

/-- The blob with its foreign lines taken out. -/
def withoutForeign (file data : GoString) : GoString :=
  Bufio.joinLines ((Bufio.newlines data).filter fun l => !foreignLine B pol (Stream.stem file) l)

theorem admittedLine_of_foreign {stem bytes : GoString} (h : foreignLine B pol stem bytes = true) :
    admittedLine B (some pol) stem bytes = none := by
  unfold foreignLine at h
  unfold admittedLine
  by_cases hblank : Strings.trimSpace bytes = []
  · rw [if_pos hblank]
  · rw [if_neg hblank]
    cases henv : B.unmarshal (Strings.trimSpace bytes) with
    | none => rfl
    | some env =>
      rw [henv] at h
      have hrefused : admits (some pol) stem env.source = false := by
        show (pol.check stem env.source != .foreign) = false
        rw [eq_of_beq h]
        rfl
      cases hts : B.parseTime env.ts with
      | none => simp only [hts]
      | some ts => simp [hts, hrefused]

theorem filterMap_newlines_withoutForeign {β : Type*} (f : GoString → Option β) (hf : f [] = none)
    (file data : GoString) : (Bufio.newlines (withoutForeign B pol file data)).filterMap f =
      ((Bufio.newlines data).filter fun l => !foreignLine B pol (Stream.stem file) l).filterMap f := by
  set ls := (Bufio.newlines data).filter fun l => !foreignLine B pol (Stream.stem file) l with hls
  show (Bufio.newlines (Bufio.joinLines ls)).filterMap f = ls.filterMap f
  by_cases hne : ls = []
  · rw [hne]
    have hblank : Bufio.newlines (Bufio.joinLines []) = [[]] := rfl
    rw [hblank, List.filterMap_cons, hf]
  · rw [Bufio.newlines_joinLines hne]
    intro l hl
    exact Bufio.not_mem_newlines (List.mem_filter.mp (hls ▸ hl)).1

theorem fits_withoutForeign {file data : GoString} (h : Fits data) :
    Fits (withoutForeign B pol file data) := by
  set ls := (Bufio.newlines data).filter fun l => !foreignLine B pol (Stream.stem file) l with hls
  have hfits : ∀ l ∈ ls, l.length < maxTokenSize := fun l hl =>
    h l (List.mem_filter.mp (hls ▸ hl)).1
  show Fits (Bufio.joinLines ls)
  unfold Fits
  by_cases hne : ls = []
  · rw [hne]
    decide
  · rw [Bufio.newlines_joinLines hne]
    · exact hfits
    · intro l hl
      exact Bufio.not_mem_newlines (List.mem_filter.mp (hls ▸ hl)).1

/-- **Taking the foreign lines out removes no admitted event.** -/
theorem admitted_withoutForeign {file data : GoString} (h : Fits data) :
    admitted B (some pol) file (withoutForeign B pol file data) =
      admitted B (some pol) file data := by
  unfold admitted
  rw [takeWhile_of_fits (fits_withoutForeign B pol h), takeWhile_of_fits h,
    filterMap_newlines_withoutForeign B pol _ rfl, List.filterMap_filter]
  congr 1
  funext l
  by_cases hl : foreignLine B pol (Stream.stem file) l = true
  · rw [hl, admittedLine_of_foreign B pol hl]
    rfl
  · rw [Bool.not_eq_true] at hl
    rw [hl]
    rfl

theorem parse_withoutForeign (file : GoString) {data : GoString} (h : Fits data) :
    (parse B (withoutForeign B pol file data) file (some pol)).identities =
        (parse B data file (some pol)).identities ∧
      (parse B (withoutForeign B pol file data) file (some pol)).events =
        (parse B data file (some pol)).events := by
  have hout := parse_out B (some pol) file (withoutForeign B pol file data)
  rw [admitted_withoutForeign B pol h] at hout
  obtain ⟨hids, hevs⟩ := parse_out B (some pol) file data
  exact ⟨hout.1.trans hids.symm, hout.2.trans hevs.symm⟩

/-! ## Where identities and events come from -/

/-- The envelope `x` stands on a line of one of the files, which may carry its source. -/
def Carried (files : List (GoString × GoString)) (x : Envelope × Time) : Prop :=
  ∃ f ∈ files, x ∈ admitted B (some pol) f.1 f.2 ∧
    pol.check (Stream.stem f.1) x.1.source ≠ .foreign

/-- Every identity is the agent of a carried envelope, with its chain, or a human that envelope
names; every event is that of a carried envelope. -/
structure Sourced (files : List (GoString × GoString)) (is : List Identity) (es : List Event) :
    Prop where
  identities : ∀ i ∈ is, ∃ x, Carried B pol files x ∧
    (i = agentIdentity B x.1 ∨ ∃ p ∈ x.1.onBehalfOf, i = humanIdentity x.1 p)
  events : ∀ e ∈ es, ∃ x, Carried B pol files x ∧ e = eventOf x.1 x.2

variable {B pol} in
theorem carried_of_mem {files : List (GoString × GoString)} {f : GoString × GoString}
    (hf : f ∈ files) {x : Envelope × Time} (hx : x ∈ admitted B (some pol) f.1 f.2) :
    Carried B pol files x := by
  refine ⟨f, hf, hx, ?_⟩
  obtain ⟨l, -, hl⟩ := List.mem_filterMap.mp hx
  have hadmits : admits (some pol) (Stream.stem f.1) x.1.source = true := by
    unfold admittedLine at hl
    by_cases hblank : Strings.trimSpace l = []
    · rw [if_pos hblank] at hl
      cases hl
    · rw [if_neg hblank] at hl
      cases henv : B.unmarshal (Strings.trimSpace l) with
      | none =>
        rw [henv] at hl
        cases hl
      | some env =>
        simp only [henv] at hl
        cases hts : B.parseTime env.ts with
        | none =>
          simp only [hts] at hl
          cases hl
        | some ts =>
          simp only [hts] at hl
          split_ifs at hl with hadm
          cases hl
          exact hadm
  exact bne_iff_ne.mp hadmits

theorem sourced_parse {files : List (GoString × GoString)} {f : GoString × GoString}
    (hf : f ∈ files) : Sourced B pol files (parse B f.2 f.1 (some pol)).identities
      (parse B f.2 f.1 (some pol)).events := by
  obtain ⟨hids, hevs⟩ := parse_out B (some pol) f.1 f.2
  rw [hids, hevs, emit_identities, emit_events]
  constructor
  · intro i hi
    obtain ⟨k, hk, rfl⟩ := List.mem_map.mp hi
    have hmem := (KeepFirst.mem_of_mem_keepFirst hk).resolve_left List.not_mem_nil
    obtain ⟨x, hx, hkx⟩ := List.mem_flatMap.mp hmem
    refine ⟨x, carried_of_mem hf hx, ?_⟩
    rcases List.mem_cons.mp hkx with rfl | hkx
    · exact Or.inl rfl
    · obtain ⟨p, hp, rfl⟩ := List.mem_map.mp hkx
      exact Or.inr ⟨p, (List.mem_filter.mp hp).1, rfl⟩
  · intro e he
    obtain ⟨x, hx, rfl⟩ := List.mem_map.mp he
    exact ⟨x, carried_of_mem hf hx, rfl⟩

theorem sourced_loadFiles (files : List (GoString × GoString)) :
    Sourced B pol files (loadFiles B pol files).out.identities
      (loadFiles B pol files).out.events := by
  rw [identities_loadFiles, events_loadFiles]
  constructor
  · intro i hi
    obtain ⟨f, hf, hif⟩ := List.mem_flatMap.mp
      ((KeepFirst.mem_of_mem_keepFirst hi).resolve_left List.not_mem_nil)
    exact (sourced_parse B pol hf).identities i hif
  · intro e he
    obtain ⟨f, hf, hef⟩ := List.mem_flatMap.mp he
    exact (sourced_parse B pol hf).events e hef

/-! ## Loads -/

/-- The file system in which every file has lost its foreign lines. -/
def cleansed (fs : FileSystem) : FileSystem :=
  { fs with readFile := fun path => (fs.readFile path).map (withoutForeign B pol path) }

theorem readFiles_cleansed (fs : FileSystem) (paths : List GoString) :
    readFiles (cleansed B pol fs) paths =
      (readFiles fs paths).map (List.map fun f => (f.1, withoutForeign B pol f.1 f.2)) := by
  induction paths with
  | nil => rfl
  | cons path paths ih =>
    have hread : (cleansed B pol fs).readFile path =
        (fs.readFile path).map (withoutForeign B pol path) := rfl
    rw [readFiles, readFiles, ih, hread]
    cases fs.readFile path with
    | error err => rfl
    | ok data =>
      simp only [Except.map]
      cases readFiles fs paths <;> rfl

theorem loadFiles_withoutForeign {files : List (GoString × GoString)} (h : ∀ f ∈ files, Fits f.2) :
    (loadFiles B pol (files.map fun f => (f.1, withoutForeign B pol f.1 f.2))).out.identities =
        (loadFiles B pol files).out.identities ∧
      (loadFiles B pol (files.map fun f => (f.1, withoutForeign B pol f.1 f.2))).out.events =
        (loadFiles B pol files).out.events := by
  have hparse := fun f hf => parse_withoutForeign B pol f.1 (h f hf)
  rw [identities_loadFiles, identities_loadFiles, events_loadFiles, events_loadFiles, yielded, yielded,
    List.flatMap_map, List.flatMap_map]
  constructor
  · congr 1
    exact List.flatMap_congr fun f hf => (hparse f hf).1
  · exact List.flatMap_congr fun f hf => (hparse f hf).2

/-- What a load returns of the graph. -/
def graphOf (r : Except GoString Parsed) : Except GoString (List Identity × List Event) :=
  r.map fun p => (p.identities, p.events)

theorem graphOf_loadWith (fs : FileSystem) (pathOrGlob : GoString) :
    graphOf (loadWith B fs pathOrGlob pol) =
      (filesOf B fs pathOrGlob).map fun files =>
        ((loadFiles B pol files).out.identities, (loadFiles B pol files).out.events) := by
  rw [loadWith_eq]
  cases filesOf B fs pathOrGlob <;> rfl

theorem graphOf_cleansed {fs : FileSystem} {pathOrGlob : GoString}
    (h : ∀ files, filesOf B fs pathOrGlob = .ok files → ∀ f ∈ files, Fits f.2) :
    graphOf (loadWith B (cleansed B pol fs) pathOrGlob pol) =
      graphOf (loadWith B fs pathOrGlob pol) := by
  have hfiles : filesOf B (cleansed B pol fs) pathOrGlob = (filesOf B fs pathOrGlob).map
      (List.map fun f => (f.1, withoutForeign B pol f.1 f.2)) := by
    show (loadPaths B fs pathOrGlob).bind (readFiles (cleansed B pol fs)) = _
    unfold filesOf
    cases loadPaths B fs pathOrGlob with
    | error err => rfl
    | ok paths => exact readFiles_cleansed B pol fs paths
  rw [graphOf_loadWith, graphOf_loadWith, hfiles]
  cases hread : filesOf B fs pathOrGlob with
  | error err => rfl
  | ok files =>
    obtain ⟨hids, hevs⟩ := loadFiles_withoutForeign B pol (h files hread)
    show Except.ok (_, _) = Except.ok (_, _)
    rw [hids, hevs]

theorem sourced_loadWith {fs : FileSystem} {pathOrGlob : GoString} {r : Parsed}
    (h : loadWith B fs pathOrGlob pol = .ok r) :
    ∃ files, filesOf B fs pathOrGlob = .ok files ∧
      Sourced B pol files r.identities r.events := by
  rw [loadWith_eq] at h
  cases hread : filesOf B fs pathOrGlob with
  | error err =>
    rw [hread] at h
    cases h
  | ok files =>
    rw [hread] at h
    obtain rfl := Except.ok.inj h
    exact ⟨files, rfl, sourced_loadFiles B pol files⟩

/-- **Foreign lines leave no trace.** Where every line fits in the scanner's buffer, the identities and
events of a blob are those of the blob without its foreign lines, and each comes from an envelope whose
source the file may carry; the same holds of a load of any files. -/
theorem foreign_lines_inert (B : Bus) (pol : Stream.Policy) :
    (∀ file data, Fits data →
      (parse B data file (some pol)).identities =
          (parse B (withoutForeign B pol file data) file (some pol)).identities ∧
        (parse B data file (some pol)).events =
          (parse B (withoutForeign B pol file data) file (some pol)).events ∧
        Sourced B pol [(file, data)] (parse B data file (some pol)).identities
          (parse B data file (some pol)).events) ∧
    ∀ fs pathOrGlob,
      (∀ files, filesOf B fs pathOrGlob = .ok files →
        ∀ f ∈ files, Fits f.2) →
      graphOf (loadWith B fs pathOrGlob pol) =
          graphOf (loadWith B (cleansed B pol fs) pathOrGlob pol) ∧
        ∀ r, loadWith B fs pathOrGlob pol = .ok r → ∃ files,
          filesOf B fs pathOrGlob = .ok files ∧
            Sourced B pol files r.identities r.events := by
  constructor
  · intro file data hfit
    have hsame := parse_withoutForeign B pol file hfit
    have hsourced := sourced_parse B pol (List.mem_singleton.mpr (Eq.refl (file, data)))
    exact ⟨hsame.1.symm, hsame.2.symm, hsourced⟩
  · intro fs pathOrGlob hfit
    exact ⟨(graphOf_cleansed B pol hfit).symm, fun r hr => sourced_loadWith B pol hr⟩

/-- A bus stream with a forged line between two of its own. -/
def forgedStream : List Envelope :=
  [plainEnvelope "tokenfuse" "agent://acme.example/bot" ["user://acme.example/ann"],
    plainEnvelope "wardryx" "agent://acme.example/bot" ["user://acme.example/eve"],
    plainEnvelope "tokenfuse" "agent://acme.example/bot" []]

/-- The forged line leaves no trace in a blob, nor in a load of the file. -/
theorem foreign_lines_inert_forged :
    let data := blobOf forgedStream
    let fs : FileSystem := ⟨fun _ => .ok [], fun _ => .ok data⟩
    foreignLine (busOf forgedStream) Stream.Policy.default "tokenfuse" ((Bufio.newlines data).getD 1 []) =
        true ∧
      (parse (busOf forgedStream) data "tokenfuse.ndjson" (some Stream.Policy.default)).events =
        (parse (busOf forgedStream)
          (withoutForeign (busOf forgedStream) Stream.Policy.default "tokenfuse.ndjson" data)
          "tokenfuse.ndjson" (some Stream.Policy.default)).events ∧
      graphOf (loadWith (busOf forgedStream) fs "tokenfuse.ndjson" Stream.Policy.default) =
        graphOf (loadWith (busOf forgedStream)
          (cleansed (busOf forgedStream) Stream.Policy.default fs) "tokenfuse.ndjson"
          Stream.Policy.default) := by
  have hfit : Fits (blobOf forgedStream) := by decide +kernel
  refine ⟨by decide +kernel, ?_, ?_⟩
  · exact ((foreign_lines_inert (busOf forgedStream) Stream.Policy.default).1 _ _ hfit).2.1
  · refine ((foreign_lines_inert (busOf forgedStream) Stream.Policy.default).2 _ _ ?_).1
    intro files hfiles f hf
    have hread : f.2 = blobOf forgedStream := by
      cases hfiles
      rw [List.mem_singleton] at hf
      rw [hf]
    rw [hread]
    exact hfit

end Idryx.Tokenfuse
