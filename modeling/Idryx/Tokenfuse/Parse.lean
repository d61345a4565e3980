import Idryx.Model
import Idryx.Lib.KeepFirst
import Idryx.Lib.StableSort
import Idryx.Stream.Policy

/-!
# The event-stream reader

`parse` of `internal/ingest/tokenfuse`: one NDJSON blob of agent-event envelopes, read line by line
into identities, events and a report.

* `Bus`: what the reader calls outside this repository (the envelope decoder, the chain verifier) and
  `time.Parse`; `Report` and its tallies, `Scan`: the variables of the loop;
* `parseLine`, `parse`; **`parseLine_turn`**: what one turn of the loop can do;
* `admitted`: the envelopes of a blob that parse and may be carried by its file;
  **`parse_out`**: the identities and events of `parse` are made from these alone;
* **`emit_identities`**: of the entries the admitted envelopes name, the first of each agent and of
  each human is kept.
-/

namespace Idryx.Tokenfuse

/-! ## What the reader is given -/

/-- The fields of an agent-event envelope the reader uses. -/
structure Envelope where
  ts : GoString
  source : GoString
  type : GoString
  agentID : GoString
  onBehalfOf : List GoString
  severity : GoString
  deriving DecidableEq

/-- A break found by `event.VerifyChain`. -/
structure VerifyBreak where
  line : Nat
  expected : GoString
  found : GoString

/-- What `event.VerifyChain` reports. -/
structure VerifyReport where
  chained : Nat
  headLines : List Nat
  unverifiable : List Nat
  breaks : List VerifyBreak

/-- `event.Unmarshal`, `event.VerifyChain` and `passport.IsClaimedSubject` of the shared module, and
`time.Parse(time.RFC3339, ·)`, which names a location of the machine. A claimed subject is written
`claimed:` and the identity it claims. -/
structure Bus where
  unicode : Unicode
  unmarshal : GoString → Option Envelope
  parseTime : GoString → Option Time
  verifyChain : GoString → Option VerifyReport
  isClaimedSubject : GoString → Bool
  claimed_prefix : ∀ s, isClaimedSubject s = true → Strings.hasPrefix s "claimed:" = true

/-! ## The report -/

/-- What one source contributed. -/
structure SourceTally where
  events : Nat
  read : Nat
  deriving DecidableEq

/-- One (file, claimed source) pair whose events were refused. -/
structure Foreign where
  file : GoString
  stem : GoString
  claimed : GoString
  count : Nat
  allowed : List GoString

/-- One file of an undeclared stream that was read. -/
structure UnknownFile where
  file : GoString
  stem : GoString
  count : Nat

/-- A `prev_hash` that does not match. -/
structure ChainBreak where
  file : GoString
  line : Nat
  expected : GoString
  found : GoString

/-- The verdict of the `prev_hash` check. -/
structure Chain where
  verified : Bool
  chained : Nat
  heads : Nat
  unverifiable : List Nat
  breaks : List ChainBreak

/-- What is counted of the lines that were read. -/
structure Report where
  lines : Nat
  malformed : Nat
  unknownTypes : List (GoString × Nat)
  chain : Chain
  sources : List (GoString × SourceTally)
  foreignSource : Nat
  foreign : List Foreign
  unknownStream : Nat
  unknown : List UnknownFile

/-- How many pairs of a stem and a source are listed. -/
def maxForeignPairs : Nat := 64

/-- `m[k] += n`. -/
def bump (m : List (GoString × Nat)) (k : GoString) (n : Nat) : List (GoString × Nat) :=
  Keyed.upsert Prod.fst k (k, n) (fun p => (p.1, p.2 + n)) m

/-- `m[k]` with `t` added to it. -/
def tally (m : List (GoString × SourceTally)) (k : GoString) (t : SourceTally) :
    List (GoString × SourceTally) :=
  Keyed.upsert Prod.fst k (k, t) (fun p => (p.1, ⟨p.2.events + t.events, p.2.read + t.read⟩)) m

/-- No hash was checked. -/
def Chain.unchecked : Chain := ⟨false, 0, 0, [], []⟩

/-- Nothing is read yet. -/
def newReport : Report := ⟨0, 0, [], Chain.unchecked, [], 0, [], 0, []⟩

/-- The verifier's report as a `Chain`, its breaks stamped with the file. -/
def verifyChain (B : Bus) (data file : GoString) : Chain :=
  match B.verifyChain data with
  | none => Chain.unchecked
  | some r =>
    { verified := true, chained := r.chained, heads := r.headLines.length,
      unverifiable := r.unverifiable,
      breaks := r.breaks.map fun b => ⟨file, b.line, b.expected, b.found⟩ }

/-- The map key of a refused pair. -/
def Foreign.key (f : Foreign) : GoString := f.file ++ [0] ++ f.claimed

/-- Count a refused event under its pair, or name the pair while there is room. -/
def noteForeign (foreign : List Foreign) (f : Foreign) : List Foreign :=
  if f.key ∈ foreign.map Foreign.key ∨ foreign.length < maxForeignPairs then
    Keyed.upsert Foreign.key f.key f (fun g => { g with count := g.count + 1 }) foreign
  else foreign

/-- The same for a file of an undeclared stream. -/
def noteUnknown (unknown : List UnknownFile) (u : UnknownFile) : List UnknownFile :=
  if u.file ∈ unknown.map UnknownFile.file ∨ unknown.length < maxForeignPairs then
    Keyed.upsert UnknownFile.file u.file u (fun v => { v with count := v.count + 1 }) unknown
  else unknown

/-! ## Identities and events of an envelope -/

/-- The event types a detector reads, by their wire values. -/
def knownTypes : List (GoString × GoString) :=
  [("budget_exhausted", eventBudgetExhausted), ("sustained_loop", eventSustainedLoop),
    ("spend_spike", eventSpendSpike), ("fanout_explosion", eventFanoutExplosion),
    ("breaker_tripped", eventBreakerTripped), ("dlp_block", eventDLPBlock),
    ("taint_block", eventTaintBlock), ("mcp_drift", eventMCPDrift), ("web_fetch", eventWebFetch),
    ("web_blocked", eventWebBlocked)]

/-- `knownTypes[t]`. -/
def knownType (t : GoString) : Option GoString := (Keyed.lookup Prod.fst t knownTypes).map Prod.snd

/-- The identity of the acting agent; a claimed subject is not typed as an agent. -/
def agentIdentity (B : Bus) (env : Envelope) : Identity :=
  { Identity.zero env.agentID with
    type := if B.isClaimedSubject env.agentID then identityHuman else identityAgent
    source := env.source
    onBehalfOf := env.onBehalfOf }

/-- The identity of a human principal named in the chain. -/
def humanIdentity (env : Envelope) (p : GoString) : Identity :=
  { Identity.zero p with type := identityHuman, source := env.source }

/-- The principal is a human. -/
def isUser (p : GoString) : Bool := Strings.hasPrefix p "user://"

/-- The event of an envelope. -/
def eventOf (env : Envelope) (ts : Time) : Event :=
  { time := ts, identityID := env.agentID, type := (knownType env.type).getD env.type, outcome := "",
    ip := "", city := "", country := "", lat := default, lon := default, device := "",
    resource := "", severity := env.severity, source := env.source }

theorem eventOf_type (env : Envelope) (ts : Time) : (eventOf env ts).type = env.type := by
  have hvals : ∀ row ∈ knownTypes, row.2 = row.1 := by decide
  show (knownType env.type).getD env.type = env.type
  unfold knownType
  cases h : Keyed.lookup Prod.fst env.type knownTypes with
  | none => rfl
  | some row => exact (hvals row (Keyed.mem_of_lookup h)).trans (Keyed.lookup_key h)

/-- What the loop has returned so far, with the agents and humans it has seen. -/
structure Emitted where
  seenAgents : List GoString
  seenHumans : List GoString
  identities : List Identity
  events : List Event

namespace Emitted

/-- Nothing is emitted. -/
def empty : Emitted := ⟨[], [], [], []⟩

/-- Append an identity unless its id was seen, among the agents or among the humans. -/
def once (o : Emitted) (isAgent : Bool) (i : Identity) : Emitted :=
  if isAgent then
    if o.seenAgents.contains i.id then o
    else { o with seenAgents := i.id :: o.seenAgents, identities := o.identities ++ [i] }
  else
    if o.seenHumans.contains i.id then o
    else { o with seenHumans := i.id :: o.seenHumans, identities := o.identities ++ [i] }

/-- An identity for an agent not seen before. -/
def agent (B : Bus) (env : Envelope) (o : Emitted) : Emitted := o.once true (agentIdentity B env)

/-- An identity for a human principal not seen before. -/
def human (env : Envelope) (o : Emitted) (p : GoString) : Emitted :=
  if isUser p then o.once false (humanIdentity env p) else o

/-- What an admitted envelope adds. -/
def ingest (B : Bus) (o : Emitted) (env : Envelope) (ts : Time) : Emitted :=
  let o := env.onBehalfOf.foldl (human env) (o.agent B env)
  { o with events := o.events ++ [eventOf env ts] }

end Emitted

/-! ## The loop -/

/-- The variables of the loop. -/
structure Scan where
  rep : Report
  foreign : List Foreign
  unknown : List UnknownFile
  out : Emitted

/-- The tallies of an ingested event. -/
def Report.record (rep : Report) (env : Envelope) : Report :=
  let known := (knownType env.type).isSome
  { rep with
    unknownTypes := if known then rep.unknownTypes else bump rep.unknownTypes env.type 1
    sources := tally rep.sources env.source ⟨1, if known then 1 else 0⟩ }

namespace Scan

/-- An envelope past the stream rule. -/
def ingest (B : Bus) (st : Scan) (env : Envelope) (ts : Time) : Scan :=
  { st with rep := st.rep.record env, out := st.out.ingest B env ts }

/-- An envelope whose source the file may not carry. -/
def refuse (st : Scan) (pol : Stream.Policy) (file stem : GoString) (env : Envelope) : Scan :=
  { st with
    rep := { st.rep with foreignSource := st.rep.foreignSource + 1 }
    foreign := noteForeign st.foreign ⟨file, stem, env.source, 1, pol.allowedFor stem⟩ }

/-- An envelope of an undeclared stream that claims the stream's own name. -/
def noteStream (st : Scan) (file stem : GoString) : Scan :=
  { st with
    rep := { st.rep with unknownStream := st.rep.unknownStream + 1 }
    unknown := noteUnknown st.unknown ⟨file, stem, 1⟩ }

/-- A line that is no event. -/
def malformed (st : Scan) : Scan :=
  { st with rep := { st.rep with malformed := st.rep.malformed + 1 } }

end Scan

/-- One turn of the loop. -/
def parseLine (B : Bus) (pol : Option Stream.Policy) (file stem : GoString) (st : Scan) (bytes : GoString) :
    Scan :=
  let line := Strings.trimSpace bytes
  if line = [] then st
  else
    let st := { st with rep := { st.rep with lines := st.rep.lines + 1 } }
    match B.unmarshal line with
    | none => st.malformed
    | some env =>
      match B.parseTime env.ts with
      | none => st.malformed
      | some ts =>
        match pol with
        | none => st.ingest B env ts
        | some p =>
          match p.check stem env.source with
          | .foreign => st.refuse p file stem env
          | .allowedUnknownStem => (st.noteStream file stem).ingest B env ts
          | .allowed => st.ingest B env ts

/-- The scanner's maximum token size. -/
def maxTokenSize : Nat := 4 * 1024 * 1024

/-- What `parse` returns. -/
structure Parsed where
  identities : List Identity
  events : List Event
  rep : Report

/-- The loop over the lines the scanner yields. -/
def scan (B : Bus) (pol : Option Stream.Policy) (file data : GoString) : Scan :=
  (Bufio.scanLines maxTokenSize data).foldl (parseLine B pol file (Stream.stem file))
    { rep := { newReport with chain := verifyChain B data file }
      foreign := [], unknown := [], out := Emitted.empty }

/-- `parse`: the loop, then the refused pairs and the undeclared files in order. -/
def parse (B : Bus) (data file : GoString) (pol : Option Stream.Policy) : Parsed :=
  let st := scan B pol file data
  { identities := st.out.identities
    events := st.out.events
    rep :=
      { st.rep with
        foreign := st.foreign.insertionSort
          (StableSort.orderBy (fun a b => a.claimed ≤ b.claimed) Foreign.file)
        unknown := st.unknown.insertionSort fun a b => a.file ≤ b.file } }

/-! ## The admitted envelopes -/

/-- The file may carry the source; without a policy every file may. -/
def admits (pol : Option Stream.Policy) (stem source : GoString) : Bool :=
  match pol with
  | none => true
  | some p => p.check stem source != .foreign

/-- The event of a line that is read into the graph. -/
def admittedLine (B : Bus) (pol : Option Stream.Policy) (stem bytes : GoString) : Option (Envelope × Time) :=
  let line := Strings.trimSpace bytes
  if line = [] then none
  else
    match B.unmarshal line with
    | none => none
    | some env =>
      match B.parseTime env.ts with
      | none => none
      | some ts => if admits pol stem env.source then some (env, ts) else none

/-- The admitted events of a blob, in order. -/
def admitted (B : Bus) (pol : Option Stream.Policy) (file data : GoString) : List (Envelope × Time) :=
  ((Bufio.newlines data).takeWhile (·.length < maxTokenSize)).filterMap
    (admittedLine B pol (Stream.stem file))

/-- Every line of the blob fits in the scanner's buffer. -/
def Fits (data : GoString) : Prop := ∀ l ∈ Bufio.newlines data, l.length < maxTokenSize

instance (data : GoString) : Decidable (Fits data) := List.decidableBAll _ _

theorem takeWhile_of_fits {data : GoString} (h : Fits data) :
    (Bufio.newlines data).takeWhile (·.length < maxTokenSize) = Bufio.newlines data :=
  List.takeWhile_eq_self_iff.mpr fun l hl => decide_eq_true (h l hl)

/-- The identities and events of a list of admitted events. -/
def emit (B : Bus) (xs : List (Envelope × Time)) : Emitted :=
  xs.foldl (fun o x => o.ingest B x.1 x.2) Emitted.empty

/-- The scan once a line is counted, before it stands under a heading. -/
def Scan.counted (st : Scan) : Scan := { st with rep := { st.rep with lines := st.rep.lines + 1 } }

section Admitted

variable (B : Bus) (pol : Option Stream.Policy) (file stem : GoString)

theorem parseLine_dropCR (st : Scan) (bytes : GoString) :
    parseLine B pol file stem st (Bufio.dropCR bytes) = parseLine B pol file stem st bytes := by
  simp only [parseLine, Bufio.trimSpace_dropCR]

theorem parseLine_nil (st : Scan) : parseLine B pol file stem st [] = st := rfl

/-- **What one turn can do**: a blank line does nothing; any other is counted and is malformed, refused
or ingested, the last exactly if its event is admitted. -/
inductive Turn (st : Scan) (bytes : GoString) : Scan → Prop
  | blank : Strings.trimSpace bytes = [] → admittedLine B pol stem bytes = none → Turn st bytes st
  | malformed : Strings.trimSpace bytes ≠ [] → admittedLine B pol stem bytes = none →
      Turn st bytes st.counted.malformed
  | foreign (p : Stream.Policy) (env : Envelope) : Strings.trimSpace bytes ≠ [] →
      admittedLine B pol stem bytes = none → Turn st bytes (st.counted.refuse p file stem env)
  | ingested (env : Envelope) (ts : Time) : Strings.trimSpace bytes ≠ [] →
      admittedLine B pol stem bytes = some (env, ts) → Turn st bytes (st.counted.ingest B env ts)
  | unknownStream (env : Envelope) (ts : Time) : Strings.trimSpace bytes ≠ [] →
      admittedLine B pol stem bytes = some (env, ts) →
      Turn st bytes ((st.counted.noteStream file stem).ingest B env ts)

theorem parseLine_turn (st : Scan) (bytes : GoString) :
    Turn B pol file stem st bytes (parseLine B pol file stem st bytes) := by
  by_cases hblank : Strings.trimSpace bytes = []
  · have hline : parseLine B pol file stem st bytes = st := by simp only [parseLine, hblank, if_true]
    rw [hline]
    exact .blank hblank (by simp only [admittedLine, hblank, if_true])
  have hadmitted : admittedLine B pol stem bytes =
      match B.unmarshal (Strings.trimSpace bytes) with
      | none => none
      | some env =>
        match B.parseTime env.ts with
        | none => none
        | some ts => if admits pol stem env.source then some (env, ts) else none := by
    simp only [admittedLine, hblank, if_false]
  unfold parseLine
  simp only [hblank, if_false]
  cases henv : B.unmarshal (Strings.trimSpace bytes) with
  | none =>
    rw [henv] at hadmitted
    exact .malformed hblank hadmitted
  | some env =>
    rw [henv] at hadmitted
    cases hts : B.parseTime env.ts with
    | none =>
      simp only [hts] at hadmitted ⊢
      exact .malformed hblank hadmitted
    | some ts =>
      simp only [hts] at hadmitted ⊢
      cases pol with
      | none => exact .ingested env ts hblank hadmitted
      | some p =>
        have hadmits : admits (some p) stem env.source = (p.check stem env.source != .foreign) := rfl
        rw [hadmits] at hadmitted
        cases hv : p.check stem env.source with
        | foreign =>
          rw [hv] at hadmitted
          simp only [hv]
          exact .foreign p env hblank hadmitted
        | allowedUnknownStem =>
          rw [hv] at hadmitted
          simp only [hv]
          exact .unknownStream env ts hblank hadmitted
        | allowed =>
          rw [hv] at hadmitted
          simp only [hv]
          exact .ingested env ts hblank hadmitted

/-- **One line**: it adds its event if that is admitted, and otherwise nothing. -/
theorem parseLine_out (st : Scan) (bytes : GoString) :
    (parseLine B pol file stem st bytes).out =
      match admittedLine B pol stem bytes with
      | none => st.out
      | some x => st.out.ingest B x.1 x.2 := by
  have hturn := parseLine_turn B pol file stem st bytes
  generalize parseLine B pol file stem st bytes = st' at hturn ⊢
  cases hturn with
  | blank _ h => rw [h]
  | malformed _ h => rw [h]; rfl
  | foreign _ _ _ h => rw [h]; rfl
  | ingested _ _ _ h => rw [h]; rfl
  | unknownStream _ _ _ h => rw [h]; rfl

theorem foldl_parseLine_out (st : Scan) (ls : List GoString) :
    (ls.foldl (parseLine B pol file stem) st).out =
      (ls.filterMap (admittedLine B pol stem)).foldl (fun o x => o.ingest B x.1 x.2) st.out := by
  induction ls generalizing st with
  | nil => rfl
  | cons l ls ih =>
    rw [List.foldl_cons, ih, parseLine_out, List.filterMap_cons]
    cases admittedLine B pol stem l <;> rfl

theorem scan_eq (data : GoString) : scan B pol file data =
    ((Bufio.newlines data).takeWhile (·.length < maxTokenSize)).foldl
      (parseLine B pol file (Stream.stem file))
      { rep := { newReport with chain := verifyChain B data file }
        foreign := [], unknown := [], out := Emitted.empty } :=
  Bufio.foldl_scanLines (parseLine_dropCR B pol file _) (parseLine_nil B pol file _) _ _ _

/-- **The identities and events of a blob are made from its admitted events.** -/
theorem parse_out (data : GoString) :
    (parse B data file pol).identities = (emit B (admitted B pol file data)).identities ∧
      (parse B data file pol).events = (emit B (admitted B pol file data)).events := by
  have hout : (scan B pol file data).out = emit B (admitted B pol file data) := by
    rw [scan_eq, foldl_parseLine_out]
    rfl
  exact ⟨congrArg Emitted.identities hout, congrArg Emitted.events hout⟩

end Admitted

/-! ## What is emitted -/

/-- The entries an envelope names: its agent (`true`) and the humans of its chain. -/
def entries (B : Bus) (env : Envelope) : List (Bool × Identity) :=
  (true, agentIdentity B env) ::
    (env.onBehalfOf.filter isUser).map fun p => (false, humanIdentity env p)

/-- Two entries for one agent, or for one human. -/
def sameEntry (a b : Bool × Identity) : Bool := a.1 == b.1 && a.2.id == b.2.id

/-- What the loop has emitted are these entries, and it has seen their ids. -/
structure Emits (o : Emitted) (ks : List (Bool × Identity)) : Prop where
  identities : o.identities = ks.map Prod.snd
  agents : ∀ id, id ∈ o.seenAgents ↔ ∃ k ∈ ks, k.1 = true ∧ k.2.id = id
  humans : ∀ id, id ∈ o.seenHumans ↔ ∃ k ∈ ks, k.1 = false ∧ k.2.id = id

theorem any_sameEntry {ks : List (Bool × Identity)} {k : Bool × Identity} :
    ks.any (sameEntry · k) = true ↔ ∃ j ∈ ks, j.1 = k.1 ∧ j.2.id = k.2.id := by
  simp [sameEntry]

theorem exists_mem_concat {α : Type*} {P : α → Prop} {ks : List α} {x : α} :
    (∃ k ∈ ks ++ [x], P k) ↔ (∃ k ∈ ks, P k) ∨ P x := by
  simp [or_and_right, exists_or]

namespace Emits

variable {B : Bus} {o : Emitted} {ks : List (Bool × Identity)}

theorem empty : Emits Emitted.empty [] := ⟨rfl, by simp [Emitted.empty], by simp [Emitted.empty]⟩

theorem once (h : Emits o ks) (isAgent : Bool) (i : Identity) :
    Emits (o.once isAgent i) (KeepFirst.keepFirst sameEntry ks [(isAgent, i)]) := by
  have hids : (o.identities ++ [i]) = (ks ++ [(isAgent, i)]).map Prod.snd := by
    rw [h.identities, List.map_append]
    rfl
  rw [KeepFirst.keepFirst, List.foldl_cons, List.foldl_nil]
  cases isAgent with
  | true =>
    have hseen : o.seenAgents.contains i.id = true ↔ ks.any (sameEntry · (true, i)) = true := by
      rw [List.contains_iff_mem, h.agents, any_sameEntry]
    show Emits (if o.seenAgents.contains i.id then o else _) _
    by_cases hs : o.seenAgents.contains i.id = true
    · rw [if_pos hs, if_pos (hseen.mp hs)]
      exact h
    · rw [if_neg hs, if_neg fun hk => hs (hseen.mpr hk)]
      refine ⟨hids, fun id => ?_, fun id => ?_⟩
      · rw [List.mem_cons, h.agents, exists_mem_concat, or_comm]
        exact or_congr_right ⟨fun e => ⟨rfl, e.symm⟩, fun e => e.2.symm⟩
      · rw [h.humans, exists_mem_concat]
        simp
  | false =>
    have hseen : o.seenHumans.contains i.id = true ↔ ks.any (sameEntry · (false, i)) = true := by
      rw [List.contains_iff_mem, h.humans, any_sameEntry]
    show Emits (if o.seenHumans.contains i.id then o else _) _
    by_cases hs : o.seenHumans.contains i.id = true
    · rw [if_pos hs, if_pos (hseen.mp hs)]
      exact h
    · rw [if_neg hs, if_neg fun hk => hs (hseen.mpr hk)]
      refine ⟨hids, fun id => ?_, fun id => ?_⟩
      · rw [h.agents, exists_mem_concat]
        simp
      · rw [List.mem_cons, h.humans, exists_mem_concat, or_comm]
        exact or_congr_right ⟨fun e => ⟨rfl, e.symm⟩, fun e => e.2.symm⟩

theorem foldl_human (h : Emits o ks) (env : Envelope) (ps : List GoString) :
    Emits (ps.foldl (Emitted.human env) o) (KeepFirst.keepFirst sameEntry ks
      ((ps.filter isUser).map fun p => (false, humanIdentity env p))) := by
  induction ps generalizing o ks with
  | nil => exact h
  | cons p ps ih =>
    rw [List.foldl_cons, List.filter_cons]
    by_cases hp : isUser p = true
    · rw [if_pos hp, List.map_cons]
      have hhuman : o.human env p = o.once false (humanIdentity env p) := if_pos hp
      have hrest := ih (h.once false (humanIdentity env p))
      rwa [← KeepFirst.keepFirst_append, ← hhuman] at hrest
    · have hhuman : o.human env p = o := if_neg hp
      rw [if_neg hp, hhuman]
      exact ih h

theorem ingest (h : Emits o ks) (env : Envelope) (ts : Time) :
    Emits (o.ingest B env ts) (KeepFirst.keepFirst sameEntry ks (entries B env)) := by
  have hall := (h.once true (agentIdentity B env)).foldl_human env env.onBehalfOf
  rw [← KeepFirst.keepFirst_append] at hall
  exact ⟨hall.identities, hall.agents, hall.humans⟩

theorem foldl_ingest (h : Emits o ks) (xs : List (Envelope × Time)) :
    Emits (xs.foldl (fun o x => o.ingest B x.1 x.2) o)
      (KeepFirst.keepFirst sameEntry ks (xs.flatMap fun x => entries B x.1)) := by
  induction xs generalizing o ks with
  | nil => exact h
  | cons x xs ih =>
    rw [List.foldl_cons, List.flatMap_cons, KeepFirst.keepFirst_append]
    exact ih (h.ingest x.1 x.2)

end Emits

/-- **The identities of a blob**: of the entries its admitted events name, the first of each agent
and of each human. -/
theorem emit_identities (B : Bus) (xs : List (Envelope × Time)) : (emit B xs).identities =
    (KeepFirst.keepFirst sameEntry [] (xs.flatMap fun x => entries B x.1)).map Prod.snd :=
  (Emits.empty.foldl_ingest xs).identities

theorem events_once (o : Emitted) (isAgent : Bool) (i : Identity) :
    (o.once isAgent i).events = o.events := by
  unfold Emitted.once
  split_ifs <;> rfl

theorem events_foldl_human (o : Emitted) (env : Envelope) (ps : List GoString) :
    (ps.foldl (Emitted.human env) o).events = o.events := by
  apply Loop.foldl_fixed
  intro o p _
  unfold Emitted.human
  split_ifs
  · exact events_once o false _
  · rfl

theorem events_ingest (B : Bus) (o : Emitted) (env : Envelope) (ts : Time) :
    (o.ingest B env ts).events = o.events ++ [eventOf env ts] := by
  show (env.onBehalfOf.foldl (Emitted.human env) (o.agent B env)).events ++ [eventOf env ts] = _
  rw [events_foldl_human, Emitted.agent, events_once]

theorem emit_events (B : Bus) (xs : List (Envelope × Time)) :
    (emit B xs).events = xs.map fun x => eventOf x.1 x.2 := by
  unfold emit
  rw [Loop.foldl_append (f := Emitted.events) fun o x => events_ingest B o x.1 x.2]
  exact (List.map_eq_flatMap ..).symm

/-! ## A bus of given envelopes -/

/-- An envelope of the type and time the tests of the reader write. -/
def plainEnvelope (source agentID : GoString) (onBehalfOf : List GoString) : Envelope :=
  { ts := "2026-07-09T10:00:00Z", source := source, type := "spend_spike", agentID := agentID,
    onBehalfOf := onBehalfOf, severity := "high" }

/-- The line of an envelope whose strings need no escape. -/
def Envelope.line (env : Envelope) : GoString :=
  let quoted := fun s : GoString => ("\"" : GoString) ++ s ++ ("\"" : GoString)
  ("\x7b\"schema\":\"taipanbox.dev/agent-event/v0.2\",\"ts\":" : GoString) ++ quoted env.ts ++
    (",\"source\":" : GoString) ++ quoted env.source ++ (",\"type\":" : GoString) ++
    quoted env.type ++ (",\"severity\":" : GoString) ++ quoted env.severity ++
    (",\"agent_id\":" : GoString) ++ quoted env.agentID ++ (",\"on_behalf_of\":[" : GoString) ++
    Strings.join (env.onBehalfOf.map quoted) "," ++ ("]\x7d" : GoString)

/-- The lines of the envelopes, each ended by a newline. -/
def blobOf (envs : List Envelope) : GoString :=
  envs.flatMap fun env => env.line ++ [0x0A]

/-- A bus that decodes the lines of these envelopes, which carry no `prev_hash`, and no others. -/
def busOf (envs : List Envelope) : Bus where
  unicode := Unicode.basic
  unmarshal l := envs.find? (·.line == l)
  parseTime ts := if ts = "2026-07-09T10:00:00Z" then some (.seconds 63919188000) else none
  verifyChain data :=
    if Fits data then
      some { chained := 0
             headLines := ((Bufio.newlines data).zipIdx 1).filterMap fun p =>
               (envs.find? (·.line == p.1)).map fun _ => p.2
             unverifiable := []
             breaks := [] }
    else none
  isClaimedSubject s := Strings.hasPrefix s "claimed:agent://"
  claimed_prefix s hs := by
    have h1 : ("claimed:" : GoString) <+: "claimed:agent://" := by decide
    rw [Strings.hasPrefix, List.isPrefixOf_iff_prefix] at hs ⊢
    exact h1.trans hs

end Idryx.Tokenfuse
