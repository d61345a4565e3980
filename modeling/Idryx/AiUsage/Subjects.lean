import Idryx.Model
import Idryx.Lib.Groups
import Idryx.AiUsage.Sanitize
import Idryx.Detect.LLM

/-!
# Subjects and what is said of them

`internal/aiusage/subjects.go`: per subject and provider, what is declared, seen and found in code.

* `gather`; `mem_declared_gather`, `mem_hosts_gather`, `seen_gather`: what one identity says on each side;
* `subjectRows`, `buildSubjects`; **`exists_seenNotDeclared`**: the identities with a row that was seen
  and is not declared.
-/

namespace Idryx.AiUsage

/-! ## Rows -/

/-- The disagreements, under the names of the constants. -/
inductive Gap where
  | agrees | declaredNotSeen | declaredBusOnly | seenNotDeclared | seenNoDeclaration
  | declaresNoModels | noDeclaration | inCodeNotSeen
  deriving DecidableEq

/-- What the egress side saw. -/
inductive Seen where
  | egress | busOnly | none
  deriving DecidableEq

/-- What the code scan says. -/
inductive Code where
  | found | notFound | notScanned
  deriving DecidableEq

/-- The sources of a report. -/
inductive Source where
  | declared | bus | egress | ebpf | code
  deriving DecidableEq

/-- What one source contributed. -/
structure SourceRow where
  source : Source
  present : Bool
  count : Nat
  detail : GoString

/-- How many events one bus source wrote. -/
structure BusCount where
  source : GoString
  events : Nat

/-- One subject and one provider; a row about no provider has no `code`. -/
structure SubjectRow where
  subject : GoString
  kind : GoString
  attribution : GoString
  provider : GoString
  declared : Bool
  models : List GoString
  seen : Seen
  via : List GoString
  hosts : List GoString
  bus : List BusCount
  code : Option Code
  codeSites : Nat
  gap : Gap

/-- One provider's presence in the code. -/
structure CodeScanEntry where
  sites : Nat
  labels : List GoString

/-- The coded leg: a map from providers to entries. -/
structure CodeScan where
  root : GoString
  generatedAt : GoString
  tool : GoString
  limits : List GoString
  providers : List (GoString × CodeScanEntry)
  nodup : (providers.map Prod.fst).Nodup

/-- The provider id of a destination, if it is one the sensor knows. -/
abbrev MatchHost : Type := GoString → Option GoString

/-! ## One identity -/

/-- A provider as it is compared: trimmed, and in lower case. -/
def normalize (U : Unicode) (provider : GoString) : GoString :=
  Strings.toLower U (Strings.trimSpace provider)

/-- A destination without its port, in lower case. -/
def hostOnly (U : Unicode) (dest : GoString) : GoString :=
  Strings.toLower U (Strings.trimSpace (beforePort dest))

/-- `ebpfcapture.IdentityPrefix` and `ebpfcapture.ClaimedPrefix`. -/
def identityPrefix : GoString := "proc:"

@[inherit_doc identityPrefix]
def claimedPrefix : GoString := "claimed:"

/-- The id is one the sensor makes. -/
def isCaptured (id : GoString) : Bool :=
  Strings.hasPrefix id identityPrefix || Strings.hasPrefix id claimedPrefix

/-- A declaration was loaded for the identity at all. -/
def hasDeclaration (id : Identity) : Bool :=
  id.source == "passport" || !id.declaredModels.isEmpty || id.attestation != ""

/-- The kind of a subject, and how it is attributed. -/
def classify (id : Identity) : GoString × GoString :=
  if Strings.hasPrefix id.id claimedPrefix then ("claimed agent", "self-declared")
  else if Strings.hasPrefix id.id identityPrefix then ("process", "process name")
  else if id.type = identityAgent then ("agent", "")
  else if id.type = identityServiceAccount then ("service account", "")
  else if id.type = identityKey then ("key", "")
  else if id.type = identityMCPServer then ("mcp server", "")
  else if id.type = identityHuman then ("human", "")
  else (id.type, "")

/-- What one identity says on each side. -/
structure SubjectFacts where
  declared : List (GoString × List GoString)
  hosts : List GoString
  seen : List (GoString × List GoString)
  bus : List (GoString × Nat)

variable (U : Unicode) (matchHost : MatchHost)

/-- One turn of the loop over the declared models. -/
def SubjectFacts.declare (f : SubjectFacts) (m : DeclaredModel) : SubjectFacts :=
  let p := normalize U m.provider
  if p = "" then f
  else
    let name := Strings.trimSpace m.model
    { f with
      declared :=
        if name ≠ "" then
          Keyed.upsert Prod.fst p (p, [name]) (fun row => (row.1, row.2 ++ [name])) f.declared
        else Keyed.upsert Prod.fst p (p, []) (fun row => row) f.declared
      hosts :=
        if m.endpoint ≠ "" then Groups.insertMember f.hosts (hostOnly U m.endpoint) else f.hosts }

/-- One turn of the loop over the events. -/
def SubjectFacts.observe (f : SubjectFacts) (e : Event) : SubjectFacts :=
  if e.type = eventEgress then
    match matchHost e.resource with
    | none => f
    | some provider =>
      let p := normalize U provider
      if p = "" then f
      else { f with seen := Groups.insert p (hostOnly U e.resource) f.seen }
  else if e.source ≠ "" then
    { f with bus := Keyed.upsert Prod.fst e.source (e.source, 1) (fun row => (row.1, row.2 + 1)) f.bus }
  else f

/-- What the declared models and the events of an identity say. -/
def gather (id : Identity) : SubjectFacts :=
  id.events.foldl (SubjectFacts.observe U matchHost)
    (id.declaredModels.foldl (SubjectFacts.declare U) ⟨[], [], [], []⟩)

/-- The provider was reached, and only on hosts the declaration names. -/
def SubjectFacts.coveredByEndpoint (f : SubjectFacts) (provider : GoString) : Bool :=
  let hosts := Groups.members f.seen provider
  if hosts.isEmpty then false else hosts.all fun h => f.hosts.contains h

/-- The events of each source of the bus, by name. -/
def busCounts (bus : List (GoString × Nat)) : List BusCount :=
  (bus.map fun row => ⟨row.1, row.2⟩).insertionSort fun a b => a.source ≤ b.source

/-- The members of a list, each once and in order. -/
def dedupeSorted (xs : List GoString) : List GoString :=
  Strings.sort (xs.foldl Groups.insertMember [])

theorem mem_dedupeSorted {xs : List GoString} {x : GoString} : x ∈ dedupeSorted xs ↔ x ∈ xs := by
  rw [dedupeSorted, Strings.sort, List.mem_insertionSort, Groups.mem_foldl_members]
  simp

theorem nodup_dedupeSorted (xs : List GoString) : (dedupeSorted xs).Nodup :=
  (List.perm_insertionSort _ _).nodup_iff.mpr (Groups.nodup_foldl_insertMember List.nodup_nil xs)

theorem length_dedupeSorted_le (xs : List GoString) : (dedupeSorted xs).length ≤ xs.length :=
  (List.subperm_of_subset (nodup_dedupeSorted xs) fun _ => mem_dedupeSorted.mp).length_le

/-- The entry of a provider in the scan, and the number of its sites. -/
def CodeScan.sites (scan : CodeScan) (p : GoString) : Nat :=
  ((Keyed.lookup Prod.fst p scan.providers).map fun row => row.2.sites).getD 0

/-- The row of an identity about no provider. -/
def bareRow (id : Identity) (f : SubjectFacts) : SubjectRow :=
  { subject := id.id
    kind := (classify id).1
    attribution := (classify id).2
    provider := ""
    declared := false
    models := []
    seen := if f.bus ≠ [] then .busOnly else .none
    via := []
    hosts := []
    bus := busCounts f.bus
    code := none
    codeSites := 0
    gap := if hasDeclaration id then .declaresNoModels else .noDeclaration }

/-- The row of an identity about one provider. -/
def providerRow (scan : Option CodeScan) (id : Identity) (f : SubjectFacts) (p : GoString) :
    SubjectRow :=
  let declared := (f.declared.map Prod.fst).contains p || f.coveredByEndpoint p
  let reached := (f.seen.map Prod.fst).contains p
  let seen : Seen := if reached then .egress else if f.bus ≠ [] then .busOnly else .none
  let sites := (scan.map fun scan => scan.sites p).getD 0
  { subject := id.id
    kind := (classify id).1
    attribution := (classify id).2
    provider := p
    declared := declared
    models := dedupeSorted (((Keyed.lookup Prod.fst p f.declared).map Prod.snd).getD [])
    seen := seen
    via := if reached then [if isCaptured id.id then "ebpf" else "egress-log"] else []
    hosts := if reached then Strings.sort (Groups.members f.seen p) else []
    bus := busCounts f.bus
    code := some (if scan.isNone then .notScanned else if 0 < sites then .found else .notFound)
    codeSites := sites
    gap :=
      if declared && seen == .egress then .agrees
      else if declared && seen == .busOnly then .declaredBusOnly
      else if declared then .declaredNotSeen
      else if f.declared ≠ [] then .seenNotDeclared
      else .seenNoDeclaration }

/-- The providers an identity declares or was seen reaching. -/
def SubjectFacts.providers (f : SubjectFacts) : List GoString :=
  (f.declared.map Prod.fst ++ f.seen.map Prod.fst).foldl Groups.insertMember []

/-- The rows of one identity: none if it is no subject. -/
def subjectRows (scan : Option CodeScan) (id : Identity) : List SubjectRow :=
  let f := gather U matchHost id
  if !id.isAgent && f.declared.isEmpty && f.seen.isEmpty then []
  else if f.providers.isEmpty then [bareRow id f]
  else (Strings.sort f.providers).map (providerRow scan id f)

/-! ## All of them -/

/-- The counts behind the sources. -/
structure Tally where
  declaredSubjects : Nat
  modelSubjects : Nat
  busEvents : Nat
  egressEvents : Nat
  ebpfEvents : Nat
  providerFlows : Nat
  busSubjects : List GoString
  egressSubjects : List GoString
  ebpfSubjects : List GoString
  busSources : List GoString

/-- One turn of the inner loop, over the events of one identity. -/
def Tally.event (id : GoString) (t : Tally) (e : Event) : Tally :=
  if e.type = eventEgress then
    { t with
      egressEvents := t.egressEvents + 1
      egressSubjects := Groups.insertMember t.egressSubjects id
      ebpfEvents := if isCaptured id then t.ebpfEvents + 1 else t.ebpfEvents
      ebpfSubjects := if isCaptured id then Groups.insertMember t.ebpfSubjects id else t.ebpfSubjects
      providerFlows :=
        if (matchHost e.resource).isSome then t.providerFlows + 1 else t.providerFlows }
  else if e.source ≠ "" then
    { t with
      busEvents := t.busEvents + 1
      busSubjects := Groups.insertMember t.busSubjects id
      busSources := Groups.insertMember t.busSources e.source }
  else t

/-- One turn of the outer loop. -/
def Tally.identity (t : Tally) (id : Identity) : Tally :=
  let f := gather U matchHost id
  let t :=
    if hasDeclaration id then
      { t with
        declaredSubjects := t.declaredSubjects + 1
        modelSubjects := if f.declared ≠ [] then t.modelSubjects + 1 else t.modelSubjects }
    else t
  id.events.foldl (Tally.event matchHost id.id) t

/-- Present when something was counted. -/
def makeSourceRow (source : Source) (count : Nat) (present absent : GoString) : SourceRow :=
  if 0 < count then ⟨source, true, count, present⟩ else ⟨source, false, 0, absent⟩

/-- A set as it is listed in a text. -/
def listNames (set : List GoString) : GoString :=
  Strings.join ((Strings.sort set).map fun n => escape U n 40) ", "

/-- The row of the code scan. -/
def codeSource : Option CodeScan → SourceRow
  | none => makeSourceRow .code 0 ""
      "no code scan was supplied (run `qryx scan --format ai-inventory <path>` and pass it with --code-scan); the CODE column is not a measurement, and a scan nobody ran is not a tree with nothing in it"
  | some scan =>
    let sites := scan.providers.foldl (fun sites row => sites + row.2.sites) 0
    { source := .code
      present := true
      count := sites
      detail := Strings.trimSpace (Strings.trimSpace scan.tool ++ " scanned " ++ scan.root ++ ": " ++
        Strconv.itoa sites ++ " site(s) across " ++ Strconv.itoa scan.providers.length ++
        " provider(s); a scan has no subject, so its counts are for the whole estate") }

/-- What each source contributed. -/
def sourceRows (t : Tally) (scan : Option CodeScan) : List SourceRow :=
  [makeSourceRow .declared t.declaredSubjects
      (Strconv.itoa t.declaredSubjects ++ " subject(s) carry a declaration, " ++
        Strconv.itoa t.modelSubjects ++ " of them name at least one model")
      "no Passport or other declaration was loaded, so the DECLARED column is not a measurement; a subject with no declaration here is not one that declares nothing",
    makeSourceRow .bus t.busEvents
      (Strconv.itoa t.busEvents ++ " event(s) from " ++ listNames U t.busSources ++ " about " ++
        Strconv.itoa t.busSubjects.length ++
        " subject(s); the bus names no provider, so it shows a subject is active through an enforcement point and not which provider it calls")
      "no agent-event bus file was loaded, so no subject can be said to be active on the bus",
    makeSourceRow .egress t.egressEvents
      (Strconv.itoa t.egressEvents ++ " flow(s) about " ++ Strconv.itoa t.egressSubjects.length ++
        " subject(s), " ++ Strconv.itoa t.providerFlows ++
        " of them to a model provider the host vocabulary recognises")
      "no egress log or capture was loaded, so no subject can be said to have reached a provider",
    makeSourceRow .ebpf t.ebpfEvents
      (Strconv.itoa t.ebpfEvents ++ " flow(s) from " ++ Strconv.itoa t.ebpfSubjects.length ++
        " captured process(es); a flow is attributed by the process's own name or its own claim")
      "no eBPF capture is in this graph; the sensor is Linux-only and needs privilege, so a laptop is not covered, and nothing here says whether a capture ran and saw nothing",
    codeSource scan]

/-- The order of the rows: by subject, then by provider. -/
def SubjectRow.notAfter (a b : SubjectRow) : Prop :=
  a.subject < b.subject ∨ a.subject = b.subject ∧ a.provider ≤ b.provider

instance : DecidableRel SubjectRow.notAfter := fun _ _ => inferInstanceAs (Decidable (_ ∨ _))

/-- `buildSubjects`, over the identities the graph returns. -/
def buildSubjects (ids : List Identity) (scan : Option CodeScan) :
    List SubjectRow × List SourceRow :=
  ((ids.flatMap (subjectRows U matchHost scan)).insertionSort SubjectRow.notAfter,
    sourceRows U (ids.foldl (Tally.identity U matchHost) ⟨0, 0, 0, 0, 0, 0, [], [], [], []⟩) scan)

/-! ## What one identity says -/

variable {U matchHost} {id : Identity} {p h : GoString}

/-- Declared, once trimmed. -/
def Declares (U : Unicode) (ms : List DeclaredModel) (p : GoString) : Prop :=
  ∃ m ∈ ms, normalize U m.provider ≠ "" ∧ normalize U m.provider = p

/-- The host of an endpoint declared for a provider that is not blank. -/
def DeclaresHost (U : Unicode) (ms : List DeclaredModel) (h : GoString) : Prop :=
  ∃ m ∈ ms, normalize U m.provider ≠ "" ∧ m.endpoint ≠ "" ∧ hostOnly U m.endpoint = h

/-- An egress event to a provider: the provider and the host. -/
def sighting (U : Unicode) (matchHost : MatchHost) (e : Event) : Option (GoString × GoString) :=
  if e.type = eventEgress then
    match matchHost e.resource with
    | none => none
    | some provider =>
      let p := normalize U provider
      if p = "" then none else some (p, hostOnly U e.resource)
  else none

theorem mem_declared_declare (f : SubjectFacts) (m : DeclaredModel) :
    p ∈ (SubjectFacts.declare U f m).declared.map Prod.fst ↔ p ∈ f.declared.map Prod.fst ∨
      normalize U m.provider ≠ "" ∧ normalize U m.provider = p := by
  unfold SubjectFacts.declare
  by_cases hblank : normalize U m.provider = ""
  · simp [hblank]
  · simp only [if_neg hblank]
    split_ifs
    · rw [Keyed.mem_keys_upsert (by rfl) (by exact fun _ h => h), eq_comm (a := p)]
      simp only [ne_eq, hblank, not_false_eq_true, true_and]
    · rw [Keyed.mem_keys_upsert (by rfl) (by exact fun _ h => h), eq_comm (a := p)]
      simp only [ne_eq, hblank, not_false_eq_true, true_and]

theorem mem_hosts_declare (f : SubjectFacts) (m : DeclaredModel) :
    h ∈ (SubjectFacts.declare U f m).hosts ↔ h ∈ f.hosts ∨
      normalize U m.provider ≠ "" ∧ m.endpoint ≠ "" ∧ hostOnly U m.endpoint = h := by
  unfold SubjectFacts.declare
  by_cases hblank : normalize U m.provider = ""
  · simp [hblank]
  · simp only [if_neg hblank]
    split_ifs with he
    · rw [Groups.mem_insertMember, eq_comm (a := h)]
      simp only [ne_eq, hblank, he, not_false_eq_true, true_and]
    · simp only [he, false_and, and_false, or_false]

theorem seen_declare (f : SubjectFacts) (m : DeclaredModel) :
    (SubjectFacts.declare U f m).seen = f.seen := by
  unfold SubjectFacts.declare
  by_cases hblank : normalize U m.provider = ""
  · simp only [if_pos hblank]
  · simp only [if_neg hblank]

theorem observe_eq (f : SubjectFacts) (e : Event) :
    (SubjectFacts.observe U matchHost f e).declared = f.declared ∧
    (SubjectFacts.observe U matchHost f e).hosts = f.hosts ∧
    (SubjectFacts.observe U matchHost f e).seen =
      (sighting U matchHost e).elim f.seen fun o => Groups.insert o.1 o.2 f.seen := by
  unfold SubjectFacts.observe sighting
  split_ifs with htype hsource
  · cases matchHost e.resource with
    | none => exact ⟨rfl, rfl, rfl⟩
    | some provider =>
      by_cases hblank : normalize U provider = ""
      · simp [hblank]
      · simp [hblank]
  · exact ⟨rfl, rfl, rfl⟩
  · exact ⟨rfl, rfl, rfl⟩

theorem mem_declared_gather :
    p ∈ (gather U matchHost id).declared.map Prod.fst ↔ Declares U id.declaredModels p := by
  unfold gather
  rw [Loop.foldl_fixed (f := SubjectFacts.declared) fun f e _ => (observe_eq f e).1,
    Loop.foldl_iff (P := fun f : SubjectFacts => p ∈ f.declared.map Prod.fst) mem_declared_declare]
  simp only [List.map_nil, List.not_mem_nil, false_or]
  rfl

theorem mem_hosts_gather :
    h ∈ (gather U matchHost id).hosts ↔ DeclaresHost U id.declaredModels h := by
  unfold gather
  rw [Loop.foldl_fixed (f := SubjectFacts.hosts) fun f e _ => (observe_eq f e).2.1,
    Loop.foldl_iff (P := fun f : SubjectFacts => h ∈ f.hosts) mem_hosts_declare]
  simp only [List.not_mem_nil, false_or]
  rfl

theorem seen_gather : (gather U matchHost id).seen =
    Groups.ofPairs (id.events.filterMap (sighting U matchHost)) := by
  have hrun : ∀ (es : List Event) (f : SubjectFacts),
      (es.foldl (SubjectFacts.observe U matchHost) f).seen =
        (es.filterMap (sighting U matchHost)).foldl (fun g o => Groups.insert o.1 o.2 g) f.seen := by
    intro es
    induction es with
    | nil => exact fun _ => rfl
    | cons e es ih =>
      intro f
      rw [List.foldl_cons, List.filterMap_cons, ih, (observe_eq f e).2.2]
      cases sighting U matchHost e <;> rfl
  unfold gather
  rw [hrun, Loop.foldl_fixed (f := SubjectFacts.seen) fun f m _ => seen_declare f m]
  rfl

/-! ## The rows that were seen and are not declared -/

theorem gap_providerRow {scan : Option CodeScan} {f : SubjectFacts} :
    (providerRow scan id f p).gap = .seenNotDeclared ↔
      f.declared ≠ [] ∧ p ∉ f.declared.map Prod.fst ∧ f.coveredByEndpoint p = false := by
  have hdec : ((f.declared.map Prod.fst).contains p || f.coveredByEndpoint p) = false ↔
      p ∉ f.declared.map Prod.fst ∧ f.coveredByEndpoint p = false := by
    rw [Bool.or_eq_false_iff, ← Bool.not_eq_true, List.contains_iff_mem]
  rw [← hdec]
  show (if _ then _ else _) = _ ↔ _
  cases (f.declared.map Prod.fst).contains p || f.coveredByEndpoint p with
  | true =>
    simp only [Bool.true_and, if_true, Bool.true_eq_false, and_false, iff_false]
    split_ifs <;> exact fun h => by cases h
  | false =>
    simp only [Bool.false_and, Bool.false_eq_true, if_false, and_true]
    split_ifs with hd
    · exact iff_of_true rfl hd
    · exact iff_of_false (fun h => by cases h) hd

theorem coveredByEndpoint_eq_false {f : SubjectFacts} {os : List (GoString × GoString)}
    (hseen : f.seen = Groups.ofPairs os) (hp : p ∈ f.seen.map Prod.fst) :
    f.coveredByEndpoint p = false ↔ ∃ h, (p, h) ∈ os ∧ h ∉ f.hosts := by
  rw [hseen, Groups.mem_keys_ofPairs] at hp
  obtain ⟨h₀, hmem⟩ := hp
  have hne : (Groups.members f.seen p).isEmpty = false := by
    rw [List.isEmpty_eq_false_iff_exists_mem, hseen]
    exact ⟨h₀, Groups.mem_members_ofPairs.mpr hmem⟩
  unfold SubjectFacts.coveredByEndpoint
  simp only [hne, Bool.false_eq_true, if_false, List.all_eq_false]
  simp only [hseen, Groups.mem_members_ofPairs, List.contains_iff_mem]

theorem mem_providers {f : SubjectFacts} :
    p ∈ f.providers ↔ p ∈ f.declared.map Prod.fst ∨ p ∈ f.seen.map Prod.fst := by
  have hset := Groups.mem_foldl_insertMember (fun _ : GoString => True) (fun p => p)
    (f.declared.map Prod.fst ++ f.seen.map Prod.fst) [] (y := p)
  simp only [if_true, List.not_mem_nil, false_or, true_and, exists_eq_right] at hset
  rw [← List.mem_append]
  exact hset

/-- An identity has a row that was seen and is not declared when it declares some provider and was seen
reaching another one that is not covered. -/
theorem exists_gap_subjectRows {scan : Option CodeScan} :
    (∃ row ∈ subjectRows U matchHost scan id, row.gap = .seenNotDeclared) ↔
      (gather U matchHost id).declared ≠ [] ∧ ∃ p ∈ (gather U matchHost id).seen.map Prod.fst,
        p ∉ (gather U matchHost id).declared.map Prod.fst ∧
          (gather U matchHost id).coveredByEndpoint p = false := by
  unfold subjectRows
  generalize gather U matchHost id = f
  have hrow : (∃ row ∈ (Strings.sort f.providers).map (providerRow scan id f),
      row.gap = .seenNotDeclared) ↔ f.declared ≠ [] ∧ ∃ p ∈ f.seen.map Prod.fst,
        p ∉ f.declared.map Prod.fst ∧ f.coveredByEndpoint p = false := by
    constructor
    · rintro ⟨row, hrow, hgap⟩
      obtain ⟨p, hp, rfl⟩ := List.mem_map.mp hrow
      obtain ⟨hd, hnot, hc⟩ := gap_providerRow.mp hgap
      rcases mem_providers.mp ((List.mem_insertionSort _).mp hp) with hp | hp
      · exact absurd hp hnot
      · exact ⟨hd, p, hp, hnot, hc⟩
    · rintro ⟨hd, p, hp, hnot, hc⟩
      refine ⟨providerRow scan id f p, List.mem_map.mpr ⟨p, ?_, rfl⟩, gap_providerRow.mpr ⟨hd, hnot, hc⟩⟩
      exact (List.mem_insertionSort _).mpr (mem_providers.mpr (Or.inr hp))
  dsimp only
  split_ifs with hnone hempty
  · -- no subject: nothing is declared
    simp only [Bool.and_eq_true, List.isEmpty_iff] at hnone
    refine iff_of_false ?_ fun h => h.1 hnone.1.2
    rintro ⟨row, hrow, -⟩
    exact List.not_mem_nil hrow
  · -- the only row is about no provider
    have hbare : (bareRow id f).gap ≠ .seenNotDeclared := by
      show (if _ then _ else _) ≠ _
      split_ifs <;> exact fun h => by cases h
    refine iff_of_false ?_ ?_
    · rintro ⟨row, hrow, hgap⟩
      rw [List.mem_singleton.mp hrow] at hgap
      exact hbare hgap
    · rintro ⟨-, p, hp, -⟩
      have hmem := mem_providers.mpr (Or.inr hp)
      rw [List.isEmpty_iff.mp hempty] at hmem
      exact List.not_mem_nil hmem
  · exact hrow

/-- **The identities with a row that was seen and is not declared**, by their models and events. -/
theorem exists_seenNotDeclared {scan : Option CodeScan} :
    (∃ row ∈ subjectRows U matchHost scan id, row.gap = .seenNotDeclared) ↔
      (∃ p, Declares U id.declaredModels p) ∧ ∃ o ∈ id.events.filterMap (sighting U matchHost),
        ¬ Declares U id.declaredModels o.1 ∧ ¬ DeclaresHost U id.declaredModels o.2 := by
  have hdeclared : (gather U matchHost id).declared ≠ [] ↔ ∃ p, Declares U id.declaredModels p := by
    rw [Ne, ← List.map_eq_nil_iff (f := Prod.fst), List.eq_nil_iff_forall_not_mem]
    push Not
    simp only [mem_declared_gather]
  rw [exists_gap_subjectRows, hdeclared]
  apply and_congr_right
  intro _
  constructor
  · rintro ⟨p, hp, hnot, hc⟩
    obtain ⟨h, ho, hh⟩ := (coveredByEndpoint_eq_false seen_gather hp).mp hc
    exact ⟨(p, h), ho, mt mem_declared_gather.mpr hnot, mt mem_hosts_gather.mpr hh⟩
  · rintro ⟨⟨p, h⟩, ho, hnot, hh⟩
    have hp : p ∈ (gather U matchHost id).seen.map Prod.fst := by
      rw [seen_gather, Groups.mem_keys_ofPairs]
      exact ⟨h, ho⟩
    exact ⟨p, hp, mt mem_declared_gather.mp hnot,
      (coveredByEndpoint_eq_false seen_gather hp).mpr ⟨h, ho, mt mem_hosts_gather.mp hh⟩⟩

theorem mem_buildSubjects {ids : List Identity} {scan : Option CodeScan} {row : SubjectRow} :
    row ∈ (buildSubjects U matchHost ids scan).1 ↔
      ∃ id ∈ ids, row ∈ subjectRows U matchHost scan id := by
  show row ∈ List.insertionSort _ _ ↔ _
  rw [List.mem_insertionSort, List.mem_flatMap]

theorem subject_of_mem {scan : Option CodeScan} {row : SubjectRow}
    (h : row ∈ subjectRows U matchHost scan id) : row.subject = id.id := by
  unfold subjectRows at h
  dsimp only at h
  split_ifs at h
  · cases h
  · rw [List.mem_singleton.mp h]
    rfl
  · obtain ⟨p, -, rfl⟩ := List.mem_map.mp h
    rfl

end Idryx.AiUsage
