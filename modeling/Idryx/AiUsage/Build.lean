import Idryx.AiUsage.Subjects

/-!
# The model report

`internal/aiusage/aiusage.go`: the three sides reconciled, per provider and per subject.

* `Rows.addDeclared`, `Rows.addObserved`, `Rows.addCode`: one entry of each side;
* `build`; **`mem_providers_rows`**: the providers of the rows are those declared, observed or in code.
-/

namespace Idryx.AiUsage

/-- One provider, with what each of the three sides says about it. -/
structure Row where
  provider : GoString
  declaredBy : List GoString
  observedBy : List GoString
  codeSites : Nat
  codeLabels : List GoString
  gaps : List Gap

namespace Row

/-- The row of a provider nothing is known of yet. -/
def fresh (provider : GoString) : Row := ⟨provider, [], [], 0, [], []⟩

/-- Some identity declares the provider, was seen reaching it, or some line of the code names it. -/
def declared (r : Row) : Bool := 0 < r.declaredBy.length

@[inherit_doc declared]
def observed (r : Row) : Bool := 0 < r.observedBy.length

@[inherit_doc declared]
def coded (r : Row) : Bool := 0 < r.codeSites

end Row

/-- What the report says of the scan it used, if any. -/
structure CodeScanRef where
  present : Bool
  root : GoString
  generatedAt : GoString
  tool : GoString

/-- The report on the use of AI: rows per provider, the sources, rows per subject, and what cannot be seen. -/
structure Report where
  rows : List Row
  sources : List SourceRow
  subjects : List SubjectRow
  codeScan : CodeScanRef
  limits : List GoString

/-- The limits of every report. -/
def baseLimits : List GoString :=
  ["A provider in no column is not a provider nobody uses: it is one nothing here can see.",
    "The observed column shows only hosts this sensor recognises, and only traffic it captured.",
    "The declared column is a self-declaration. agent-passport SPEC 4.5 says so, and nothing here attests it.",
    "The coded column has no agent: a source scan finds a file and a line, and no field binds a repository to an identity. Its counts are estate-wide.",
    "Attribution of a flow to an agent is self-declared: a process names itself through AGENT_PASSPORT_ID (agent-passport SPEC 3.3), and one that unsets it is still seen but unattributed. That is enough for detection and never for authorisation.",
    "The eBPF sensor is Linux-only and needs privilege and a kernel with BTF, so a laptop is not covered; an absent capture is not a capture that saw nothing.",
    "A process that can execute code can open a socket of its own. An enforcement point constrains traffic routed through it, and the bus names no provider, so an agent active there is seen to be governed and the provider it calls is visible only where its connection is captured."]

/-! ## The rows under construction -/

/-- The rows by provider, and who is in each column already. -/
structure Rows where
  rows : List Row
  seenDeclared : List (GoString × List GoString)
  seenObserved : List (GoString × List GoString)

namespace Rows

variable (U : Unicode) (matchHost : MatchHost)

/-- The row of `p`, created if there is none, with a write `f` through its pointer. -/
def update (rows : List Row) (p : GoString) (f : Row → Row) : List Row :=
  Keyed.upsert Row.provider p (f (Row.fresh p)) f rows

/-- The identity declares the provider. -/
def addDeclared (id : GoString) (st : Rows) (provider : GoString) : Rows :=
  let p := normalize U provider
  if p = "" then st
  else if id ∈ Groups.members st.seenDeclared p then { st with rows := update st.rows p fun r => r }
  else
    { st with
      rows := update st.rows p fun r => { r with declaredBy := r.declaredBy ++ [id] }
      seenDeclared := Groups.insert p id st.seenDeclared }

/-- The identity was seen reaching the provider. -/
def addObserved (id : GoString) (st : Rows) (provider : GoString) : Rows :=
  let p := normalize U provider
  if p = "" then st
  else if id ∈ Groups.members st.seenObserved p then { st with rows := update st.rows p fun r => r }
  else
    { st with
      rows := update st.rows p fun r => { r with observedBy := r.observedBy ++ [id] }
      seenObserved := Groups.insert p id st.seenObserved }

/-- The provider is in the code. -/
def addCode (st : Rows) (entry : GoString × CodeScanEntry) : Rows :=
  let p := normalize U entry.1
  if p = "" then st
  else
    { st with
      rows := update st.rows p fun r =>
        { r with codeSites := r.codeSites + entry.2.sites, codeLabels := r.codeLabels ++ entry.2.labels } }

/-- The provider an event was seen reaching. -/
def reached (e : Event) : Option GoString :=
  if e.type ≠ eventEgress then none else matchHost e.resource

/-- One turn of the loop over the identities. -/
def identity (st : Rows) (id : Identity) : Rows :=
  let st := (id.declaredModels.map DeclaredModel.provider).foldl (addDeclared U id.id) st
  (id.events.filterMap (reached matchHost)).foldl (addObserved U id.id) st

end Rows

/-! ## The report -/

/-- What the three columns of a provider disagree on; code counts only if there was a scan. -/
def providerGaps (r : Row) (scanned : Bool) : List Gap :=
  (if r.declared && !r.observed then [Gap.declaredNotSeen] else []) ++
    (if r.observed && !r.declared then [Gap.seenNotDeclared] else []) ++
    if scanned && r.coded && !r.observed then [Gap.inCodeNotSeen] else []

/-- A row as it is reported. -/
def Row.finish (scanned : Bool) (r : Row) : Row :=
  let r := { r with
    declaredBy := Strings.sort r.declaredBy
    observedBy := Strings.sort r.observedBy
    codeLabels := dedupeSorted r.codeLabels }
  { r with gaps := providerGaps r scanned }

/-- The rows of the three sides. -/
def collect (U : Unicode) (matchHost : MatchHost) (ids : List Identity) (scan : Option CodeScan) :
    Rows :=
  ((scan.map CodeScan.providers).getD []).foldl (Rows.addCode U)
    (ids.foldl (Rows.identity U matchHost) ⟨[], [], []⟩)

/-- `Build`, over the identities the graph returns. -/
def build (U : Unicode) (matchHost : MatchHost) (ids : List Identity) (scan : Option CodeScan) :
    Report where
  rows := ((collect U matchHost ids scan).rows.map (Row.finish scan.isSome)).insertionSort
    fun a b => a.provider ≤ b.provider
  sources := (buildSubjects U matchHost ids scan).2
  subjects := (buildSubjects U matchHost ids scan).1
  codeScan := (scan.map fun scan => ⟨true, scan.root, scan.generatedAt, scan.tool⟩).getD
    ⟨false, "", "", ""⟩
  limits := baseLimits ++ (scan.map CodeScan.limits).getD []

/-! ## The providers of the rows -/

variable {U : Unicode} {matchHost : MatchHost} {p : GoString}

theorem mem_keys_update {rows : List Row} {q : GoString} {f : Row → Row}
    (hf : ∀ r, (f r).provider = r.provider) :
    p ∈ (Rows.update rows q f).map Row.provider ↔ p ∈ rows.map Row.provider ∨ p = q :=
  Keyed.mem_keys_upsert (hf _ : (f (Row.fresh q)).provider = q) fun r hr => (hf r).trans hr

/-- A provider that is not blank has a row. -/
def Names (U : Unicode) (p provider : GoString) : Prop :=
  normalize U provider ≠ "" ∧ normalize U provider = p

theorem names_iff {provider : GoString} (h : normalize U provider ≠ "") :
    Names U p provider ↔ p = normalize U provider := by
  constructor
  · exact fun hn => hn.2.symm
  · exact fun hp => ⟨h, hp.symm⟩

theorem mem_keys_addDeclared (id : GoString) (st : Rows) (provider : GoString) :
    p ∈ (Rows.addDeclared U id st provider).rows.map Row.provider ↔
      p ∈ st.rows.map Row.provider ∨ Names U p provider := by
  unfold Rows.addDeclared
  by_cases hblank : normalize U provider = ""
  · simp [hblank, Names]
  · rw [names_iff hblank]
    simp only [if_neg hblank]
    split_ifs
    · exact mem_keys_update fun _ => rfl
    · dsimp only
      exact mem_keys_update fun _ => rfl

theorem mem_keys_addObserved (id : GoString) (st : Rows) (provider : GoString) :
    p ∈ (Rows.addObserved U id st provider).rows.map Row.provider ↔
      p ∈ st.rows.map Row.provider ∨ Names U p provider := by
  unfold Rows.addObserved
  by_cases hblank : normalize U provider = ""
  · simp [hblank, Names]
  · rw [names_iff hblank]
    simp only [if_neg hblank]
    split_ifs
    · exact mem_keys_update fun _ => rfl
    · dsimp only
      exact mem_keys_update fun _ => rfl

theorem mem_keys_addCode (st : Rows) (entry : GoString × CodeScanEntry) :
    p ∈ (Rows.addCode U st entry).rows.map Row.provider ↔
      p ∈ st.rows.map Row.provider ∨ Names U p entry.1 := by
  unfold Rows.addCode
  by_cases hblank : normalize U entry.1 = ""
  · simp [hblank, Names]
  · rw [names_iff hblank]
    simp only [if_neg hblank]
    exact mem_keys_update fun _ => rfl

/-- The providers that were collected are those some identity declares or was seen reaching, and those in
the code. -/
theorem mem_providers_collect {ids : List Identity} {scan : Option CodeScan} :
    p ∈ (collect U matchHost ids scan).rows.map Row.provider ↔
      (∃ id ∈ ids, (∃ m ∈ id.declaredModels, Names U p m.provider) ∨
        ∃ e ∈ id.events, ∃ provider, Rows.reached matchHost e = some provider ∧ Names U p provider) ∨
      ∃ entry ∈ (scan.map CodeScan.providers).getD [], Names U p entry.1 := by
  have hidentity : ∀ (st : Rows) (id : Identity),
      p ∈ (Rows.identity U matchHost st id).rows.map Row.provider ↔ p ∈ st.rows.map Row.provider ∨
        ((∃ m ∈ id.declaredModels, Names U p m.provider) ∨ ∃ e ∈ id.events, ∃ provider,
          Rows.reached matchHost e = some provider ∧ Names U p provider) := by
    intro st id
    unfold Rows.identity
    rw [Loop.foldl_iff (P := fun st : Rows => p ∈ st.rows.map Row.provider)
        (mem_keys_addObserved id.id),
      Loop.foldl_iff (P := fun st : Rows => p ∈ st.rows.map Row.provider)
        (mem_keys_addDeclared id.id), or_assoc]
    simp only [List.mem_map, List.mem_filterMap, exists_exists_and_eq_and]
    grind
  rw [collect,
    Loop.foldl_iff (P := fun st : Rows => p ∈ st.rows.map Row.provider) mem_keys_addCode,
    Loop.foldl_iff (P := fun st : Rows => p ∈ st.rows.map Row.provider) hidentity]
  simp only [List.map_nil, List.not_mem_nil, false_or]

/-- **The providers of the rows** are those some identity declares or was seen reaching, and those in
the code. -/
theorem mem_providers_rows {ids : List Identity} {scan : Option CodeScan} :
    p ∈ (build U matchHost ids scan).rows.map Row.provider ↔
      (∃ id ∈ ids, (∃ m ∈ id.declaredModels, Names U p m.provider) ∨
        ∃ e ∈ id.events, ∃ provider, Rows.reached matchHost e = some provider ∧ Names U p provider) ∨
      ∃ entry ∈ (scan.map CodeScan.providers).getD [], Names U p entry.1 := by
  have hperm := (List.perm_insertionSort (fun a b : Row => a.provider ≤ b.provider)
    ((collect U matchHost ids scan).rows.map (Row.finish scan.isSome))).map Row.provider
  refine (hperm.mem_iff).trans ?_
  rw [List.map_map]
  exact mem_providers_collect

end Idryx.AiUsage
