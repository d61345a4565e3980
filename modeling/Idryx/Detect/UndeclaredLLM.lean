import Idryx.Model
import Idryx.Detect.LLM
import Idryx.Lib.Groups

/-!
# The undeclared-model detector

`internal/detect/detectors/undeclared_llm.go`: agents that declare models and are seen reaching a
provider they do not declare.

* `declaredProviders`, `declaredHosts`, `undeclaredStep`, `undeclaredAlert`, `undeclaredLLM`;
* **`exists_undeclaredLLM`**: the agents alerted on.
-/

namespace Idryx

/-- The host of a destination; a second copy of the matcher's. -/
def normalizeHost (U : Unicode) (dest : GoString) : GoString :=
  Strings.toLower U (Strings.trimSpace (beforePort dest))

/-- The providers declared, in lower case. -/
def declaredProviders (U : Unicode) (ms : List DeclaredModel) : List GoString :=
  ms.foldl (fun set (m : DeclaredModel) =>
    if m.provider ≠ "" then Groups.insertMember set (Strings.toLower U m.provider) else set) []

/-- The hosts of the endpoints declared. -/
def declaredHosts (U : Unicode) (ms : List DeclaredModel) : List GoString :=
  ms.foldl (fun set (m : DeclaredModel) =>
    if m.endpoint ≠ "" then Groups.insertMember set (normalizeHost U m.endpoint) else set) []

/-- One turn of the loop over the events: `undeclared[display][host] = true`, unless declared. -/
def undeclaredStep (U : Unicode) (providers hosts : List GoString)
    (undeclared : List (GoString × List GoString)) (e : Event) : List (GoString × List GoString) :=
  if e.type ≠ eventEgress then undeclared
  else
    match matchLLM U e.resource with
    | none => undeclared
    | some provider =>
      if providers.contains provider.id then undeclared
      else
        let host := normalizeHost U e.resource
        if hosts.contains host then undeclared
        else Groups.insert provider.display host undeclared

/-- What was observed of each provider that is not declared. -/
def undeclared (U : Unicode) (id : Identity) : List (GoString × List GoString) :=
  id.events.foldl
    (undeclaredStep U (declaredProviders U id.declaredModels) (declaredHosts U id.declaredModels)) []

/-- The text of an alert. -/
def undeclaredLLMSummary (declaredProviders : List GoString)
    (undeclared : List (GoString × List GoString)) : GoString :=
  let providers := Strings.sort (undeclared.map Prod.fst)
  let parts := providers.map fun p =>
    p ++ " (" ++ Strings.join (Strings.sort (Groups.members undeclared p)) ", " ++ ")"
  "declared models [" ++ Strings.join (Strings.sort declaredProviders) ", " ++
    "] but observed egress to undeclared LLM provider(s) " ++ Strings.join parts ", "

/-- What the detector makes of one identity. -/
def undeclaredAlert (U : Unicode) (now : Time) (id : Identity) : Option Alert :=
  if !id.isAgent || id.declaredModels.isEmpty then none
  else
    let undeclared := undeclared U id
    if undeclared.isEmpty then none
    else some
      { detector := "undeclared_llm"
        identityID := id.id
        severity := if id.privileged || id.hasAdmin then .critical else .high
        time := now
        summary := undeclaredLLMSummary (declaredProviders U id.declaredModels) undeclared }

/-- `UndeclaredLLM.Detect`, over the identities the graph returns. -/
def undeclaredLLM (U : Unicode) (ids : List Identity) (now : Time) : List Alert :=
  ids.filterMap (undeclaredAlert U now)

/-! ## Who is alerted on -/

variable {U : Unicode} {now : Time}

theorem mem_declaredProviders {ms : List DeclaredModel} {p : GoString} :
    p ∈ declaredProviders U ms ↔ ∃ m ∈ ms, m.provider ≠ "" ∧ Strings.toLower U m.provider = p := by
  unfold declaredProviders
  rw [Groups.mem_foldl_insertMember (fun m : DeclaredModel => m.provider ≠ "")
    (fun m => Strings.toLower U m.provider)]
  simp only [List.not_mem_nil, false_or]

theorem mem_declaredHosts {ms : List DeclaredModel} {h : GoString} :
    h ∈ declaredHosts U ms ↔ ∃ m ∈ ms, m.endpoint ≠ "" ∧ normalizeHost U m.endpoint = h := by
  unfold declaredHosts
  rw [Groups.mem_foldl_insertMember (fun m : DeclaredModel => m.endpoint ≠ "")
    (fun m => normalizeHost U m.endpoint)]
  simp only [List.not_mem_nil, false_or]

theorem undeclaredAlert_eq_some_iff {id : Identity} {al : Alert} : undeclaredAlert U now id = some al ↔
    id.isAgent = true ∧ id.declaredModels ≠ [] ∧ undeclared U id ≠ [] ∧
      al = ⟨"undeclared_llm", id.id, if id.privileged || id.hasAdmin then .critical else .high, now,
        undeclaredLLMSummary (declaredProviders U id.declaredModels) (undeclared U id)⟩ := by
  unfold undeclaredAlert
  dsimp only
  cases id.isAgent with
  | false => simp
  | true =>
    by_cases hmodels : id.declaredModels = []
    · simp [hmodels]
    · by_cases hnone : undeclared U id = []
      · simp [hnone]
      · have hmodels' : ¬ (!true || id.declaredModels.isEmpty) = true := by simp [hmodels]
        rw [if_neg hmodels', if_neg fun h => hnone (List.isEmpty_iff.mp h), Option.some.injEq]
        exact ⟨fun h => ⟨rfl, hmodels, hnone, h.symm⟩, fun h => h.2.2.2.symm⟩

/-- An egress event to a recognised host: the id of the provider, and the host. -/
def observation (U : Unicode) (e : Event) : Option (GoString × GoString) :=
  if e.type ≠ eventEgress then none
  else (matchLLMHost U e.resource).map fun provider => (provider, normalizeHost U e.resource)

/-- The providers and hosts an identity was seen reaching. -/
def observations (U : Unicode) (id : Identity) : List (GoString × GoString) :=
  id.events.filterMap (observation U)

theorem undeclared_eq_nil {id : Identity} : undeclared U id = [] ↔
    ∀ o ∈ observations U id, o.1 ∈ declaredProviders U id.declaredModels ∨
      o.2 ∈ declaredHosts U id.declaredModels := by
  have hrun : ∀ (providers hosts : List GoString) (es : List Event)
      (acc : List (GoString × List GoString)),
      es.foldl (undeclaredStep U providers hosts) acc = [] ↔ acc = [] ∧
        ∀ o ∈ es.filterMap (observation U), o.1 ∈ providers ∨ o.2 ∈ hosts := by
    intro providers hosts es
    induction es with
    | nil => simp
    | cons e es ih =>
      intro acc
      have hstep : undeclaredStep U providers hosts acc e = [] ↔
          acc = [] ∧ ∀ o ∈ observation U e, o.1 ∈ providers ∨ o.2 ∈ hosts := by
        unfold undeclaredStep observation matchLLMHost
        split_ifs with htype
        · simp
        · cases matchLLM U e.resource with
          | none => simp
          | some provider =>
            by_cases hp : provider.id ∈ providers
            · simp [hp]
            · by_cases hh : normalizeHost U e.resource ∈ hosts
              · simp [hp, hh]
              · simp [hp, hh, Groups.insert_ne_nil]
      rw [List.foldl_cons, ih, hstep, List.filterMap_cons]
      cases observation U e with
      | none => simp
      | some o => simp [and_assoc]
  refine (hrun _ _ _ []).trans ?_
  simp only [true_and]
  rfl

/-- **The agents alerted on** declare something, and were seen reaching a provider and a host they do
not declare. -/
theorem exists_undeclaredLLM {ids : List Identity} {j : GoString} :
    (∃ al ∈ undeclaredLLM U ids now, al.identityID = j) ↔
      ∃ i ∈ ids, i.id = j ∧ i.isAgent = true ∧ i.declaredModels ≠ [] ∧
        ∃ o ∈ observations U i, o.1 ∉ declaredProviders U i.declaredModels ∧
          o.2 ∉ declaredHosts U i.declaredModels := by
  have hone : ∀ i : Identity, (∃ al, undeclaredAlert U now i = some al ∧ al.identityID = j) ↔
      i.id = j ∧ i.isAgent = true ∧ i.declaredModels ≠ [] ∧ undeclared U i ≠ [] := by
    intro i
    unfold undeclaredAlert
    by_cases hagent : i.isAgent = true
    · by_cases hms : i.declaredModels = []
      · simp [hms]
      · by_cases hu : undeclared U i = []
        · simp [hu]
        · simp [hagent, hms, hu]
    · simp [hagent]
  have hdrift : ∀ i : Identity, undeclared U i ≠ [] ↔
      ∃ o ∈ observations U i, o.1 ∉ declaredProviders U i.declaredModels ∧
        o.2 ∉ declaredHosts U i.declaredModels := by
    intro i
    rw [Ne, undeclared_eq_nil]
    push Not
    rfl
  unfold undeclaredLLM
  constructor
  · rintro ⟨al, hal, hid⟩
    obtain ⟨i, hi, hali⟩ := List.mem_filterMap.mp hal
    obtain ⟨h1, h2, h3, h4⟩ := (hone i).mp ⟨al, hali, hid⟩
    exact ⟨i, hi, h1, h2, h3, (hdrift i).mp h4⟩
  · rintro ⟨i, hi, h1, h2, h3, h4⟩
    obtain ⟨al, hali, hid⟩ := (hone i).mpr ⟨h1, h2, h3, (hdrift i).mpr h4⟩
    exact ⟨al, List.mem_filterMap.mpr ⟨i, hi, hali⟩, hid⟩

end Idryx
