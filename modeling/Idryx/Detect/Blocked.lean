import Idryx.Detect.RunawayAgent

/-!
# What the event bus blocked

`internal/detect/detectors`: `data_exfiltration.go`, `tainted_agent.go`, `mcp_drift.go`: agents of which a number
of events of one type is not too old.

* `BlockRule`, `blockCount`, `blockAlert`, and the three rules: `dataExfiltration`, `taintedAgent`, `mcpDrift`;
* `blockCount_eq`: what is counted; `blockAlert_eq_some_iff`;
* **`blockAlert_evidence`**: more evidence keeps the alert and never lowers it; **`blockAlert_time`**: time takes
  evidence away, and adds none.
-/

namespace Idryx

/-! ## The detectors -/

/-- A type of event, how long it counts, how many of them are an alert and how many a critical one. -/
structure BlockRule where
  detector : GoString
  eventType : GoString
  window : ℤ
  threshold : ℕ
  critical : ℕ
  summary : ℕ → GoString

/-- 24 hours. -/
def dlpBlockWindow : ℤ := 86400000000000

/-- As many blocks are an attempt to carry data out. -/
def dlpBlockThreshold : ℕ := 3

/-- 30 days. -/
def taintBlockWindow : ℤ := 2592000000000000

/-- As many blocks are no coincidence. -/
def taintBlockRepeatThreshold : ℕ := 2

/-- 30 days. -/
def mcpDriftWindow : ℤ := 2592000000000000

@[inherit_doc taintBlockRepeatThreshold]
def mcpDriftRepeatThreshold : ℕ := 2

/-- What the three detectors count, and when they report it. -/
def dataExfiltrationRule : BlockRule where
  detector := "data_exfiltration"
  eventType := eventDLPBlock
  window := dlpBlockWindow
  threshold := dlpBlockThreshold
  critical := dlpBlockThreshold * 2
  summary n := Strconv.itoa n ++ (" DLP-blocked action(s) within 24h0m0s (possible data exfiltration attempt)" : GoString)

@[inherit_doc dataExfiltrationRule]
def taintedAgentRule : BlockRule where
  detector := "tainted_agent"
  eventType := eventTaintBlock
  window := taintBlockWindow
  threshold := 1
  critical := taintBlockRepeatThreshold
  summary n := Strconv.itoa n ++
    (" taint-tracked action(s) blocked within 720h0m0s (blocked injection/exfiltration attempt)" : GoString)

@[inherit_doc dataExfiltrationRule]
def mcpDriftRule : BlockRule where
  detector := "mcp_drift"
  eventType := eventMCPDrift
  window := mcpDriftWindow
  threshold := 1
  critical := mcpDriftRepeatThreshold
  summary n := Strconv.itoa n ++
    (" MCP config/tooling drift event(s) within 720h0m0s (supply-chain integrity signal)" : GoString)

/-- One turn of the loop over the events. -/
def blockStep (R : BlockRule) (now : Time) (count : ℕ) (e : Event) : ℕ :=
  if e.type ≠ R.eventType then count
  else if R.window < now.sub e.time then count
  else count + 1

/-- The blocks of an identity that are in the window. -/
def blockCount (R : BlockRule) (now : Time) (id : Identity) : ℕ := id.events.foldl (blockStep R now) 0

/-- The alert on so many events of an identity. -/
def blockReport (R : BlockRule) (now : Time) (id : Identity) (count : ℕ) : Alert where
  detector := R.detector
  identityID := id.id
  severity := if R.critical ≤ count ∨ id.privileged = true ∨ id.hasAdmin = true then .critical else .high
  time := now
  summary := R.summary count

/-- What a rule makes of one identity. -/
def blockAlert (R : BlockRule) (now : Time) (id : Identity) : Option Alert :=
  if !id.isAgent then none
  else if blockCount R now id < R.threshold then none
  else some (blockReport R now id (blockCount R now id))

/-- `DataExfiltration.Detect`, over the identities the graph returns. -/
def dataExfiltration (ids : List Identity) (now : Time) : List Alert :=
  ids.filterMap (blockAlert dataExfiltrationRule now)

/-- `TaintedAgent.Detect`. -/
def taintedAgent (ids : List Identity) (now : Time) : List Alert := ids.filterMap (blockAlert taintedAgentRule now)

/-- `MCPDrift.Detect`. -/
def mcpDrift (ids : List Identity) (now : Time) : List Alert := ids.filterMap (blockAlert mcpDriftRule now)

/-! ## What is counted -/

/-- An event of the type that is not too old; one of the future is not. -/
def BlockRule.counts (R : BlockRule) (now : Time) (e : Event) : Bool :=
  e.type == R.eventType && decide (now.instant - R.window ≤ e.time.instant)

variable {R : BlockRule} {now : Time} {i i' : Identity} {a : Alert}

/-- A window is one that a duration can hold. -/
def BlockRule.Proper (R : BlockRule) : Prop := 0 ≤ R.window ∧ R.window < Time.maxDuration

instance (R : BlockRule) : Decidable R.Proper := inferInstanceAs (Decidable (_ ∧ _))

theorem proper_rules : ∀ R ∈ [dataExfiltrationRule, taintedAgentRule, mcpDriftRule], R.Proper := by decide

/-- **What is counted**, whatever the order of the events. -/
theorem blockCount_eq (hR : R.Proper) (now : Time) (i : Identity) :
    blockCount R now i = i.events.countP (R.counts now) := by
  have hwindow : ∀ e : Event, R.window < now.sub e.time ↔ ¬ now.instant - R.window ≤ e.time.instant := by
    intro e
    have hmin : Time.minDuration ≤ R.window := le_trans (by decide) hR.1
    rw [Time.lt_sub_iff hmin hR.2]
    omega
  have hstep : ∀ (count : ℕ) (e : Event), blockStep R now count e = count + if R.counts now e then 1 else 0 := by
    intro count e
    unfold blockStep BlockRule.counts
    by_cases htype : e.type = R.eventType
    · by_cases hold : now.instant - R.window ≤ e.time.instant
      · simp [htype, hold, hwindow]
      · simp [htype, hold, hwindow]
    · simp [htype]
  rw [blockCount, Loop.foldl_countP (f := fun count : ℕ => count) hstep]
  exact Nat.zero_add _

theorem blockAlert_eq_some_iff : blockAlert R now i = some a ↔ i.isAgent = true ∧
    R.threshold ≤ blockCount R now i ∧ a = blockReport R now i (blockCount R now i) := by
  unfold blockAlert
  split_ifs with hagent hfew
  · rw [Bool.not_eq_true', ← Bool.not_eq_true] at hagent
    exact ⟨nofun, fun h => absurd h.1 hagent⟩
  · exact ⟨nofun, fun h => absurd hfew (not_lt.mpr h.2.1)⟩
  · rw [Bool.not_eq_true', Bool.not_eq_false] at hagent
    rw [Option.some.injEq, eq_comm]
    exact ⟨fun h => ⟨hagent, not_lt.mp hfew, h⟩, fun h => h.2.2⟩

/-! ## Evidence and time -/

theorem blockAlert_mono {now now' : Time} (hid : i'.id = i.id) (hagent : i'.isAgent = i.isAgent)
    (hcount : blockCount R now i ≤ blockCount R now' i')
    (hadmin : i.privileged = true ∨ i.hasAdmin = true → i'.privileged = true ∨ i'.hasAdmin = true)
    (ha : blockAlert R now i = some a) : ∃ a', blockAlert R now' i' = some a' ∧ a'.detector = a.detector ∧
      a'.identityID = a.identityID ∧ a.severity.rank ≤ a'.severity.rank := by
  obtain ⟨hi, hmany, rfl⟩ := blockAlert_eq_some_iff.mp ha
  refine ⟨_, blockAlert_eq_some_iff.mpr ⟨hagent.trans hi, hmany.trans hcount, rfl⟩, rfl, hid, ?_⟩
  unfold blockReport
  dsimp only
  split_ifs with hlow hhigh
  · exact le_refl _
  · exact absurd (hlow.imp (le_trans · hcount) hadmin) hhigh
  · decide
  · exact le_refl _

/-- **More evidence** keeps the alert, and never lowers it. -/
theorem blockAlert_evidence (hR : R.Proper) (h : i'.Enriches i) (ha : blockAlert R now i = some a) :
    ∃ a', blockAlert R now i' = some a' ∧ a'.detector = a.detector ∧ a'.identityID = a.identityID ∧
      a.severity.rank ≤ a'.severity.rank := by
  refine blockAlert_mono h.id_eq ?_ ?_ (Or.imp h.privileged fun hi => ?_) ha
  · rw [Identity.isAgent, h.type_eq, Identity.isAgent]
  · rw [blockCount_eq hR, blockCount_eq hR]
    exact h.events.countP_le _
  · obtain ⟨p, hp, hadmin⟩ := List.any_eq_true.mp hi
    exact List.any_eq_true.mpr ⟨p, h.permissions hp, hadmin⟩

/-- **Time** takes evidence away and adds none: what is alerted on later was alerted on before, and as severely. -/
theorem blockAlert_time (hR : R.Proper) {later : Time} (hlater : now.instant ≤ later.instant)
    (ha : blockAlert R later i = some a) : ∃ a', blockAlert R now i = some a' ∧ a'.detector = a.detector ∧
      a'.identityID = a.identityID ∧ a.severity.rank ≤ a'.severity.rank := by
  refine blockAlert_mono rfl rfl ?_ id ha
  rw [blockCount_eq hR, blockCount_eq hR]
  refine List.countP_mono_left fun e _ he => ?_
  rw [BlockRule.counts, Bool.and_eq_true, decide_eq_true_eq] at he ⊢
  exact ⟨he.1, by omega⟩

end Idryx
