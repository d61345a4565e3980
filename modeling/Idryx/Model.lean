import Idryx.Go.Time

/-!
# The identity graph's data types

`internal/model`: events, permissions, declared models, identities, alerts. A field keeps the
source's name; a nil and an empty Go slice are the same list, and slices are taken by value.

The graph copies the slices it is handed, but for the actions of a grant: those it keeps as they are, and may
append to in place, while one reader, that of AWS exports, hands out one array twice. A result on the actions of
grants across identities therefore belongs on `Graph/Shared` or `Graph/Sliced`, where actions are slices over a
heap. Those on one identity as a reader builds it, on the other fields, and on two runs that merge the same
reports in the same order take actions by value.
-/

namespace Idryx

/-! ## Events -/

/-- A normalized observation about an identity. -/
structure Event where
  time : Time
  identityID : GoString
  type : GoString
  outcome : GoString
  ip : GoString
  city : GoString
  country : GoString
  lat : F64
  lon : F64
  device : GoString
  resource : GoString
  severity : GoString
  source : GoString
  deriving DecidableEq, Inhabited

/-- A sign-in. -/
def eventLogin : GoString := "login"

/-- A request for a second factor. -/
def eventMFAChallenge : GoString := "mfa_challenge"

/-- A connection to the outside. -/
def eventEgress : GoString := "egress"

/-- Any other event of a log. -/
def eventOther : GoString := "other"

/-- The events on what an agent spends. -/
def eventBudgetExhausted : GoString := "budget_exhausted"

@[inherit_doc eventBudgetExhausted]
def eventSustainedLoop : GoString := "sustained_loop"

@[inherit_doc eventBudgetExhausted]
def eventSpendSpike : GoString := "spend_spike"

@[inherit_doc eventBudgetExhausted]
def eventFanoutExplosion : GoString := "fanout_explosion"

@[inherit_doc eventBudgetExhausted]
def eventBreakerTripped : GoString := "breaker_tripped"

/-- The events on what an agent was kept from, or its tools. -/
def eventDLPBlock : GoString := "dlp_block"

@[inherit_doc eventDLPBlock]
def eventTaintBlock : GoString := "taint_block"

@[inherit_doc eventDLPBlock]
def eventMCPDrift : GoString := "mcp_drift"

/-- The events of the web-egress plane. -/
def eventWebFetch : GoString := "web_fetch"

@[inherit_doc eventWebFetch]
def eventWebBlocked : GoString := "web_blocked"

namespace Event

/-- Go's `==` on two events, which is what a map keyed by events compares with. -/
def goEq (a b : Event) : Bool :=
  a.time == b.time && a.identityID == b.identityID && a.type == b.type && a.outcome == b.outcome &&
    a.ip == b.ip && a.city == b.city && a.country == b.country && a.lat.goEq b.lat &&
    a.lon.goEq b.lon && a.device == b.device && a.resource == b.resource &&
    a.severity == b.severity && a.source == b.source

/-- No coordinate is NaN. -/
def noNaN (e : Event) : Bool := !e.lat.isNaN && !e.lon.isNaN

theorem goEq_iff (a b : Event) : goEq a b = true ↔ a.time = b.time ∧ a.identityID = b.identityID ∧
    a.type = b.type ∧ a.outcome = b.outcome ∧ a.ip = b.ip ∧ a.city = b.city ∧
    a.country = b.country ∧ a.lat.goEq b.lat = true ∧ a.lon.goEq b.lon = true ∧
    a.device = b.device ∧ a.resource = b.resource ∧ a.severity = b.severity ∧
    a.source = b.source := by
  simp [goEq, and_assoc]

theorem goEq_self {e : Event} (he : e.noNaN = true) : goEq e e = true := by
  simp only [noNaN, Bool.and_eq_true, Bool.not_eq_true'] at he
  simp [goEq, F64.goEq_self he.1, F64.goEq_self he.2]

theorem goEq_symm {a b : Event} (h : goEq a b = true) : goEq b a = true := by
  rw [goEq_iff] at h ⊢
  obtain ⟨h1, h2, h3, h4, h5, h6, h7, h8, h9, h10, h11, h12, h13⟩ := h
  exact ⟨h1.symm, h2.symm, h3.symm, h4.symm, h5.symm, h6.symm, h7.symm, F64.goEq_symm h8,
    F64.goEq_symm h9, h10.symm, h11.symm, h12.symm, h13.symm⟩

theorem goEq_trans {a b c : Event} (h : goEq a b = true) (h' : goEq b c = true) :
    goEq a c = true := by
  rw [goEq_iff] at h h' ⊢
  obtain ⟨h1, h2, h3, h4, h5, h6, h7, h8, h9, h10, h11, h12, h13⟩ := h
  obtain ⟨k1, k2, k3, k4, k5, k6, k7, k8, k9, k10, k11, k12, k13⟩ := h'
  exact ⟨h1.trans k1, h2.trans k2, h3.trans k3, h4.trans k4, h5.trans k5, h6.trans k6,
    h7.trans k7, F64.goEq_trans h8 k8, F64.goEq_trans h9 k9, h10.trans k10, h11.trans k11,
    h12.trans k12, h13.trans k13⟩

end Event

/-! ## Identities -/

/-- The types of identities: a human is the default. -/
def identityHuman : GoString := ""

@[inherit_doc identityHuman]
def identityServiceAccount : GoString := "service_account"

@[inherit_doc identityHuman]
def identityKey : GoString := "key"

@[inherit_doc identityHuman]
def identityAgent : GoString := "agent"

@[inherit_doc identityHuman]
def identityMCPServer : GoString := "mcp_server"

/-- A granted capability. -/
@[ext]
structure Permission where
  name : GoString
  admin : Bool
  used : Bool
  actions : List GoString
  arn : GoString
  deriving DecidableEq, Inhabited

/-- A provider or model a Passport declares. -/
structure DeclaredModel where
  provider : GoString
  model : GoString
  endpoint : GoString
  deriving DecidableEq, Inhabited

/-- An actor in the graph. -/
@[ext]
structure Identity where
  id : GoString
  type : GoString
  privileged : Bool
  events : List Event
  source : GoString
  owner : GoString
  created : Time
  lastUsed : Time
  permissions : List Permission
  runtime : GoString
  onBehalfOf : List GoString
  parent : GoString
  attestation : GoString
  declaredModels : List DeclaredModel
  shadow : Bool
  deriving DecidableEq, Inhabited

namespace Identity

/-- The identity with this id and every other field at its zero value. -/
def zero (id : GoString) : Identity :=
  { id := id, type := identityHuman, privileged := false, events := [], source := "", owner := "",
    created := Time.zero, lastUsed := Time.zero, permissions := [], runtime := "",
    onBehalfOf := [], parent := "", attestation := "", declaredModels := [], shadow := false }

@[simp] theorem zero_id (id : GoString) : (zero id).id = id := rfl

/-- The identity is an agent. -/
def isAgent (i : Identity) : Bool := i.type == identityAgent

/-- The identity is no human. -/
def isNHI (i : Identity) : Bool := i.type != identityHuman

/-- Some grant is admin-equivalent. -/
def hasAdmin (i : Identity) : Bool := i.permissions.any Permission.admin

end Identity

/-! ## Alerts -/

/-- How urgent an alert is. -/
inductive Severity where
  | none | info | low | medium | high | critical
  deriving DecidableEq

/-- The number of the severity. -/
def Severity.rank : Severity → ℕ
  | .none => 0
  | .info => 1
  | .low => 2
  | .medium => 3
  | .high => 4
  | .critical => 5

/-- `String`. -/
def Severity.string : Severity → GoString
  | .critical => "critical"
  | .high => "high"
  | .medium => "medium"
  | .low => "low"
  | .info => "info"
  | .none => "none"

/-- A detection result tied to an identity. -/
structure Alert where
  detector : GoString
  identityID : GoString
  severity : Severity
  time : Time
  summary : GoString

end Idryx
