import Idryx.AiUsage.Subjects

/-!
# The findings on the event bus

`internal/events/events.go`: one event per alert that has a subject the envelope can carry.

* `Passport`: the two validators of the shared module;
* `Sink.trustedID`, `Sink.claimedID`, `Sink.write`, `Sink.send`;
* `Intact`: an event names the subject of its alert and nothing else of it;
* **`send_intact`**: every event that is written is intact, and none is without a trust domain.
-/

namespace Idryx.Events

/-! ## The envelope -/

/-- What an envelope calls its schema, which for a claimed subject is the next one, its source and its type. -/
def schema : GoString := "taipanbox.dev/agent-event/v0.2"

@[inherit_doc schema]
def schemaClaimed : GoString := "taipanbox.dev/agent-event/v0.3"

@[inherit_doc schema]
def source : GoString := "idryx"

@[inherit_doc schema]
def typeIdentityFinding : GoString := "identity_finding"

/-- The fields of an `event.Event` a finding is written with. -/
structure WireEvent where
  schema : GoString
  ts : GoString
  source : GoString
  type : GoString
  agentID : GoString
  severity : GoString
  runID : GoString
  data : List (GoString × GoString)

/-- The validators of package `passport`, each with the text of its error. An id that is claimed is no
agent URI. -/
structure Passport where
  validateAgentURI : GoString → Option GoString
  validateSubject : GoString → Option GoString
  refuses_claimed : ∀ id, Strings.hasPrefix id AiUsage.claimedPrefix = true → validateAgentURI id ≠ none

/-- `ebpfcapture.IsClaimed`. -/
def isClaimed (id : GoString) : Bool := Strings.hasPrefix id AiUsage.claimedPrefix

/-- What happened to one alert. -/
inductive Outcome where
  | written | writtenClaimed | skippedNoAgentSubject | writeFailed
  deriving DecidableEq

/-- A severity as the bus spells it; one that is none of the five is medium. -/
def severityWire : Severity → GoString
  | .critical => "critical"
  | .high => "high"
  | .medium => "medium"
  | .low => "low"
  | .info => "info"
  | .none => "medium"

/-! ## The sink -/

/-- A sink, with what its journal holds. -/
structure Sink where
  journal : List WireEvent
  runID : GoString
  trustDomain : GoString
  skipped : Nat
  claimed : Nat
  failed : Nat

/-- `New`; `opened` is the error of `event.NewWriter`. -/
def new (P : Passport) (U : Unicode) (opened : Option GoString) (path runID trustDomain : GoString) :
    Except GoString (Option Sink) :=
  if Strings.trimSpace path = "" then .ok none
  else
    let domain := Strings.trimSpace trustDomain
    match if domain ≠ "" then P.validateAgentURI ("agent://" ++ domain ++ "/probe") else none with
    | some err => .error ("IDRYX_TRUST_DOMAIN=" ++ Strconv.quote U trustDomain ++
        " cannot form a subject the event envelope accepts (agent://" ++ domain ++
        "/<name> is not a valid agent id: " ++ err ++
        "). It is a DNS name your organisation controls, lowercase, e.g. acme.example")
    | none =>
      match opened with
      | some err => .error ("opening the idryx event journal at " ++ path ++ ": " ++ err)
      | none => .ok (some ⟨[], runID, domain, 0, 0, 0⟩)

namespace Sink

variable (P : Passport)

/-- The established subject of an identity, if it has one. -/
def trustedID (s : Sink) (identityID : GoString) : Option GoString :=
  if s.trustDomain = "" then none
  -- a canonical URI begins with `agent:` as well, so it comes first
  else if P.validateAgentURI identityID = none then some identityID
  else if !Strings.hasPrefix identityID "agent:" then none
  else
    let name := identityID.drop 6
    if name = "" then none
    else if Strings.hasPrefix name "/" then none
    else
      let id := ("agent://" : GoString) ++ s.trustDomain ++ "/" ++ name
      if P.validateAgentURI id ≠ none then none else some id

/-- The claimed subject of an identity, if it has one. -/
def claimedID (s : Sink) (identityID : GoString) : Option GoString :=
  if s.trustDomain = "" then none
  else if !isClaimed identityID then none
  else if P.validateSubject identityID ≠ none then none
  else some identityID

/-- The event of an alert under a subject. -/
def eventOf (s : Sink) (schema agentID : GoString) (a : Alert) : WireEvent :=
  { schema := schema, ts := a.time.formatMillis, source := source, type := typeIdentityFinding
    agentID := agentID, severity := severityWire a.severity, runID := s.runID
    data := [("detector", a.detector)] }

/-- Append an event to the journal, or fail to. -/
def append (s : Sink) (e : WireEvent) (ok : Bool) (outcome : Outcome) : Sink × Outcome :=
  if ok then ({ s with journal := s.journal ++ [e] }, outcome)
  else ({ s with failed := s.failed + 1 }, .writeFailed)

/-- `write`; `ok` is what becomes of the append. -/
def write (s : Sink) (a : Alert) (ok : Bool) : Sink × Outcome :=
  match s.trustedID P a.identityID with
  | some agentID => s.append (s.eventOf schema agentID a) ok .written
  | none =>
    match s.claimedID P a.identityID with
    | none => ({ s with skipped := s.skipped + 1 }, .skippedNoAgentSubject)
    | some agentID =>
      { s with claimed := s.claimed + 1 }.append (s.eventOf schemaClaimed agentID a) ok .writtenClaimed

/-- One turn of the loop of `Send`; the error is the first one. -/
def sendOne (U : Unicode) (st : Sink × Option GoString) (x : Alert × Bool) : Sink × Option GoString :=
  let (s, outcome) := st.1.write P x.1 x.2
  (s, if outcome = .writeFailed ∧ st.2 = none then
    some ("writing an identity_finding for detector " ++ Strconv.quote U x.1.detector) else st.2)

/-- `Send`: the alerts in order, each with what becomes of its append. -/
def send (U : Unicode) (s : Sink) (alerts : List (Alert × Bool)) : Sink × Option GoString :=
  alerts.foldl (sendOne P U) (s, none)

end Sink

/-! ## Subjects -/

variable {P : Passport} {U : Unicode}

/-- What an event may say of its alert: the identity as it is, or stamped with the domain where it is an
inventory name; and the detector. -/
structure Intact (P : Passport) (domain : GoString) (a : Alert) (e : WireEvent) : Prop where
  subject : (e.agentID = a.identityID ∧
      (P.validateAgentURI a.identityID = none ∨ isClaimed a.identityID = true)) ∨
    ∃ name, a.identityID = "agent:" ++ name ∧ Strings.hasPrefix name "/" = false ∧
      e.agentID = "agent://" ++ domain ++ "/" ++ name
  established : e.schema = schema → P.validateAgentURI e.agentID = none
  claimed : e.schema = schemaClaimed → P.validateSubject e.agentID = none
  unstamped : P.validateAgentURI a.identityID = none ∨ isClaimed a.identityID = true →
    e.agentID = a.identityID
  schema_eq : e.schema = if isClaimed e.agentID then schemaClaimed else schema
  data : e.data = [(("detector" : GoString), a.detector)]

theorem schema_ne_schemaClaimed : schema ≠ schemaClaimed := by decide

theorem trustedID_eq_some {s : Sink} {id agentID : GoString}
    (h : s.trustedID P id = some agentID) :
    s.trustDomain ≠ "" ∧ P.validateAgentURI agentID = none ∧
      (agentID = id ∨ P.validateAgentURI id ≠ none ∧ ∃ name, id = "agent:" ++ name ∧
        Strings.hasPrefix name "/" = false ∧ agentID = "agent://" ++ s.trustDomain ++ "/" ++ name) := by
  unfold Sink.trustedID at h
  split_ifs at h with hdomain hvalid hprefix
  · rw [Option.some.injEq] at h
    subst h
    exact ⟨hdomain, hvalid, Or.inl rfl⟩
  · dsimp only at h
    split_ifs at h with hname hslash hbuilt
    rw [Option.some.injEq] at h
    rw [not_not] at hbuilt
    rw [Bool.not_eq_true, Bool.not_eq_false', Strings.hasPrefix, List.isPrefixOf_iff_prefix] at hprefix
    obtain ⟨name, hname'⟩ := hprefix
    have hdrop : id.drop 6 = name := by
      rw [← hname']
      rfl
    rw [hdrop] at h hslash hbuilt
    rw [Bool.not_eq_true] at hslash
    subst h
    exact ⟨hdomain, hbuilt, Or.inr ⟨hvalid, name, hname'.symm, hslash, rfl⟩⟩

theorem claimedID_eq_some {s : Sink} {id agentID : GoString}
    (h : s.claimedID P id = some agentID) : s.trustDomain ≠ "" ∧ agentID = id ∧
      isClaimed id = true ∧ P.validateSubject id = none := by
  unfold Sink.claimedID at h
  split_ifs at h with hdomain hclaimed hvalid
  rw [Option.some.injEq] at h
  rw [Bool.not_eq_true, Bool.not_eq_false'] at hclaimed
  exact ⟨hdomain, h.symm, hclaimed, not_not.mp hvalid⟩

theorem not_claimed_of_valid {id : GoString} (h : P.validateAgentURI id = none) :
    isClaimed id = false := by
  rw [← Bool.not_eq_true]
  exact fun hc => P.refuses_claimed id hc h

theorem intact_trusted {s : Sink} {a : Alert} {agentID : GoString}
    (h : s.trustedID P a.identityID = some agentID) :
    Intact P s.trustDomain a (s.eventOf schema agentID a) := by
  obtain ⟨-, hvalid, hid⟩ := trustedID_eq_some h
  have hnot : isClaimed agentID = false := not_claimed_of_valid hvalid
  refine ⟨?_, fun _ => hvalid, fun h => absurd h schema_ne_schemaClaimed, ?_, ?_, rfl⟩
  · rcases hid with rfl | ⟨-, hname⟩
    · exact Or.inl ⟨rfl, Or.inl hvalid⟩
    · exact Or.inr hname
  · rcases hid with rfl | ⟨hbad, name, hname, -, -⟩
    · exact fun _ => rfl
    · rintro (hgood | hclaimed)
      · exact absurd hgood hbad
      · -- an inventory name begins with `agent:` and not with `claimed:`
        rw [hname] at hclaimed
        cases hclaimed
  · show schema = if isClaimed agentID then schemaClaimed else schema
    rw [hnot]
    rfl

theorem intact_claimed {s : Sink} {a : Alert} {agentID : GoString}
    (h : s.claimedID P a.identityID = some agentID) :
    Intact P s.trustDomain a (s.eventOf schemaClaimed agentID a) := by
  obtain ⟨-, rfl, hclaimed, hvalid⟩ := claimedID_eq_some h
  refine ⟨Or.inl ⟨rfl, Or.inr hclaimed⟩, fun h => absurd h.symm schema_ne_schemaClaimed, fun _ => hvalid,
    fun _ => rfl, ?_, rfl⟩
  show schemaClaimed = if isClaimed a.identityID then schemaClaimed else schema
  rw [hclaimed]
  rfl

theorem write_cases (s : Sink) (a : Alert) (ok : Bool) :
    (s.write P a ok).1.trustDomain = s.trustDomain ∧
      ((s.write P a ok).1.journal = s.journal ∨ s.trustDomain ≠ "" ∧
        ∃ e, Intact P s.trustDomain a e ∧ (s.write P a ok).1.journal = s.journal ++ [e]) := by
  unfold Sink.write Sink.append
  cases htrusted : s.trustedID P a.identityID with
  | some agentID =>
    cases ok with
    | false => exact ⟨rfl, Or.inl rfl⟩
    | true =>
      exact ⟨rfl, Or.inr ⟨(trustedID_eq_some htrusted).1, _, intact_trusted htrusted, rfl⟩⟩
  | none =>
    cases hclaimed : s.claimedID P a.identityID with
    | none => exact ⟨rfl, Or.inl rfl⟩
    | some agentID =>
      cases ok with
      | false => exact ⟨rfl, Or.inl rfl⟩
      | true =>
        exact ⟨rfl, Or.inr ⟨(claimedID_eq_some hclaimed).1, _, intact_claimed hclaimed, rfl⟩⟩

/-- **Every event that is written is intact**, each about an alert of its own, in their order and
whatever becomes of the other appends; without a trust domain none is written. -/
theorem send_intact (P : Passport) (U : Unicode) (s : Sink) (alerts : List (Alert × Bool)) :
    ∃ sent written, (s.send P U alerts).1.journal = s.journal ++ written ∧
      sent.Sublist (alerts.map Prod.fst) ∧ List.Forall₂ (Intact P s.trustDomain) sent written ∧
      (s.trustDomain = "" → written = []) := by
  have hrun : ∀ (alerts : List (Alert × Bool)) (s : Sink) (err : Option GoString),
      ∃ sent written, (alerts.foldl (Sink.sendOne P U) (s, err)).1.journal = s.journal ++ written ∧
        sent.Sublist (alerts.map Prod.fst) ∧ List.Forall₂ (Intact P s.trustDomain) sent written ∧
        (s.trustDomain = "" → written = []) := by
    intro alerts
    induction alerts with
    | nil => exact fun s _ => ⟨[], [], (List.append_nil _).symm, List.nil_sublist _, .nil, fun _ => rfl⟩
    | cons x alerts ih =>
      intro s err
      obtain ⟨hdomain, hcases⟩ := write_cases (P := P) s x.1 x.2
      obtain ⟨sent, written, hjournal, hsub, hall, hnone⟩ :=
        ih (s.write P x.1 x.2).1 (Sink.sendOne P U (s, err) x).2
      rw [hdomain] at hall hnone
      rw [List.foldl_cons]
      rcases hcases with hsame | ⟨hne, e, he, hone⟩
      · rw [hsame] at hjournal
        exact ⟨sent, written, hjournal, hsub.trans (List.sublist_cons_self _ _), hall, hnone⟩
      · refine ⟨x.1 :: sent, e :: written, ?_, hsub.cons_cons _, .cons he hall, fun h => absurd h hne⟩
        rw [hone, List.append_assoc] at hjournal
        exact hjournal
  exact hrun alerts s none

/-- Validators that look at the scheme alone. -/
def schemeOnly : Passport where
  validateAgentURI id := if Strings.hasPrefix id "agent://" then none else some ("no agent URI" : GoString)
  validateSubject id := if Strings.hasPrefix id "claimed:agent://" then none else some ("no subject" : GoString)
  refuses_claimed id h := by
    have hnot : Strings.hasPrefix id "agent://" = false := by
      rw [Strings.hasPrefix, List.isPrefixOf_iff_prefix] at h
      obtain ⟨t, rfl⟩ := h
      rfl
    simp [hnot]

example : (Sink.mk [] "run-1" "acme.example" 0 0 0).trustedID schemeOnly "agent:ops-helper" =
    some ("agent://acme.example/ops-helper" : GoString) := by decide

end Idryx.Events
