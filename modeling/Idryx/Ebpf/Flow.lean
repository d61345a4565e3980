import Idryx.Events.Sink
import Idryx.Ebpf.Decode
import Idryx.Ebpf.Destination
import Idryx.Go.Rfc3339
import Idryx.Ingest.Egress

/-!
# The flows of a capture

`internal/ebpfcapture/flow.go`, `identity.go` and the loop of `capture_linux.go`: what is recorded of a
connection, and the log it is written to.

* `identity`, `claimedIdentity`, `Capture.flow`, `toEgressLog`, `egressLogText`;
* **`egressText_log`**: what is read back of a log: all that was written, with the bytes replaced that are
  no UTF-8;
* `Carried`: every flow comes back unchanged, and different identities stay apart; `Capture.Named`: the
  name a flow goes by is valid;
* **`carried_iff`**: the flows are carried exactly if their names are;
* `renamed_processes`: two processes that come back as one.
-/

namespace Idryx.Ebpf

open Ingest (EgressFlow FlowRecord)

/-! ## Identities -/

/-- `strings.TrimRight(string(comm), "\x00")`. -/
def trimComm (comm : Vector UInt8 16) : GoString := comm.toList.rdropWhile (· == 0)

/-- `Identity`. -/
def identity (comm : GoString) (cgroupID : UInt64) : GoString :=
  if cgroupID = 0 then AiUsage.identityPrefix ++ comm
  else AiUsage.identityPrefix ++ comm ++ ("@cg" : GoString) ++ Strconv.itoa cgroupID.toNat

/-- `ClaimedIdentity`. -/
def claimedIdentity (V : Events.Passport) (agentURI : GoString) : GoString :=
  if agentURI = "" then ""
  else if V.validateAgentURI agentURI ≠ none then ""
  else AiUsage.claimedPrefix ++ agentURI

/-! ## Flows -/

/-- A captured connection. -/
structure Flow where
  time : Time
  identity : GoString
  destination : GoString
  pid : UInt32
  cgroupID : UInt64
  observed : GoString

/-- The hosts whose addresses are looked up. -/
def knownLLMHosts : List GoString := ["api.anthropic.com", "api.openai.com", "generativelanguage.googleapis.com"]

/-- What `resolveLLMHosts` makes of the known hosts: addresses, each with one of them. -/
structure HostTable where
  host : GoString → Option GoString
  known : ∀ ip name, host ip = some name → name ∈ knownLLMHosts

/-- What the loop has of a connection: the decoded record with its address, what the process says it is, and
the time by the wall clock. -/
structure Capture where
  event : DecodedConnEvent
  ip : IP
  isIP : event.ip = some ip
  agentURI : GoString
  time : Time

/-- The flow that is recorded. -/
def Capture.flow (V : Events.Passport) (llmIPs : HostTable) (c : Capture) : Flow :=
  let comm := trimComm c.event.comm
  let claimed := claimedIdentity V c.agentURI
  { time := c.time
    identity := if claimed ≠ "" then claimed else identity comm c.event.cgroupID
    destination := destination c.ip.toList c.event.dport llmIPs.host
    pid := c.event.pid
    cgroupID := c.event.cgroupID
    observed := identity comm c.event.cgroupID }

/-- The flow of the log. -/
def Flow.toEgressFlow (f : Flow) : EgressFlow := ⟨f.time.formatRFC3339Nano, f.identity, f.destination⟩

/-- `ToEgressLog`: no flow has any bytes. -/
def toEgressLog (flows : List Flow) : List FlowRecord := (flows.map Flow.toEgressFlow).map EgressFlow.record

/-- The log as it is written to a file. -/
def egressLogText (flows : List Flow) : GoString := Json.encode (Ingest.logJson (toEgressLog flows))

/-! ## What is read back -/

/-- Nothing is skipped, and there is one event for each flow, in order, at its instant, with its destination
and its identity. Flows of different identities have events of different ones. -/
structure Carried (P : Time.Parser) (allocated : ℕ) (flows : List Flow) : Prop where
  read : ∃ events n, Ingest.egressText P (egressLogText flows) allocated = some (events, ⟨flows.length, 0⟩, n) ∧
    List.Forall₂ (fun f e => e.time.instant = f.time.instant ∧ e.type = eventEgress ∧
      e.resource = f.destination ∧ e.identityID = f.identity) flows events
  apart : ∀ events rep n, Ingest.egressText P (egressLogText flows) allocated = some (events, rep, n) →
    ∀ p ∈ flows.zip events, ∀ q ∈ flows.zip events, p.1.identity ≠ q.1.identity → p.2.identityID ≠ q.2.identityID

theorem valid_of_ascii {s : GoString} (hs : ∀ b ∈ s, b < 0x80) : Utf8.valid s = true := by
  have h := Json.valid_ascii_append hs []
  rw [List.append_nil] at h
  exact h

theorem ascii_fraction {n : ℕ} : ∀ b ∈ Time.fraction n, b < 0x80 := fun b hb =>
  Time.ascii_pad b ((List.rdropWhile_prefix (· == 0x30) (Time.pad 9 n)).subset hb)

theorem ascii_format (t : Time) : ∀ b ∈ t.formatRFC3339Nano, b < 0x80 := by
  have hsign : ∀ b ∈ (if t.year < 0 then ("-" : GoString) else ""), b < 0x80 := by
    split_ifs <;> exact forall_mem_of_all (by decide)
  have hfraction : ∀ b ∈ (if (t.wall : ℕ) = 0 then ("" : GoString) else "." ++ Time.fraction t.wall), b < 0x80 := by
    split_ifs
    · exact forall_mem_of_all (by decide)
    · exact List.forall_mem_append.mpr ⟨forall_mem_of_all (by decide), ascii_fraction⟩
  have hdash : ∀ b ∈ ("-" : GoString), b < 0x80 := forall_mem_of_all (by decide)
  have hcolon : ∀ b ∈ (":" : GoString), b < 0x80 := forall_mem_of_all (by decide)
  unfold Time.formatRFC3339Nano
  dsimp only
  simp only [List.forall_mem_append, and_assoc]
  exact ⟨hsign, Time.ascii_pad, hdash, Time.ascii_pad, hdash, Time.ascii_pad, forall_mem_of_all (by decide), Time.ascii_pad, hcolon,
    Time.ascii_pad, hcolon, Time.ascii_pad, hfraction, forall_mem_of_all (by decide)⟩

/-- The flow as the reader has it. -/
def Flow.reread (f : Flow) : EgressFlow :=
  ⟨f.time.formatRFC3339Nano, Utf8.replaceInvalid f.identity, Utf8.replaceInvalid f.destination⟩

theorem replaceInvalid_toEgressFlow (f : Flow) : f.toEgressFlow.replaceInvalid = f.reread := by
  have htime := Utf8.replaceInvalid_eq_self (valid_of_ascii (ascii_format f.time))
  rw [Flow.toEgressFlow, EgressFlow.replaceInvalid, htime, Flow.reread]

/-- The event of a flow as it is read back. -/
def Flow.event (f : Flow) : Event := f.reread.toEvent ⟨f.time.wall, f.time.ext, none⟩

section Reading

variable {P : Time.Parser} (hP : ∀ s st, Time.parseRFC3339 s = some st → P.stamp s = some st)

include hP in
/-- **What is read back of a log**: every flow, with the bytes replaced that are no UTF-8. -/
theorem egressText_log {flows : List Flow} (hy : ∀ f ∈ flows, 0 ≤ f.time.year ∧ f.time.year ≤ 9999)
    (allocated : ℕ) : Ingest.egressText P (egressLogText flows) allocated =
      some (flows.map Flow.event, ⟨flows.length, 0⟩, allocated) := by
  have hfields : (flows.map Flow.toEgressFlow).map EgressFlow.replaceInvalid = flows.map Flow.reread := by
    rw [List.map_map]
    exact List.map_congr_left fun f _ => replaceInvalid_toEgressFlow f
  have hflows : ((flows.map Flow.reread).map EgressFlow.record).map FlowRecord.toEgressFlow =
      flows.map Flow.reread := by
    rw [List.map_map]
    exact List.map_id _
  have hstamps : List.Forall₂ (fun (g : EgressFlow) (t : Time) => P.stamp g.time = some ⟨t.wall, t.ext, none⟩ ∧
      t.loc = none) (flows.map Flow.reread) (flows.map fun f => ⟨f.time.wall, f.time.ext, none⟩) := by
    rw [List.forall₂_map_left_iff, List.forall₂_map_right_iff, List.forall₂_same]
    exact fun f hf => ⟨hP _ _ (Time.parseRFC3339_format (hy f hf).1 (hy f hf).2), rfl⟩
  have hevents : List.zipWith EgressFlow.toEvent (flows.map Flow.reread)
      (flows.map fun f => (⟨f.time.wall, f.time.ext, none⟩ : Time)) = flows.map Flow.event := by
    rw [List.zipWith_map, List.zipWith_self]
    rfl
  rw [Ingest.egressText, egressLogText, toEgressLog, Ingest.unmarshal_encode, hfields, Option.map_some, hflows,
    Ingest.egress_of_stamps hstamps, hevents, List.length_map]

include hP in
theorem carried_iff_valid {flows : List Flow} (hy : ∀ f ∈ flows, 0 ≤ f.time.year ∧ f.time.year ≤ 9999)
    (allocated : ℕ) : Carried P allocated flows ↔
      ∀ f ∈ flows, Utf8.valid f.identity = true ∧ Utf8.valid f.destination = true := by
  have htext := egressText_log hP hy allocated
  constructor
  · intro h f hf
    obtain ⟨events, n, hread, hall⟩ := h.read
    rw [htext, Option.some.injEq, Prod.mk.injEq] at hread
    rw [← hread.1, List.forall₂_map_right_iff, List.forall₂_same] at hall
    obtain ⟨-, -, hdest, hid⟩ := hall f hf
    exact ⟨Utf8.replaceInvalid_eq_self_iff.mp hid, Utf8.replaceInvalid_eq_self_iff.mp hdest⟩
  · intro h
    have hid : ∀ f ∈ flows, f.event.identityID = f.identity := fun f hf =>
      Utf8.replaceInvalid_eq_self (h f hf).1
    refine ⟨⟨_, _, htext, ?_⟩, fun events rep n hread p hp q hq hne => ?_⟩
    · rw [List.forall₂_map_right_iff, List.forall₂_same]
      exact fun f hf => ⟨rfl, rfl, Utf8.replaceInvalid_eq_self (h f hf).2, hid f hf⟩
    · rw [htext, Option.some.injEq, Prod.mk.injEq] at hread
      rw [← hread.1, ← List.map_prod_left_eq_zip] at hp hq
      obtain ⟨f, hf, rfl⟩ := List.mem_map.mp hp
      obtain ⟨g, hg, rfl⟩ := List.mem_map.mp hq
      dsimp only at hne ⊢
      rw [hid f hf, hid g hg]
      exact hne

end Reading

/-! ## When the texts are valid -/

theorem valid_destination (llmIPs : HostTable) (ip : IP) (port : UInt16) :
    Utf8.valid (destination ip.toList port llmIPs.host) = true := by
  have hip : ∀ b ∈ Net.ipString ip.toList, b < 0x80 := by
    have hascii : ∀ b : UInt8, b = 0x2E ∨ b = 0x3A ∨ Net.isLowerHex b = true → b < 0x80 :=
      forall_byte (by decide +kernel)
    exact fun b hb => hascii b (Net.numeric_ipString (Or.inr ip.size_toArray) b hb)
  have htable : ∀ name ∈ knownLLMHosts, name.all (fun b => b < 0x80) = true := by decide
  have hknown : ∀ name ∈ knownLLMHosts, ∀ b ∈ name, b < 0x80 := fun name hname => forall_mem_of_all (htable name hname)
  have hhost : ∀ b ∈ (if port = 443 then (llmIPs.host (Net.ipString ip.toList)).getD (Net.ipString ip.toList)
      else Net.ipString ip.toList), b < 0x80 := by
    split_ifs
    · cases hname : llmIPs.host (Net.ipString ip.toList) with
      | none => exact hip
      | some name => exact hknown name (llmIPs.known _ name hname)
    · exact hip
  have hport : ∀ b ∈ itoa port, b < 0x80 := by
    rw [itoa_eq]
    exact Strconv.ascii_itoa port.toNat
  refine valid_of_ascii ?_
  unfold destination Net.joinHostPort
  dsimp only
  have hbrackets : (∀ b ∈ ("[" : GoString), b < 0x80) ∧ (∀ b ∈ ("]:" : GoString), b < 0x80) ∧
      ∀ b ∈ (":" : GoString), b < 0x80 :=
    ⟨forall_mem_of_all (by decide), forall_mem_of_all (by decide), forall_mem_of_all (by decide)⟩
  generalize (if port = 443 then (llmIPs.host (Net.ipString ip.toList)).getD (Net.ipString ip.toList)
    else Net.ipString ip.toList) = host at hhost ⊢
  split_ifs
  · simp only [List.forall_mem_append]
    exact ⟨⟨⟨hbrackets.1, hhost⟩, hbrackets.2.1⟩, hport⟩
  · simp only [List.forall_mem_append]
    exact ⟨⟨hhost, hbrackets.2.2⟩, hport⟩

theorem valid_identity (comm : GoString) (cgroupID : UInt64) :
    Utf8.valid (identity comm cgroupID) = Utf8.valid comm := by
  have hprefix : ∀ b ∈ AiUsage.identityPrefix, b < 0x80 := forall_mem_of_all (by decide)
  unfold identity
  split_ifs
  · exact Json.valid_ascii_append hprefix comm
  · have hsuffix : Utf8.valid (("@cg" : GoString) ++ Strconv.itoa cgroupID.toNat) = true := by
      exact valid_of_ascii (List.forall_mem_append.mpr ⟨forall_mem_of_all (by decide), Strconv.ascii_itoa _⟩)
    have hat : ∀ b ∈ (("@cg" : GoString) ++ Strconv.itoa cgroupID.toNat).head?, Utf8.isCont b = false := by
      intro b hb
      have hb' : b = 0x40 := (Option.some.inj hb).symm
      rw [hb']
      decide
    rw [List.append_assoc, List.append_assoc, Json.valid_ascii_append hprefix, Utf8.valid_append_iff hat, hsuffix,
      Bool.and_true]

/-- The name a flow goes by is valid: what the process says it is, if that counts, or else its `comm`. -/
def Capture.Named (V : Events.Passport) (c : Capture) : Prop :=
  if claimedIdentity V c.agentURI ≠ "" then Utf8.valid c.agentURI = true
  else Utf8.valid (trimComm c.event.comm) = true

theorem valid_flow_iff (V : Events.Passport) (llmIPs : HostTable) (c : Capture) :
    (Utf8.valid (c.flow V llmIPs).identity = true ∧ Utf8.valid (c.flow V llmIPs).destination = true) ↔
      c.Named V := by
  have hprefix : ∀ b ∈ AiUsage.claimedPrefix, b < 0x80 := forall_mem_of_all (by decide)
  have hdest : Utf8.valid (c.flow V llmIPs).destination = true := valid_destination llmIPs c.ip c.event.dport
  rw [and_iff_left hdest]
  unfold Capture.Named Capture.flow
  dsimp only
  by_cases hclaimed : claimedIdentity V c.agentURI ≠ ""
  · rw [if_pos hclaimed, if_pos hclaimed]
    have htext : claimedIdentity V c.agentURI = AiUsage.claimedPrefix ++ c.agentURI := by
      unfold claimedIdentity at hclaimed ⊢
      split_ifs at hclaimed ⊢
      · exact absurd rfl hclaimed
      · exact absurd rfl hclaimed
      · rfl
    rw [htext, Json.valid_ascii_append hprefix]
  · rw [if_neg hclaimed, if_neg hclaimed, valid_identity]

/-- **A capture is carried unchanged** exactly if each flow goes by a name that is valid UTF-8. -/
theorem carried_iff {P : Time.Parser} (hP : ∀ s st, Time.parseRFC3339 s = some st → P.stamp s = some st)
    (V : Events.Passport) (llmIPs : HostTable) (captures : List Capture)
    (hy : ∀ c ∈ captures, 0 ≤ c.time.year ∧ c.time.year ≤ 9999) (allocated : ℕ) :
    Carried P allocated (captures.map (Capture.flow V llmIPs)) ↔ ∀ c ∈ captures, c.Named V := by
  have hyears : ∀ f ∈ captures.map (Capture.flow V llmIPs), 0 ≤ f.time.year ∧ f.time.year ≤ 9999 :=
    List.forall_mem_map.mpr hy
  rw [carried_iff_valid hP hyears, List.forall_mem_map]
  exact forall₂_congr fun c _ => valid_flow_iff V llmIPs c

/-! ## Two processes under one name -/

/-- A parser in UTC, which reads no more than it must. -/
def utc : Time.Parser := ⟨Time.parseRFC3339, fun _ => 0⟩

/-- No claim counts. -/
def noClaims : Events.Passport := ⟨fun _ => some "invalid", fun _ => some "invalid", fun _ _ => Option.some_ne_none _⟩

/-- No address has a name. -/
def noHosts : HostTable := ⟨fun _ => none, fun _ _ h => absurd h.symm (Option.some_ne_none _)⟩

/-- A connection of a process with this `comm`, in no cgroup of its own. -/
def process (comm : Vector UInt8 16) : Capture where
  event := ⟨0, 1, 7, 7, 443, 4, #v[93, 184, 216, 34, 0, 0, 0, 0, 0, 0, 0, 0, 0, 0, 0, 0], comm⟩
  ip := ipv4 93 184 216 34
  isIP := rfl
  agentURI := ""
  time := Time.zero

/-- A connection of a process named curl. -/
def curl : Capture := process #v[0x63, 0x75, 0x72, 0x6C, 0, 0, 0, 0, 0, 0, 0, 0, 0, 0, 0, 0]

/-- A name of one byte, which is no UTF-8 from `0x80` on. -/
def oneByte (b : UInt8) : Capture := process #v[b, 0, 0, 0, 0, 0, 0, 0, 0, 0, 0, 0, 0, 0, 0, 0]

/-- Two processes by their own names are carried as they are. -/
theorem carried_iff_curl : (curl.flow noClaims noHosts).identity ≠ ((oneByte 0x77).flow noClaims noHosts).identity ∧
    Carried utc 0 ([curl, oneByte 0x77].map (Capture.flow noClaims noHosts)) := by
  have hnamed : ∀ c ∈ [curl, oneByte 0x77], c.Named noClaims := by
    unfold Capture.Named
    decide
  exact ⟨by decide, (carried_iff (fun _ _ h => h) noClaims noHosts [curl, oneByte 0x77] (by decide) 0).mpr hnamed⟩

/-- **Two processes come back as one**: their names are one byte each, neither of them UTF-8. -/
theorem renamed_processes :
    ((oneByte 0xFF).flow noClaims noHosts).identity ≠ ((oneByte 0xFE).flow noClaims noHosts).identity ∧
    (∃ e e', Ingest.egressText utc (egressLogText ([oneByte 0xFF, oneByte 0xFE].map (Capture.flow noClaims noHosts))) 0 =
      some ([e, e'], ⟨2, 0⟩, 0) ∧ e.identityID = e'.identityID) ∧
    ¬ Carried utc 0 ([oneByte 0xFF, oneByte 0xFE].map (Capture.flow noClaims noHosts)) := by
  have hP : ∀ s st, Time.parseRFC3339 s = some st → utc.stamp s = some st := fun _ _ h => h
  have hy : ∀ f ∈ [oneByte 0xFF, oneByte 0xFE].map (Capture.flow noClaims noHosts),
      0 ≤ f.time.year ∧ f.time.year ≤ 9999 := by
    rw [List.forall_mem_map]
    show ∀ c ∈ [oneByte 0xFF, oneByte 0xFE], 0 ≤ c.time.year ∧ c.time.year ≤ 9999
    simp only [List.forall_mem_cons, List.not_mem_nil, false_implies, implies_true, and_true]
    exact ⟨by decide, by decide⟩
  have htext := egressText_log hP hy 0
  refine ⟨by decide +kernel, ⟨_, _, htext, by decide +kernel⟩, fun h => ?_⟩
  have hvalid := (carried_iff_valid hP hy 0).mp h _ List.mem_cons_self
  exact absurd hvalid.1 (by decide +kernel)

end Idryx.Ebpf
