import Idryx.Ebpf.Probe
import Idryx.Ebpf.Reader
import Idryx.Lib.RingBuffer

/-!
# A capture

`internal/ebpfcapture/bpf/connect.c` and `Run`, together: the program runs for many tasks at a time, on as
many processors, and one loop reads what they write.

* `Probe`, `Sensor`, `Act`, `Sensor.step`, `Reachable`: any interleaving of the steps of the calls, of the
  reader, and of the end of the capture;
* `Sensor.written`, `Sensor.counted`: what becomes of the calls; `Kept`: the invariant, with a lemma for each
  step;
* `Accounted`: the flows are those of the calls written, in order, and the counters those of the calls that
  are not; `Complete`: nothing at all is missing;
* **`capture_accounted`**: every reachable state is accounted for, and one in which nothing is under way
  is complete;
* **`quiet_reachable`**: nothing is ever stuck.
-/

namespace Idryx.Ebpf

open RingBuffer

/-! ## The system -/

/-- Where the program is in a call: about to count it, with a record reserved, or done. -/
inductive Phase where
  | counting (r : Reason)
  | writing
  | ended
deriving DecidableEq

/-- A call on its way; `space` says whether the ring buffer had a record when it asked for one. -/
structure Probe where
  call : Connect
  space : Bool
  phase : Phase

/-- Where a call is to end. -/
def Probe.fate (p : Probe) : Fate := p.call.fate p.space

/-- Where a call is after its first step. -/
def Connect.phase (c : Connect) (space : Bool) : Phase :=
  match c.enter with
  | .ignored => .ended
  | .skipped r => .counting r
  | .reserve _ _ => if space then .writing else .counting .ringbufFull

/-- The calls, in the order of their first steps; the buffer between the two sides, the counters in the kernel, the
flows so far, and whether the reader is closed. -/
structure Sensor where
  probes : List Probe
  events : Ring ℕ (List UInt8)
  skipped : SkippedCounts
  flows : List Flow
  closed : Bool

/-- No call was made. -/
def Sensor.start : Sensor := ⟨[], empty, .zero, [], false⟩

/-- A call comes to the ring buffer, which may be out of space; call `i` writes its record, or counts what it
has to; the reader takes the next record; and the reader is closed, or fails. -/
inductive Act where
  | connect (call : Connect) (space : Bool)
  | write (i : ℕ)
  | count (i : ℕ)
  | read (rd : Reading)
  | close

namespace Sensor

/-- A call enters: its record is reserved if it has one. -/
def connect (s : Sensor) (call : Connect) (space : Bool) : Sensor :=
  { s with
    probes := s.probes ++ [⟨call, space, call.phase space⟩]
    events := if call.phase space = .writing then s.events.reserve s.probes.length else s.events }

/-- The record of call `i` is submitted, or discarded if its address cannot be read. -/
def write (s : Sensor) (i : ℕ) (p : Probe) : Sensor :=
  let ev := p.call.writeRecord
  { s with
    probes := s.probes.set i { p with phase := if ev.isSome then .ended else .counting .unreadable }
    events := s.events.settle i (ev.map ConnEvent.bytes) }

/-- A call is counted for a reason. -/
def count (s : Sensor) (i : ℕ) (p : Probe) (r : Reason) : Sensor :=
  { s with
    probes := s.probes.set i { p with phase := .ended }
    skipped := s.skipped.bump r }

/-- What an act does; none where it cannot be done. -/
def step (H : Host) (s : Sensor) : Act → Option Sensor
  | .connect call space => some (s.connect call space)
  | .write i =>
    match s.probes[i]? with
    | some p => if p.phase = .writing then some (s.write i p) else none
    | none => none
  | .count i =>
    match s.probes[i]? with
    | some p =>
      match p.phase with
      | .counting r => some (s.count i p r)
      | _ => none
    | none => none
  | .read rd =>
    if s.closed then none
    else s.events.take.map fun (sample, events) =>
      { s with events := events, flows := s.flows ++ (sample.bind (H.handle rd)).toList }
  | .close => some { s with closed := true }

end Sensor

/-- The states a capture can come to. -/
inductive Reachable (H : Host) : Sensor → Prop
  | start : Reachable H .start
  | step {s s' : Sensor} (a : Act) (h : Reachable H s) (hstep : s.step H a = some s') : Reachable H s'

/-! ## What becomes of the calls -/

namespace Sensor

/-- Where the calls are to end. -/
def fates (s : Sensor) : List Fate := s.probes.map Probe.fate

/-- What is written, of all calls so far. -/
def written (s : Sensor) : List (Sockaddr × Task) := s.fates.filterMap Fate.connection

/-- How many calls have been counted for a reason. -/
def counted (s : Sensor) (r : Reason) : ℕ :=
  s.probes.countP fun p => p.phase = .ended ∧ p.fate.reason = some r

/-- How many calls are still to be counted. -/
def uncounted (s : Sensor) : ℕ := s.probes.countP fun p => p.phase ≠ .ended ∧ p.fate.reason.isSome

/-- The counters that `Run` returns, by whether they can be looked up. -/
def returned (s : Sensor) (lookup : Bool) : SkippedCounts := .readSkipped (if lookup then some s.skipped else none)

/-- Nothing is under way. -/
structure Quiet (s : Sensor) : Prop where
  ended : ∀ p ∈ s.probes, p.phase = .ended
  drained : s.events.slots = []

/-- What call `i` writes. -/
def put (s : Sensor) (i : ℕ) : Option (List UInt8) :=
  s.fates[i]?.bind fun fate => fate.connection.map connectionBytes

end Sensor

/-- What the reader makes of a connection. -/
def Host.report (H : Host) (p : (Sockaddr × Task) × Reading) : Option Flow :=
  if p.1.1.quiet = true ∨ isSelf (onConnect p.1.1 p.1.2).fields H.selfPID = true then none
  else some (H.connectionFlow p.2 p.1)

/-- The flows are what is reported of the first of the connections written, in order and each as it was when
it was read; every counter has the number of the calls that went there, as far as it can; and the calls with an
address are those written, those counted once, and those still to be counted. -/
structure Accounted (H : Host) (s : Sensor) : Prop where
  flows : ∃ readings, readings.length ≤ s.written.length ∧
    s.flows = (s.written.zip readings).filterMap H.report
  skipped : ∀ r, s.skipped.get r = UInt64.ofNat (s.counted r)
  addressed : s.probes.countP (fun p => p.call.address.isSome) =
    s.written.length + (Reason.all.map s.counted).sum + s.uncounted

/-- All connections written are read, and all other calls with an address are counted; and while the counters hold,
there is nothing to say of evidence lost exactly if every connection that was in scope and could be read is
written. What `Run` returns says so if its counters can be looked up, and else it says nothing. -/
structure Complete (H : Host) (s : Sensor) : Prop where
  flows : ∃ readings, readings.length = s.written.length ∧
    s.flows = (s.written.zip readings).filterMap H.report
  skipped : ∀ r, s.skipped.get r = UInt64.ofNat (s.fates.countP fun fate => fate.reason = some r)
  addressed : s.probes.countP (fun p => p.call.address.isSome) =
    s.written.length + (Reason.all.map fun r => s.fates.countP fun fate => fate.reason = some r).sum
  told : s.probes.length < 2 ^ 64 → ∀ lookup, (s.returned lookup).lost = true ↔
    lookup = true ∧ ∃ p ∈ s.probes, p.call.inScope = true ∧ p.space = false
  lost : s.probes.length < 2 ^ 64 → (s.skipped.lost = false ↔ ∀ p ∈ s.probes, p.call.inScope = true → p.space = true)
  any : s.probes.length < 2 ^ 64 → (s.skipped.any = false ↔ ∀ fate ∈ s.fates, fate.reason = none)
  whole : s.probes.length < 2 ^ 64 → s.skipped.lost = false →
    s.written = s.probes.filterMap fun p => p.call.target.map fun address => (address, p.call.task)

/-! ## The invariant -/

/-- What holds in every state: the buffer follows the calls in the order of their slots, which is that of the
calls; the flows are those of what was taken; and a call is counted for its reason, once. -/
structure Kept (H : Host) (s : Sensor) : Prop where
  order : ∃ order, Follows s.put order s.events ∧ order.filterMap s.put = s.written.map connectionBytes ∧
    ∀ i ∈ order, i < s.probes.length
  flows : ∃ readings, readings.length = s.events.taken.length ∧
    s.flows = (s.events.taken.zip readings).filterMap fun p => H.handle p.2 p.1
  skipped : ∀ r, s.skipped.get r = UInt64.ofNat (s.counted r)
  counting : ∀ p ∈ s.probes, ∀ r, p.phase = .counting r → p.fate.reason = some r
  writing : ∀ p ∈ s.probes, p.phase = .writing → p.call.phase p.space = .writing

theorem kept_start (H : Host) : Kept H .start where
  order := ⟨[], follows_empty _, rfl, fun _ h => absurd h List.not_mem_nil⟩
  flows := ⟨[], rfl, rfl⟩
  skipped r := by cases r <;> rfl
  counting _ hp := absurd hp List.not_mem_nil
  writing _ hp := absurd hp List.not_mem_nil

section Steps

variable {H : Host} {s : Sensor} {p : Probe} {i : ℕ} {call : Connect} {space : Bool} {x : Phase}

theorem phase_cases (call : Connect) (space : Bool) :
    (call.phase space = .ended ∧ (call.fate space).reason = none ∧ (call.fate space).connection = none) ∨
    (∃ r, call.phase space = .counting r ∧ (call.fate space).reason = some r ∧ (call.fate space).connection = none) ∨
    (call.phase space = .writing ∧ space = true) := by
  unfold Connect.phase Connect.fate
  cases call.enter with
  | ignored => exact Or.inl ⟨rfl, rfl, rfl⟩
  | skipped r => exact Or.inr (Or.inl ⟨r, rfl, rfl, rfl⟩)
  | reserve probeRead family =>
    cases space with
    | false => exact Or.inr (Or.inl ⟨_, rfl, rfl, rfl⟩)
    | true => exact Or.inr (Or.inr ⟨rfl, rfl⟩)

theorem bytes_writeRecord (hspace : p.space = true) :
    p.call.writeRecord.map ConnEvent.bytes = p.fate.connection.map connectionBytes := by
  rw [writeRecord_eq, Probe.fate, connection_fate, if_pos hspace, Option.map_map, Option.map_map]
  rfl

theorem reason_of_writeRecord (hwriting : p.call.phase p.space = .writing) :
    p.fate.reason = if p.call.writeRecord.isSome then none else some .unreadable := by
  unfold Connect.phase at hwriting
  unfold Probe.fate Connect.fate Connect.writeRecord
  cases henter : p.call.enter with
  | ignored => simp [henter] at hwriting
  | skipped r => simp [henter] at hwriting
  | reserve probeRead family =>
    have hspace : p.space = true := by
      by_contra hno
      simp [henter, hno] at hwriting
    cases hread : readSockaddr probeRead family <;> simp [hspace, hread, Fate.reason]

theorem map_fate_set (hp : s.probes[i]? = some p) :
    (s.probes.set i { p with phase := x }).map Probe.fate = s.fates := by
  obtain ⟨hi, rfl⟩ := List.getElem?_eq_some_iff.mp hp
  have hi' : i < (s.probes.map Probe.fate).length := by rwa [List.length_map]
  calc (s.probes.set i { s.probes[i] with phase := x }).map Probe.fate
      = (s.probes.map Probe.fate).set i (s.probes.map Probe.fate)[i] := by
        rw [List.map_set, List.getElem_map]
        rfl
    _ = s.fates := List.set_getElem_self hi'

theorem countP_set (hp : s.probes[i]? = some p) (hphase : p.phase ≠ .ended) (r : Reason) :
    (s.probes.set i { p with phase := x }).countP (fun p => p.phase = .ended ∧ p.fate.reason = some r) =
      s.counted r + if x = .ended ∧ p.fate.reason = some r then 1 else 0 := by
  obtain ⟨hi, rfl⟩ := List.getElem?_eq_some_iff.mp hp
  have hno : ¬ (s.probes[i].phase = .ended ∧ s.probes[i].fate.reason = some r) := fun h => hphase h.1
  rw [List.countP_set hi, Sensor.counted]
  have hfate : Probe.fate { s.probes[i] with phase := x } = s.probes[i].fate := rfl
  simp only [hno, hfate, decide_false, Bool.false_eq_true, if_false, Nat.sub_zero, decide_eq_true_eq]

theorem space_of_writing (h : call.phase space = .writing) : space = true := by
  rcases phase_cases call space with ⟨hphase, -⟩ | ⟨r, hphase, -⟩ | ⟨-, hspace⟩
  · rw [hphase] at h
    cases h
  · rw [hphase] at h
    cases h
  · exact hspace

theorem fates_connect : (s.connect call space).fates = s.fates ++ [call.fate space] := List.map_append

theorem put_connect (hi : i < s.probes.length) : (s.connect call space).put i = s.put i := by
  have hi' : i < s.fates.length := by rwa [Sensor.fates, List.length_map]
  rw [Sensor.put, fates_connect, List.getElem?_append_left hi', Sensor.put]

theorem put_connect_self :
    (s.connect call space).put s.probes.length = (call.fate space).connection.map connectionBytes := by
  have hlen : s.fates.length = s.probes.length := List.length_map _
  rw [Sensor.put, fates_connect, List.getElem?_append_right hlen.le, hlen, Nat.sub_self]
  rfl

theorem kept_connect (h : Kept H s) (call : Connect) (space : Bool) : Kept H (s.connect call space) := by
  have hlen : (s.connect call space).probes.length = s.probes.length + 1 := List.length_append
  have hwritten : (s.connect call space).written = s.written ++ (call.fate space).connection.toList := by
    rw [Sensor.written, fates_connect, List.filterMap_append, Sensor.written]
    cases hc : (call.fate space).connection <;> simp [hc]
  obtain ⟨order, hfollows, hput, hbound⟩ := h.order
  have hcongr : ∀ i ∈ order, s.put i = (s.connect call space).put i := fun i hi => (put_connect (hbound i hi)).symm
  have hfollows' := hfollows.congr hcongr
  have hput' : order.filterMap (s.connect call space).put = s.written.map connectionBytes := by
    rw [← hput]
    exact List.filterMap_congr fun i hi => (hcongr i hi).symm
  refine ⟨?_, ?_, fun r => ?_, fun p hp => ?_, fun p hp => ?_⟩
  · by_cases hphase : call.phase space = .writing
    · refine ⟨order ++ [s.probes.length], ?_, ?_, ?_⟩
      · rw [Sensor.connect, if_pos hphase]
        exact hfollows'.reserve _
      · rw [List.filterMap_append, hput', hwritten, List.map_append]
        cases hc : (call.fate space).connection <;> simp [put_connect_self, hc]
      · rw [hlen, List.forall_mem_append, List.forall_mem_singleton]
        exact ⟨fun i hi => Nat.lt_succ_of_lt (hbound i hi), Nat.lt_succ_self _⟩
    · have hnone : (call.fate space).connection = none := by
        rcases phase_cases call space with ⟨-, -, hnone⟩ | ⟨r, -, -, hnone⟩ | ⟨hwriting, -⟩
        · exact hnone
        · exact hnone
        · exact absurd hwriting hphase
      refine ⟨order, ?_, ?_, fun i hi => hlen ▸ Nat.lt_succ_of_lt (hbound i hi)⟩
      · rw [Sensor.connect, if_neg hphase]
        exact hfollows'
      · rw [hput', hwritten, hnone, Option.toList_none, List.append_nil]
  · have htaken : (s.connect call space).events.taken = s.events.taken := by
      rw [Sensor.connect]
      split_ifs <;> rfl
    rw [htaken]
    exact h.flows
  · have hcounted : (s.connect call space).counted r = s.counted r := by
      have hnot : ¬ (call.phase space = .ended ∧ (call.fate space).reason = some r) := by
        rintro ⟨hended, hreason⟩
        rcases phase_cases call space with ⟨-, hnone, -⟩ | ⟨r', hphase, -⟩ | ⟨hphase, -⟩
        · exact absurd (hreason.symm.trans hnone) (Option.some_ne_none r)
        · exact Phase.noConfusion (hended.symm.trans hphase)
        · exact Phase.noConfusion (hended.symm.trans hphase)
      rw [Sensor.counted, Sensor.connect, List.countP_append, List.countP_singleton]
      simp only [Probe.fate, hnot, decide_false, Bool.false_eq_true, if_false, Nat.add_zero]
      rfl
    rw [hcounted]
    exact h.skipped r
  · rcases List.mem_append.mp hp with hp | hp
    · exact h.counting p hp
    · rw [List.mem_singleton] at hp
      subst hp
      intro r hr
      rcases phase_cases call space with ⟨hphase, -⟩ | ⟨r', hphase, hreason, -⟩ | ⟨hphase, -⟩
      · exact Phase.noConfusion (hr.symm.trans hphase)
      · rw [← Phase.counting.inj (hphase.symm.trans hr)]
        exact hreason
      · exact Phase.noConfusion (hr.symm.trans hphase)
  · rcases List.mem_append.mp hp with hp | hp
    · exact h.writing p hp
    · rw [List.mem_singleton] at hp
      subst hp
      exact id

theorem put_congr {s s' : Sensor} (h : s'.fates = s.fates) : s'.put = s.put := by
  funext i
  rw [Sensor.put, h, Sensor.put]

theorem phases_set (h : Kept H s) {q : Probe} (hq : q ∈ s.probes.set i { p with phase := x })
    (hcounting : ∀ r, x = .counting r → p.fate.reason = some r) (hwriting : x ≠ .writing) :
    (∀ r, q.phase = .counting r → q.fate.reason = some r) ∧ (q.phase = .writing → q.call.phase q.space = .writing) := by
  rcases List.mem_or_eq_of_mem_set hq with hmem | rfl
  · exact ⟨h.counting q hmem, h.writing q hmem⟩
  · exact ⟨hcounting, fun hx => absurd hx hwriting⟩

theorem kept_write (h : Kept H s) (hp : s.probes[i]? = some p) (hphase : p.phase = .writing) :
    Kept H (s.write i p) := by
  have hmem : p ∈ s.probes := List.mem_of_getElem? hp
  have hwriting := h.writing p hmem hphase
  have hreason := reason_of_writeRecord hwriting
  have hfates : (s.write i p).fates = s.fates := map_fate_set hp
  have hwritten : (s.write i p).written = s.written := by rw [Sensor.written, hfates, Sensor.written]
  obtain ⟨order, hfollows, hput, hbound⟩ := h.order
  have hphases : ∀ q ∈ (s.write i p).probes, (∀ r, q.phase = .counting r → q.fate.reason = some r) ∧
      (q.phase = .writing → q.call.phase q.space = .writing) := by
    intro q hq
    refine phases_set h hq (fun r hr => ?_) ?_
    · split_ifs at hr with hsome
      rw [hreason, if_neg hsome, Phase.counting.inj hr]
    · split_ifs <;> exact Phase.noConfusion
  refine ⟨⟨order, ?_, ?_, ?_⟩, h.flows, fun r => ?_, fun q hq => (hphases q hq).1, fun q hq => (hphases q hq).2⟩
  · rw [put_congr hfates]
    refine hfollows.settle ?_
    rw [bytes_writeRecord (space_of_writing hwriting), Sensor.put, Sensor.fates, List.getElem?_map, hp]
    rfl
  · rw [put_congr hfates, hwritten]
    exact hput
  · intro j hj
    rw [Sensor.write, List.length_set]
    exact hbound j hj
  · have hcounted : (s.write i p).counted r = s.counted r := by
      refine (countP_set hp (by rw [hphase]; exact Phase.noConfusion) r).trans ?_
      rw [if_neg, Nat.add_zero]
      rintro ⟨hended, hr⟩
      rw [hreason] at hr
      split_ifs at hended hr
    rw [hcounted]
    exact h.skipped r

theorem kept_count (h : Kept H s) {r : Reason} (hp : s.probes[i]? = some p) (hphase : p.phase = .counting r) :
    Kept H (s.count i p r) := by
  have hreason := h.counting p (List.mem_of_getElem? hp) r hphase
  have hfates : (s.count i p r).fates = s.fates := map_fate_set hp
  have hwritten : (s.count i p r).written = s.written := by rw [Sensor.written, hfates, Sensor.written]
  obtain ⟨order, hfollows, hput, hbound⟩ := h.order
  have hphases : ∀ q ∈ (s.count i p r).probes, (∀ r, q.phase = .counting r → q.fate.reason = some r) ∧
      (q.phase = .writing → q.call.phase q.space = .writing) := fun q hq =>
    phases_set h hq (fun _ => Phase.noConfusion) Phase.noConfusion
  refine ⟨⟨order, ?_, ?_, ?_⟩, h.flows, fun r' => ?_, fun q hq => (hphases q hq).1, fun q hq => (hphases q hq).2⟩
  · rw [put_congr hfates]
    exact hfollows
  · rw [put_congr hfates, hwritten]
    exact hput
  · intro j hj
    rw [Sensor.count, List.length_set]
    exact hbound j hj
  · have hcounted : (s.count i p r).counted r' = s.counted r' + if r = r' then 1 else 0 := by
      refine (countP_set hp (by rw [hphase]; exact Phase.noConfusion) r').trans ?_
      simp only [hreason, Option.some.injEq, true_and]
    rw [hcounted, Sensor.count, SkippedCounts.get_bump, h.skipped r']
    split_ifs
    · rw [UInt64.ofNat_add]
      rfl
    · rfl

theorem kept_read (h : Kept H s) {rd : Reading} {sample : Option (List UInt8)} {events : Ring ℕ (List UInt8)}
    (htake : s.events.take = some (sample, events)) :
    Kept H { s with events := events, flows := s.flows ++ (sample.bind (H.handle rd)).toList } := by
  obtain ⟨order, hfollows, hput, hbound⟩ := h.order
  obtain ⟨readings, hlen, hflows⟩ := h.flows
  refine ⟨⟨order, hfollows.take htake, hput, hbound⟩, ?_, h.skipped, h.counting, h.writing⟩
  have htaken := taken_take htake
  dsimp only
  cases sample with
  | none =>
    rw [Option.toList_none, List.append_nil] at htaken
    rw [htaken, Option.bind_none, Option.toList_none, List.append_nil]
    exact ⟨readings, hlen, hflows⟩
  | some raw =>
    refine ⟨readings ++ [rd], ?_, ?_⟩
    · rw [htaken, List.length_append, List.length_append, hlen]
      rfl
    · rw [htaken, hflows, Option.toList_some, List.zip_append hlen.symm, List.filterMap_append, Option.bind_some]
      cases hh : H.handle rd raw <;> simp [hh]

end Steps

theorem step_cases {H : Host} {s s' : Sensor} {a : Act} (h : s.step H a = some s') :
    (∃ call space, a = .connect call space ∧ s' = s.connect call space) ∨
    (∃ i p, a = .write i ∧ s.probes[i]? = some p ∧ p.phase = .writing ∧ s' = s.write i p) ∨
    (∃ i p r, a = .count i ∧ s.probes[i]? = some p ∧ p.phase = .counting r ∧ s' = s.count i p r) ∨
    (∃ rd sample events, a = .read rd ∧ s.closed = false ∧ s.events.take = some (sample, events) ∧
      s' = { s with events := events, flows := s.flows ++ (sample.bind (H.handle rd)).toList }) ∨
    (a = .close ∧ s' = { s with closed := true }) := by
  cases a with
  | connect call space => exact Or.inl ⟨call, space, rfl, (Option.some.inj h).symm⟩
  | write i =>
    dsimp only [Sensor.step] at h
    split at h
    · rename_i p hp
      split_ifs at h with hphase
      exact Or.inr (Or.inl ⟨i, p, rfl, hp, hphase, (Option.some.inj h).symm⟩)
    · cases h
  | count i =>
    dsimp only [Sensor.step] at h
    split at h
    · rename_i p hp
      split at h
      · rename_i r hphase
        exact Or.inr (Or.inr (Or.inl ⟨i, p, r, rfl, hp, hphase, (Option.some.inj h).symm⟩))
      · cases h
    · cases h
  | read rd =>
    dsimp only [Sensor.step] at h
    split_ifs at h with hclosed
    obtain ⟨⟨sample, events⟩, htake, rfl⟩ := Option.map_eq_some_iff.mp h
    exact Or.inr (Or.inr (Or.inr (Or.inl ⟨rd, sample, events, rfl, Bool.eq_false_iff.mpr hclosed, htake, rfl⟩)))
  | close => exact Or.inr (Or.inr (Or.inr (Or.inr ⟨rfl, (Option.some.inj h).symm⟩)))

theorem kept_reachable {H : Host} {s : Sensor} (h : Reachable H s) : Kept H s := by
  induction h with
  | start => exact kept_start H
  | step a _ hstep ih =>
    rcases step_cases hstep with ⟨call, space, -, rfl⟩ | ⟨i, p, -, hp, hphase, rfl⟩ | ⟨i, p, r, -, hp, hphase, rfl⟩ |
      ⟨rd, sample, events, -, -, htake, rfl⟩ | ⟨-, rfl⟩
    · exact kept_connect ih call space
    · exact kept_write ih hp hphase
    · exact kept_count ih hp hphase
    · exact kept_read ih htake
    · exact ⟨ih.order, ih.flows, ih.skipped, ih.counting, ih.writing⟩

/-! ## The account -/

section Account

variable {H : Host} {s : Sensor}

theorem filterMap_handle (H : Host) (ps : List (Sockaddr × Task)) (rds : List Reading) :
    ((ps.map connectionBytes).zip rds).filterMap (fun p => H.handle p.2 p.1) = (ps.zip rds).filterMap H.report := by
  rw [List.zip_map_left, List.filterMap_map]
  exact List.filterMap_congr fun p _ => handle_bytes H p.2 p.1

theorem Kept.reported (h : Kept H s) : ∃ readings, readings.length = s.events.taken.length ∧
    s.events.taken.length ≤ s.written.length ∧ s.flows = (s.written.zip readings).filterMap H.report := by
  obtain ⟨order, hfollows, hput, -⟩ := h.order
  obtain ⟨readings, hlen, hflows⟩ := h.flows
  have hprefix := hfollows.taken_prefix
  rw [hput] at hprefix
  have hle : s.events.taken.length ≤ s.written.length := by
    have hle := hprefix.length_le
    rwa [List.length_map] at hle
  refine ⟨readings, hlen, hle, ?_⟩
  have htaken : s.events.taken = (s.written.take readings.length).map connectionBytes := by
    rw [List.map_take, hlen]
    exact List.prefix_iff_eq_take.mp hprefix
  have hzip : s.written.zip readings = (s.written.take readings.length).zip readings := by
    rw [List.zip_eq_zip_take_min, Nat.min_eq_right (hlen ▸ hle), List.take_length]
  rw [hflows, htaken, filterMap_handle, hzip]

theorem fate_of_address (p : Probe) : p.call.address.isSome = true ↔ p.fate.connection.isSome = true ∨
    ∃ r, p.fate.reason = some r := by
  have hignored : p.fate = .ignored ↔ p.call.address = none := fate_eq_ignored_iff
  rw [Option.isSome_iff_ne_none, ne_eq, ← hignored]
  cases p.fate <;> simp [Fate.reason, Fate.connection]

theorem reason_of_connection {fate : Fate} (h : fate.connection.isSome = true) : fate.reason = none := by
  cases fate with
  | ignored => rfl
  | skipped r => cases h
  | written address task => rfl

theorem length_written (s : Sensor) : s.written.length = s.probes.countP fun p => p.fate.connection.isSome := by
  rw [Sensor.written, List.length_filterMap_eq_countP, Sensor.fates, List.countP_map]
  rfl

theorem addressed_eq (s : Sensor) : s.probes.countP (fun p => p.call.address.isSome) =
    s.written.length + (Reason.all.map s.counted).sum + s.uncounted := by
  rw [length_written]
  unfold Sensor.counted Sensor.uncounted
  induction s.probes with
  | nil => rfl
  | cons p ps ih =>
    simp only [Reason.all, List.map_cons, List.map_nil, List.sum_cons, List.sum_nil, List.countP_cons, ne_eq,
      Bool.decide_and, decide_not, Bool.decide_eq_true] at ih ⊢
    have haddress := fate_of_address p
    by_cases hwritten : p.fate.connection.isSome = true
    · simp only [haddress.mpr (Or.inl hwritten), hwritten, reason_of_connection hwritten]
      simp
      omega
    · cases hreason : p.fate.reason with
      | none =>
        have hnone : ¬ p.call.address.isSome = true := fun h => by
          obtain ⟨r, hr⟩ := (haddress.mp h).resolve_left hwritten
          exact Option.some_ne_none r (hr.symm.trans hreason)
        simp [hnone, hwritten, ih]
      | some r =>
        simp only [haddress.mpr (Or.inr ⟨r, hreason⟩), hwritten, ih]
        cases r <;> by_cases hended : p.phase = .ended <;> simp [hended] <;> omega

theorem Kept.accounted (h : Kept H s) : Accounted H s := by
  obtain ⟨readings, hlen, hle, hflows⟩ := h.reported
  exact ⟨⟨readings, hlen ▸ hle, hflows⟩, h.skipped, addressed_eq s⟩

theorem ofNat_pos_iff {n : ℕ} (h : n < 2 ^ 64) : 0 < UInt64.ofNat n ↔ 0 < n := by
  rw [UInt64.lt_iff_toNat_lt, UInt64.toNat_ofNat_of_lt' h]
  rfl

theorem counted_of_quiet (hq : s.Quiet) (r : Reason) :
    s.counted r = s.fates.countP fun fate => fate.reason = some r := by
  rw [Sensor.fates, List.countP_map]
  refine List.countP_congr fun p hp => ?_
  simp [hq.ended p hp]

theorem uncounted_of_quiet (hq : s.Quiet) : s.uncounted = 0 := by
  rw [Sensor.uncounted, List.countP_eq_zero]
  intro p hp
  simp [hq.ended p hp]

theorem Kept.skipped_of_quiet (h : Kept H s) (hq : s.Quiet) (r : Reason) :
    s.skipped.get r = UInt64.ofNat (s.fates.countP fun fate => fate.reason = some r) :=
  counted_of_quiet hq r ▸ h.skipped r

theorem Kept.skipped_pos_iff (h : Kept H s) (hq : s.Quiet) (hlt : s.probes.length < 2 ^ 64) (r : Reason) :
    0 < s.skipped.get r ↔ ∃ fate ∈ s.fates, fate.reason = some r := by
  have hle : (s.fates.countP fun fate => fate.reason = some r) ≤ s.probes.length := by
    have hle := List.countP_le_length (p := fun fate : Fate => decide (fate.reason = some r)) (l := s.fates)
    rwa [Sensor.fates, List.length_map] at hle
  rw [h.skipped_of_quiet hq r, ofNat_pos_iff (hle.trans_lt hlt), List.countP_pos_iff]
  simp only [decide_eq_true_eq]

/-- **When evidence is lost**: a connection that was in scope had no room. -/
theorem Kept.lost_iff (h : Kept H s) (hq : s.Quiet) (hlt : s.probes.length < 2 ^ 64) :
    s.skipped.lost = false ↔ ∀ p ∈ s.probes, p.call.inScope = true → p.space = true := by
  have hfull : 0 < s.skipped.ringbufFull ↔ ∃ fate ∈ s.fates, fate.reason = some .ringbufFull :=
    h.skipped_pos_iff hq hlt .ringbufFull
  rw [SkippedCounts.lost, decide_eq_false_iff_not, gt_iff_lt, hfull, Sensor.fates]
  simp only [List.mem_map, exists_exists_and_eq_and, not_exists, not_and, Probe.fate,
    reason_fate_eq_ringbufFull_iff, Bool.not_eq_false]

theorem Kept.any_iff (h : Kept H s) (hq : s.Quiet) (hlt : s.probes.length < 2 ^ 64) :
    s.skipped.any = false ↔ ∀ fate ∈ s.fates, fate.reason = none := by
  rw [← Bool.not_eq_true, SkippedCounts.any_iff]
  constructor
  · intro hno fate hfate
    by_contra hsome
    obtain ⟨r, hr⟩ := Option.ne_none_iff_exists'.mp hsome
    exact hno ⟨r, (h.skipped_pos_iff hq hlt r).mpr ⟨fate, hfate, hr⟩⟩
  · rintro hnone ⟨r, hr⟩
    obtain ⟨fate, hfate, heq⟩ := (h.skipped_pos_iff hq hlt r).mp hr
    exact absurd (heq.symm.trans (hnone fate hfate)) (Option.some_ne_none r)

theorem connection_fate_of_space {p : Probe} (h : p.call.inScope = true → p.space = true) :
    p.fate.connection = p.call.target.map fun address => (address, p.call.task) := by
  rw [Probe.fate, connection_fate]
  cases hspace : p.space with
  | true => rfl
  | false =>
    have hout : p.call.inScope ≠ true := fun hin => by
      rw [h hin] at hspace
      cases hspace
    rw [if_neg Bool.false_ne_true]
    unfold Connect.inScope at hout
    unfold Connect.target
    cases henter : p.call.enter with
    | ignored => rfl
    | skipped r => rfl
    | reserve probeRead family => simp [henter] at hout

theorem Kept.complete (h : Kept H s) (hq : s.Quiet) : Complete H s := by
  have haddressed := addressed_eq s
  rw [uncounted_of_quiet hq, Nat.add_zero, List.map_congr_left fun r _ => counted_of_quiet hq r] at haddressed
  refine ⟨?_, h.skipped_of_quiet hq, haddressed, fun hlt lookup => ?_, h.lost_iff hq, h.any_iff hq, fun hlt hno => ?_⟩
  · obtain ⟨order, hfollows, hput, -⟩ := h.order
    obtain ⟨readings, hlen, -, hflows⟩ := h.reported
    refine ⟨readings, ?_, hflows⟩
    rw [hlen, hfollows.taken_of_empty hq.drained, hput, List.length_map]
  · cases lookup with
    | false => exact iff_of_false Bool.false_ne_true fun h => Bool.false_ne_true h.1
    | true =>
      change s.skipped.lost = true ↔ _
      rw [← Bool.not_eq_false, h.lost_iff hq hlt]
      simp
  · rw [Sensor.written, Sensor.fates, List.filterMap_map]
    exact List.filterMap_congr fun p hp => connection_fate_of_space ((h.lost_iff hq hlt).mp hno p hp)

end Account

/-- **A capture is accounted for** at any time: the flows are what is reported of the connections written, in
order, none twice and none passed over, and every other call is counted; and once nothing is under way that
is all there is, and the capture says if it is not. -/
theorem capture_accounted {H : Host} {s : Sensor} (h : Reachable H s) :
    Accounted H s ∧ (s.Quiet → Complete H s) :=
  ⟨(kept_reachable h).accounted, (kept_reachable h).complete⟩

/-! ## A capture of one connection -/

/-- A host on which nothing claims a name. -/
def oneHost : Host := ⟨noClaims, noHosts, afterBoot, 7, false⟩

/-- A kernel address with these bytes and zeroes behind them. -/
def kernelCopy (bytes : List UInt8) : ProbeRead := fun _ => some (Vector.ofFn fun i => bytes.getD i 0)

/-- A connection to port 443 of 93.184.216.34. -/
def oneCall : Connect := ⟨some (kernelCopy [2, 0, 1, 187, 93, 184, 216, 34]), 16, ProcFS.hostTask⟩

/-- The connection is made, written and read. -/
def oneFlow : Option Sensor :=
  [Act.connect oneCall true, .write 0, .read ⟨Time.zero, fun _ => none⟩].foldlM (Sensor.step oneHost) .start

theorem reachable_foldlM {H : Host} {acts : List Act} {s s' : Sensor} (h : Reachable H s)
    (hrun : acts.foldlM (Sensor.step H) s = some s') : Reachable H s' := by
  induction acts generalizing s with
  | nil => exact Option.some.inj hrun ▸ h
  | cons a acts ih =>
    rw [List.foldlM_cons] at hrun
    obtain ⟨s₁, hstep, hrest⟩ := Option.bind_eq_some_iff.mp hrun
    exact ih (.step a h hstep) hrest

theorem oneFlow_done : oneFlow.any (fun s => s.flows.length == 1 && s.probes.all (fun p => p.phase == .ended) &&
    s.events.slots.isEmpty) = true := by decide +kernel

theorem capture_accounted_oneFlow : ∃ s, oneFlow = some s ∧ s.flows.length = 1 ∧ s.Quiet ∧ Complete oneHost s := by
  obtain ⟨s, hs, hdone⟩ := (Option.any_eq_true _ _).mp oneFlow_done
  simp only [Bool.and_eq_true, beq_iff_eq, List.all_eq_true, List.isEmpty_iff] at hdone
  have hquiet : s.Quiet := ⟨hdone.1.2, hdone.2⟩
  exact ⟨s, hs, hdone.1.1, hquiet, (capture_accounted (reachable_foldlM .start hs)).2 hquiet⟩

/-! ## Nothing is stuck -/

/-- A step of a call that has begun, or of the reader. -/
def Act.own : Act → Bool
  | .connect _ _ => false
  | .close => false
  | _ => true

/-- One capture goes on to another without a new call, and open as it is. -/
def Goes (H : Host) (s s' : Sensor) : Prop := ∃ a : Act, a.own = true ∧ s.step H a = some s'

/-- A slot that is being written belongs to a call that writes. -/
def Attended (s : Sensor) : Prop :=
  ∀ q ∈ s.events.slots, q.2 = .busy → ∃ p, s.probes[q.1]? = some p ∧ p.phase = .writing

section Progress

variable {H : Host} {s s' : Sensor}

theorem attended_reachable (h : Reachable H s) : Attended s := by
  induction h with
  | start => exact fun q hq => absurd hq List.not_mem_nil
  | @step s s' a h hstep ih =>
    have hother : ∀ {j i : ℕ} {p p' : Probe}, s.probes[j]? = some p → j ≠ i → (s.probes.set i p')[j]? = some p :=
      fun hp hne => by rwa [List.getElem?_set_ne hne.symm]
    rcases step_cases hstep with ⟨call, space, -, rfl⟩ | ⟨i, p, -, hp, hphase, rfl⟩ | ⟨i, p, r, -, hp, hphase, rfl⟩ |
      ⟨rd, sample, events, -, -, htake, rfl⟩ | ⟨-, rfl⟩
    · intro q hq hbusy
      have hkeep : ∀ {j p}, s.probes[j]? = some p → (s.connect call space).probes[j]? = some p := fun {j p} hj =>
        (List.getElem?_append_left (List.getElem?_eq_some_iff.mp hj).1).trans hj
      rw [Sensor.connect] at hq
      dsimp only at hq
      split_ifs at hq with hwriting
      · rcases List.mem_append.mp hq with hq | hq
        · obtain ⟨p, hp, hphase⟩ := ih q hq hbusy
          exact ⟨p, hkeep hp, hphase⟩
        · rw [List.mem_singleton.mp hq]
          exact ⟨_, List.getElem?_concat_length, hwriting⟩
      · obtain ⟨p, hp, hphase⟩ := ih q hq hbusy
        exact ⟨p, hkeep hp, hphase⟩
    · intro q hq hbusy
      obtain ⟨hq, hne⟩ := mem_settle hq hbusy
      obtain ⟨p', hp', hphase'⟩ := ih q hq hbusy
      exact ⟨p', hother hp' hne, hphase'⟩
    · intro q hq hbusy
      obtain ⟨p', hp', hphase'⟩ := ih q hq hbusy
      refine ⟨p', hother hp' ?_, hphase'⟩
      rintro rfl
      rw [Option.some.inj (hp.symm.trans hp'), hphase'] at hphase
      cases hphase
    · obtain ⟨slot, hslots⟩ := slots_take htake
      exact fun q hq hbusy => ih q (hslots ▸ List.mem_cons_of_mem _ hq) hbusy
    · exact ih

theorem Reachable.goes (h : Reachable H s) (hgoes : Relation.ReflTransGen (Goes H) s s') : Reachable H s' := by
  induction hgoes with
  | refl => exact h
  | tail _ hstep ih =>
    obtain ⟨a, -, hstep⟩ := hstep
    exact .step a ih hstep

/-- How many steps a call still has to make. -/
def Phase.left : Phase → ℕ
  | .writing => 2
  | .counting _ => 1
  | .ended => 0

/-- How many steps the probes have before them. -/
def Sensor.left (s : Sensor) : ℕ := (s.probes.map fun p => p.phase.left).sum

theorem left_set {i : ℕ} {p : Probe} {x : Phase} (hp : s.probes[i]? = some p) (hlt : x.left < p.phase.left) :
    ((s.probes.set i { p with phase := x }).map fun p => p.phase.left).sum < s.left := by
  obtain ⟨hi, rfl⟩ := List.getElem?_eq_some_iff.mp hp
  have hset : ∀ q, s.probes.set i q = s.probes.take i ++ q :: s.probes.drop (i + 1) := fun q => by
    rw [List.set_eq_take_append_cons_drop, if_pos hi]
  have hself : s.probes = s.probes.take i ++ s.probes[i] :: s.probes.drop (i + 1) := by
    rw [← hset, List.set_getElem_self]
  have hleft : s.left = ((s.probes.take i ++ s.probes[i] :: s.probes.drop (i + 1)).map fun p => p.phase.left).sum := by
    rw [← hself, Sensor.left]
  rw [hset, hleft]
  simp only [List.map_append, List.sum_append, List.map_cons, List.sum_cons]
  omega

theorem ends (s : Sensor) : ∃ s', Relation.ReflTransGen (Goes H) s s' ∧ (∀ p ∈ s'.probes, p.phase = .ended) ∧
    s'.fates = s.fates ∧ s'.closed = s.closed := by
  induction hn : s.left using Nat.strong_induction_on generalizing s with
  | _ n ih =>
    by_cases hall : ∀ p ∈ s.probes, p.phase = .ended
    · exact ⟨s, .refl, hall, rfl, rfl⟩
    · push Not at hall
      obtain ⟨p, hmem, hphase⟩ := hall
      obtain ⟨i, hp⟩ := List.getElem?_of_mem hmem
      -- whichever step the call has to make, it can make
      have hnext : ∃ s', Goes H s s' ∧ s'.left < s.left ∧ s'.fates = s.fates ∧ s'.closed = s.closed := by
        cases hx : p.phase with
        | ended => exact absurd hx hphase
        | counting r =>
          refine ⟨s.count i p r, ⟨.count i, rfl, ?_⟩, left_set hp (by rw [hx]; exact Nat.one_pos), map_fate_set hp, rfl⟩
          simp only [Sensor.step, hp, hx]
        | writing =>
          refine ⟨s.write i p, ⟨.write i, rfl, ?_⟩, left_set hp ?_, map_fate_set hp, rfl⟩
          · simp only [Sensor.step, hp, hx, if_true]
          · rw [hx]
            split_ifs
            · exact Nat.two_pos
            · exact Nat.one_lt_two
      obtain ⟨s', hgo, hlt, hfates, hclosed⟩ := hnext
      obtain ⟨s'', hgoes, hended, hfates', hclosed'⟩ := ih s'.left (hn ▸ hlt) s' rfl
      exact ⟨s'', .head hgo hgoes, hended, hfates'.trans hfates, hclosed'.trans hclosed⟩

theorem drains (hattended : Attended s) (hended : ∀ p ∈ s.probes, p.phase = .ended) (hopen : s.closed = false) :
    ∃ s', Relation.ReflTransGen (Goes H) s s' ∧ s'.Quiet ∧ s'.fates = s.fates := by
  induction hn : s.events.slots.length generalizing s with
  | zero => exact ⟨s, .refl, ⟨hended, List.length_eq_zero_iff.mp hn⟩, rfl⟩
  | succ n ih =>
    cases htake : s.events.take with
    | none =>
      have hne : s.events.slots ≠ [] := List.ne_nil_of_length_eq_add_one hn
      obtain ⟨q, hq, hbusy⟩ := take_eq_none htake hne
      obtain ⟨p, hp, hphase⟩ := hattended q hq hbusy
      rw [hended p (List.mem_of_getElem? hp)] at hphase
      cases hphase
    | some taken =>
      obtain ⟨sample, events⟩ := taken
      obtain ⟨slot, hslots⟩ := slots_take htake
      rw [hslots, List.length_cons, Nat.add_right_cancel_iff] at hn
      obtain ⟨s', hgoes, hquiet, hfates⟩ := ih (s := { s with events := events, flows :=
        s.flows ++ (sample.bind (H.handle ⟨Time.zero, fun _ => none⟩)).toList })
        (fun q hq => hattended q (hslots ▸ List.mem_cons_of_mem _ hq)) hended hopen hn
      refine ⟨s', .head ⟨.read ⟨Time.zero, fun _ => none⟩, rfl, ?_⟩ hgoes, hquiet, hfates⟩
      simp only [Sensor.step, hopen, htake, Bool.false_eq_true, if_false, Option.map_some]

end Progress

/-- **Nothing is ever stuck**: an open capture can go on, with no new call, until nothing is under way and all
that its calls wrote is read. -/
theorem quiet_reachable {H : Host} {s : Sensor} (h : Reachable H s) (hopen : s.closed = false) :
    ∃ s', Relation.ReflTransGen (Goes H) s s' ∧ s'.Quiet ∧ s'.fates = s.fates ∧ Complete H s' := by
  obtain ⟨s₁, hgoes₁, hended, hfates₁, hclosed⟩ := ends (H := H) s
  obtain ⟨s₂, hgoes₂, hquiet, hfates₂⟩ := drains (H := H) (attended_reachable (h.goes hgoes₁)) hended
    (hclosed.trans hopen)
  have hgoes := hgoes₁.trans hgoes₂
  exact ⟨s₂, hgoes, hquiet, hfates₂.trans hfates₁, (kept_reachable (h.goes hgoes)).complete hquiet⟩

/-- A call whose address is shorter than its family needs. -/
def shortCall : Connect := { oneCall with addrlen := 8 }

/-- One call has its record and one is about to be counted. -/
def underWay : Sensor := (Sensor.start.connect oneCall true).connect shortCall true

theorem quiet_reachable_underWay : underWay.probes.map Probe.phase = [.writing, .counting .tooShort] ∧
    ∃ s, Relation.ReflTransGen (Goes oneHost) underWay s ∧ s.Quiet ∧ s.fates = underWay.fates ∧ Complete oneHost s := by
  have hone : Reachable oneHost (Sensor.start.connect oneCall true) := .step (.connect oneCall true) .start rfl
  exact ⟨by decide +kernel, quiet_reachable (.step (.connect shortCall true) hone rfl) rfl⟩

end Idryx.Ebpf
