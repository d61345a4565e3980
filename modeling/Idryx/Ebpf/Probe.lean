import Idryx.Ebpf.Decode

/-!
# The program in the kernel

`internal/ebpfcapture/bpf/connect.c`: what `on_connect` does with one call of `__sys_connect_file`.

* `Reason`, `SkippedCounts`, `bump`, `any`, `lost`, `readSkipped`: the counters of what is not reported;
* `Connect`: a call, with what can be read at its address; `Connect.enter`: what is done before there is a
  record, `writeRecord`: what is done once there is one;
* `Connect.fate`: what becomes of a call; `Connect.target`: the address it is to connect to;
* **`connection_fate`**: a call is written with its address and its task, or not at all;
  `fate_eq_ignored_iff`: what is not looked at; `reason_fate_eq_ringbufFull_iff`: what is counted as lost.
-/

namespace Idryx.Ebpf

open Layout

/-! ## The counters -/

/-- A member of `skipped_counts`. -/
inductive Reason where
  | otherFamily
  | unreadable
  | ringbufFull
  | tooShort
deriving DecidableEq

/-- All reasons, in the order of the counters. -/
def Reason.all : List Reason := [.otherFamily, .unreadable, .ringbufFull, .tooShort]

/-- `SkippedCounts`. -/
@[ext] structure SkippedCounts where
  otherFamily : UInt64
  unreadable : UInt64
  ringbufFull : UInt64
  tooShort : UInt64

namespace SkippedCounts

/-- Nothing is counted. -/
def zero : SkippedCounts := ⟨0, 0, 0, 0⟩

/-- The counter of a reason. -/
def get (s : SkippedCounts) : Reason → UInt64
  | .otherFamily => s.otherFamily
  | .unreadable => s.unreadable
  | .ringbufFull => s.ringbufFull
  | .tooShort => s.tooShort

/-- `bump`. -/
def bump (s : SkippedCounts) : Reason → SkippedCounts
  | .otherFamily => { s with otherFamily := s.otherFamily + 1 }
  | .unreadable => { s with unreadable := s.unreadable + 1 }
  | .ringbufFull => { s with ringbufFull := s.ringbufFull + 1 }
  | .tooShort => { s with tooShort := s.tooShort + 1 }

/-- `Any`. -/
def any (s : SkippedCounts) : Bool :=
  decide (s.otherFamily > 0 ∨ s.unreadable > 0 ∨ s.ringbufFull > 0 ∨ s.tooShort > 0)

/-- `Lost`. -/
def lost (s : SkippedCounts) : Bool := decide (s.ringbufFull > 0)

/-- `readSkipped`, by what looking up the counters gives: zeros where it fails. -/
def readSkipped (raw : Option SkippedCounts) : SkippedCounts := raw.getD zero

theorem get_bump (s : SkippedCounts) (r r' : Reason) :
    (s.bump r).get r' = if r = r' then s.get r' + 1 else s.get r' := by
  cases r <;> cases r' <;> rfl

theorem any_iff {s : SkippedCounts} : s.any = true ↔ ∃ r, 0 < s.get r := by
  rw [any, decide_eq_true_eq]
  constructor
  · rintro (h | h | h | h)
    · exact ⟨.otherFamily, h⟩
    · exact ⟨.unreadable, h⟩
    · exact ⟨.ringbufFull, h⟩
    · exact ⟨.tooShort, h⟩
  · rintro ⟨r, h⟩
    cases r with
    | otherFamily => exact Or.inl h
    | unreadable => exact Or.inr (Or.inl h)
    | ringbufFull => exact Or.inr (Or.inr (Or.inl h))
    | tooShort => exact Or.inr (Or.inr (Or.inr h))

end SkippedCounts

/-! ## The program -/

/-- The families of the addresses the program reads, and the bytes it reads of one. -/
def AF_INET : UInt16 := 2

@[inherit_doc AF_INET]
def AF_INET6 : UInt16 := 10

@[inherit_doc AF_INET]
def SOCKADDR_IN_MIN : Int32 := 16

@[inherit_doc AF_INET]
def SOCKADDR_IN6_MIN : Int32 := 28

/-- `bpf_probe_read_kernel` at an address, of so many bytes. -/
abbrev ProbeRead : Type := (n : ℕ) → Option (Vector UInt8 n)

/-- A call of `__sys_connect_file`, and the task that makes it; the address may be null. -/
structure Connect where
  address : Option ProbeRead
  addrlen : Int32
  task : Task

/-- `struct sockaddr_in_local`. -/
def sockaddrIn (sa : Vector UInt8 8) : Sockaddr :=
  .inet (Vector.ofFn fun i : Fin 2 => sa[2 + (i : ℕ)]) (Vector.ofFn fun i : Fin 4 => sa[4 + (i : ℕ)])

/-- `struct sockaddr_in6_local`. -/
def sockaddrIn6 (sa6 : Vector UInt8 28) : Sockaddr :=
  .inet6 #v[sa6[2], sa6[3]] (Vector.ofFn fun i : Fin 16 => sa6[8 + (i : ℕ)])

/-- What is done before a record is reserved. -/
inductive Entry where
  | ignored
  | skipped (r : Reason)
  | reserve (probeRead : ProbeRead) (family : UInt16)

/-- `on_connect`, up to the reservation. -/
def Connect.enter (c : Connect) : Entry :=
  match c.address with
  | none => .ignored
  | some probeRead =>
    match probeRead 2 with
    | none => .skipped .unreadable
    | some bytes =>
      let family := UInt16.ofNat (ofLE bytes.toList)
      if family ≠ AF_INET ∧ family ≠ AF_INET6 then .skipped .otherFamily
      else if (family = AF_INET ∧ c.addrlen < SOCKADDR_IN_MIN) ∨ (family = AF_INET6 ∧ c.addrlen < SOCKADDR_IN6_MIN) then
        .skipped .tooShort
      else .reserve probeRead family

/-- The address as it is read for a family. -/
def readSockaddr (probeRead : ProbeRead) (family : UInt16) : Option Sockaddr :=
  if family = AF_INET then (probeRead 8).map sockaddrIn else (probeRead 28).map sockaddrIn6

/-- `on_connect` with a record reserved; `none` where the record is discarded. -/
def Connect.writeRecord (c : Connect) : Option ConnEvent :=
  match c.enter with
  | .reserve probeRead family => (readSockaddr probeRead family).map fun address => onConnect address c.task
  | _ => none

/-- What becomes of a call. -/
inductive Fate where
  | ignored
  | skipped (r : Reason)
  | written (address : Sockaddr) (task : Task)

/-- What becomes of a call; `space` says whether there is a record to be had. -/
def Connect.fate (c : Connect) (space : Bool) : Fate :=
  match c.enter with
  | .ignored => .ignored
  | .skipped r => .skipped r
  | .reserve probeRead family =>
    if space then
      match readSockaddr probeRead family with
      | some address => .written address c.task
      | none => .skipped .unreadable
    else .skipped .ringbufFull

/-- The reason for which a call is counted. -/
def Fate.reason : Fate → Option Reason
  | .skipped r => some r
  | _ => none

/-- What is written of a call. -/
def Fate.connection : Fate → Option (Sockaddr × Task)
  | .written address task => some (address, task)
  | _ => none

/-! ## What becomes of a call -/

/-- The call is one to report: its family is one of the two, and it is as long as that family needs. -/
def Connect.inScope (c : Connect) : Bool :=
  match c.enter with
  | .reserve _ _ => true
  | _ => false

/-- The address that a call to report is to connect to, if it can be read. -/
def Connect.target (c : Connect) : Option Sockaddr :=
  match c.enter with
  | .reserve probeRead family => readSockaddr probeRead family
  | _ => none

variable {c : Connect} {space : Bool}

theorem fate_eq_ignored_iff : c.fate space = .ignored ↔ c.address = none := by
  unfold Connect.fate Connect.enter
  cases c.address with
  | none => exact iff_of_true rfl rfl
  | some probeRead =>
    refine iff_of_false ?_ (Option.some_ne_none _)
    dsimp only
    cases probeRead 2 with
    | none => exact Fate.noConfusion
    | some bytes =>
      dsimp only
      split_ifs
      · simp
      · simp
      · cases hread : readSockaddr probeRead (UInt16.ofNat (ofLE bytes.toList)) <;> simp [hread]
      · simp

theorem writeRecord_eq : c.writeRecord = c.target.map fun address => onConnect address c.task := by
  unfold Connect.writeRecord Connect.target
  cases c.enter <;> rfl

/-- **A call is written** as what it is, with the task that makes it, exactly if there is space for it. -/
theorem connection_fate : (c.fate space).connection =
    if space then c.target.map fun address => (address, c.task) else none := by
  unfold Connect.fate Connect.target
  cases c.enter with
  | ignored => cases space <;> rfl
  | skipped r => cases space <;> rfl
  | reserve probeRead family =>
    cases space with
    | false => rfl
    | true =>
      dsimp only
      rw [if_pos rfl, if_pos rfl]
      cases readSockaddr probeRead family <;> rfl

/-- **Evidence is lost** for want of space only. -/
theorem reason_fate_eq_ringbufFull_iff :
    (c.fate space).reason = some .ringbufFull ↔ c.inScope = true ∧ space = false := by
  have henter : c.enter ≠ .skipped .ringbufFull := by
    unfold Connect.enter
    cases c.address with
    | none => exact Entry.noConfusion
    | some probeRead =>
      dsimp only
      cases probeRead 2 with
      | none => simp
      | some bytes =>
        dsimp only
        split_ifs <;> simp
  unfold Connect.fate Connect.inScope
  cases hc : c.enter with
  | ignored => simp [Fate.reason]
  | skipped r =>
    rw [hc, ne_eq, Entry.skipped.injEq] at henter
    simp [Fate.reason, henter]
  | reserve probeRead family =>
    cases space with
    | false => simp [Fate.reason]
    | true => cases hread : readSockaddr probeRead family <;> simp [Fate.reason, hread]

end Idryx.Ebpf
