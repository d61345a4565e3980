import Idryx.Ebpf.Clock

/-!
# What the sensor makes of a record

`internal/ebpfcapture/self.go`, `environ.go`, `environ_linux.go` and the loop of `Run`: which records are
reported, and whose word is taken for who connects.

* `findEnv`, `claimedAgentURI`, `isSelf`, `procPIDFor`, `isLocalModelPort`, `Host.handle`;
* **`findEnv_eq`**: an environment is read as a dictionary, the first entry of a name first;
  `findEnv_environBlock`: what a process was given is found;
* `handle_bytes`: a record is reported by its address and its task, or not at all;
* `Pids`, `ProcFS`: processes in their PID namespaces, and the `/proc` of the sensor;
* **`ProcFS.handle_exact`**: the sensor leaves out its own connections and no one else's for being its own,
  and asks nobody but the process that connects.
-/

namespace Idryx.Ebpf

open Strings

/-! ## The environment of a process -/

/-- The variable a process declares itself in. -/
def envVar : GoString := "AGENT_PASSPORT_ID"

/-- `findEnv`. -/
def findEnv (environ name : GoString) : GoString :=
  let start := name ++ "="
  match (split environ 0).find? fun entry => hasPrefix entry start with
  | some entry => entry.drop start.length
  | none => ""

/-- Where the environment of a process is read. -/
def environPath (pid : UInt32) : GoString := "/proc/" ++ Strconv.itoa pid.toNat ++ "/environ"

/-- `claimedAgentURI`; `readFile` is what can be read of a path. -/
def claimedAgentURI (readFile : GoString → Option GoString) (pid : UInt32) : GoString :=
  if pid = 0 then ""
  else
    match readFile (environPath pid) with
    | none => ""
    | some data => findEnv data envVar

/-- The name and the value of an entry, if it has an `=`. -/
def nameValue (entry : GoString) : Option (GoString × GoString) := cut entry 0x3D

/-- The entry of a name and a value. -/
def entry (p : GoString × GoString) : GoString := p.1 ++ 0x3D :: p.2

/-- `/proc/<pid>/environ` of a process with this environment. -/
def environBlock (env : List (GoString × GoString)) : GoString := env.flatMap fun p => entry p ++ [0]

theorem nameValue_eq_some {name v e : GoString} (hname : 0x3D ∉ name) :
    nameValue e = some (name, v) ↔ e = entry (name, v) := by
  constructor
  · intro hcut
    by_cases hmem : 0x3D ∈ e
    · obtain ⟨x, y, rfl, -, hxy⟩ := exists_cut hmem
      obtain ⟨rfl, rfl⟩ := Prod.mk.inj (Option.some.inj (hxy.symm.trans hcut))
      rfl
    · exact absurd (hcut.symm.trans (cut_eq_none.mpr hmem)) (Option.some_ne_none _)
  · rintro rfl
    exact cut_append hname v

theorem hasPrefix_iff {name e : GoString} : hasPrefix e (name ++ "=") = true ↔ ∃ v, e = entry (name, v) := by
  rw [hasPrefix, List.isPrefixOf_iff_prefix]
  refine exists_congr fun v => ?_
  rw [List.append_assoc, eq_comm]
  rfl

theorem drop_entry (name v : GoString) : (entry (name, v)).drop (name ++ "=" : GoString).length = v := by
  have hentry : entry (name, v) = (name ++ "=" : GoString) ++ v := (List.append_assoc name "=" v).symm
  rw [hentry, List.drop_left]

/-- **An environment is a dictionary**: of the entries with an `=`, the first that has the name before it. -/
theorem findEnv_eq {name : GoString} (hname : 0x3D ∉ name) (environ : GoString) :
    findEnv environ name = (((split environ 0).filterMap nameValue).lookup name).getD "" := by
  unfold findEnv
  dsimp only
  induction split environ 0 with
  | nil => rfl
  | cons e es ih =>
    by_cases hpre : hasPrefix e (name ++ "=") = true
    · obtain ⟨v, rfl⟩ := hasPrefix_iff.mp hpre
      have hname' := (nameValue_eq_some hname).mpr (rfl : entry (name, v) = _)
      rw [List.find?_cons_of_pos (p := fun entry => hasPrefix entry (name ++ "=")) hpre,
        List.filterMap_cons_some hname', List.lookup_cons_self]
      exact drop_entry name v
    · rw [List.find?_cons_of_neg (p := fun entry => hasPrefix entry (name ++ "=")) hpre, ih]
      cases hcut : nameValue e with
      | none => rw [List.filterMap_cons_none hcut]
      | some p =>
        have hne : (name == p.1) = false := by
          rw [beq_eq_false_iff_ne]
          rintro rfl
          exact hpre (hasPrefix_iff.mpr ⟨p.2, (nameValue_eq_some hname).mp hcut⟩)
        rw [List.filterMap_cons_some hcut, List.lookup_cons, hne]

theorem split_environBlock {env : List (GoString × GoString)} (h : ∀ p ∈ env, 0 ∉ entry p) :
    split (environBlock env) 0 = env.map entry ++ [[]] := by
  induction env with
  | nil => rfl
  | cons p env ih =>
    obtain ⟨hp, henv⟩ := List.forall_mem_cons.mp h
    rw [environBlock, List.flatMap_cons, List.append_assoc, List.singleton_append, split_append hp]
    exact congrArg (entry p :: ·) (ih henv)

/-- **What a process was given** under a name is found, and nothing where it was given nothing. -/
theorem findEnv_environBlock {env : List (GoString × GoString)} {name : GoString} (hname : 0x3D ∉ name)
    (hkeys : ∀ p ∈ env, 0x3D ∉ p.1) (hnul : ∀ p ∈ env, 0 ∉ entry p) :
    findEnv (environBlock env) name = (env.lookup name).getD "" := by
  have hcuts : (env.map entry).filterMap nameValue = env := by
    rw [List.filterMap_map]
    calc env.filterMap (nameValue ∘ entry) = env.filterMap some :=
          List.filterMap_congr fun p hp => (nameValue_eq_some (hkeys p hp)).mpr rfl
      _ = env := List.filterMap_some
  have hempty : [([] : GoString)].filterMap nameValue = [] := rfl
  rw [findEnv_eq hname, split_environBlock hnul, List.filterMap_append, hcuts, hempty, List.append_nil]

/-! ## Records -/

/-- `isSelf`. -/
def isSelf (ev : DecodedConnEvent) (selfPID : UInt32) : Bool := ev.nsTgid != 0 && ev.nsTgid == selfPID

/-- `procPIDFor`. -/
def procPIDFor (ev : DecodedConnEvent) (inInitPidNS : Bool) : UInt32 :=
  if inInitPidNS then ev.pid else ev.nsTgid

/-- `isLocalModelPort`. -/
def isLocalModelPort (port : UInt16) : Bool := port == 11434 || port == 8000 || port == 8001

/-- `IP.IsLoopback`. -/
def ipIsLoopback (ip : IP) : Bool :=
  let ip4 := Net.to4 ip.toList
  if ip4 ≠ [] then ip4.head? == some 127 else ip == #v[0, 0, 0, 0, 0, 0, 0, 0, 0, 0, 0, 0, 0, 0, 0, 1]

/-- What `Run` settles before it reads. -/
structure Host where
  validate : Events.Passport
  llmIPs : HostTable
  clock : ClockOffset
  selfPID : UInt32
  inInitPidNS : Bool

/-- What is there when a record is read: the time, and the files. -/
structure Reading where
  now : Time
  readFile : GoString → Option GoString

namespace Host

variable (H : Host)

/-- A decoded record with its address, as the loop has it. -/
def capture (rd : Reading) (ev : DecodedConnEvent) (ip : IP) (h : ev.ip = some ip) : Capture where
  event := ev
  ip := ip
  isIP := h
  agentURI := claimedAgentURI rd.readFile (procPIDFor ev H.inInitPidNS)
  time := H.clock.wallTime ev.ktimeNS rd.now

/-- The loop of `Run` on one record; `none` where it goes on without a flow. -/
def handle (rd : Reading) (rawSample : List UInt8) : Option Flow :=
  match decodeConnEvent rawSample with
  | none => none
  | some ev =>
    if ev.dport = 0 ∨ isSelf ev H.selfPID = true then none
    else
      match h : ev.ip with
      | none => none
      | some ip =>
        if ipIsLoopback ip && !isLocalModelPort ev.dport then none
        else some ((H.capture rd ev ip h).flow H.validate H.llmIPs)

end Host

/-! ## What is reported -/

/-- The port, in the order of the host's bytes. -/
def Sockaddr.port : Sockaddr → UInt16
  | .inet port _ => ntohs port
  | .inet6 port _ => ntohs port

/-- Connections that are left out whoever makes them: to port 0, and local ones to no model. -/
def Sockaddr.quiet (address : Sockaddr) : Bool :=
  address.port == 0 || (ipIsLoopback address.ip && !isLocalModelPort address.port)

/-- The bytes of a record. -/
def ConnEvent.bytes (ev : ConnEvent) : List UInt8 := ev.members.flatMap Layout.Member.bytes

/-- The bytes that are written of a connection. -/
def connectionBytes (p : Sockaddr × Task) : List UInt8 := (onConnect p.1 p.2).bytes

/-- The flow of a connection. -/
def Host.connectionFlow (H : Host) (rd : Reading) (p : Sockaddr × Task) : Flow :=
  (H.capture rd (onConnect p.1 p.2).fields p.1.ip (ip_onConnect p.1 p.2)).flow H.validate H.llmIPs

theorem dport_onConnect (address : Sockaddr) (task : Task) : (onConnect address task).fields.dport = address.port := by
  cases address <;> rfl

theorem decode_connectionBytes (p : Sockaddr × Task) :
    decodeConnEvent (connectionBytes p) = some (onConnect p.1 p.2).fields := by
  have hlaid : (onConnect p.1 p.2).Laid (connectionBytes p) := laid_iff.mpr rfl
  have h : decodeConnEvent (connectionBytes p ++ []) = some (onConnect p.1 p.2).fields := decodeConnEvent_laid hlaid
  rwa [List.append_nil] at h

theorem handle_decoded (H : Host) (rd : Reading) {raw : List UInt8} {ev : DecodedConnEvent} {ip : IP}
    (hdecode : decodeConnEvent raw = some ev) (hip : ev.ip = some ip) :
    H.handle rd raw =
      if ev.dport = 0 ∨ isSelf ev H.selfPID = true then none
      else if ipIsLoopback ip && !isLocalModelPort ev.dport then none
      else some ((H.capture rd ev ip hip).flow H.validate H.llmIPs) := by
  unfold Host.handle
  rw [hdecode]
  dsimp only
  refine if_congr Iff.rfl rfl ?_
  split
  · rename_i hnone
    exact absurd (hnone.symm.trans hip) (Option.some_ne_none _).symm
  · rename_i ip' hsome
    obtain rfl := Option.some.inj (hsome.symm.trans hip)
    rfl

/-- **A record is reported** unless its connection is quiet or the sensor's own, by what it says. -/
theorem handle_bytes (H : Host) (rd : Reading) (p : Sockaddr × Task) :
    H.handle rd (connectionBytes p) =
      if p.1.quiet = true ∨ isSelf (onConnect p.1 p.2).fields H.selfPID = true then none
      else some (H.connectionFlow rd p) := by
  rw [handle_decoded H rd (decode_connectionBytes p) (ip_onConnect p.1 p.2), dport_onConnect]
  unfold Host.connectionFlow Sockaddr.quiet
  by_cases hport : p.1.port = 0
  · simp [hport]
  · by_cases hself : isSelf (onConnect p.1 p.2).fields H.selfPID = true
    · simp [hself]
    · simp [hport, hself]

/-! ## Whose connection it is -/

/-- A PID namespace, as `stat` of `/proc/self/ns/pid` has it. -/
structure PidNs where
  dev : UInt64
  ino : UInt64
deriving DecidableEq

/-- The number of the host's own namespace. -/
def procPidInitIno : UInt64 := 0xEFFFFFFC

/-- A process: its namespace, its number there, and its number in the initial namespace. -/
structure Pids where
  ns : PidNs
  tgid : UInt32
  pid : UInt32
deriving DecidableEq

/-- The task is one of process `p`, and the program asks for the namespace `ns`: nobody is answered for if
there is none to ask for, and only its own processes are. -/
structure TaskOf (ns : PidNs) (p : Pids) (task : Task) : Prop where
  pid : (task.pidTgid >>> 32).toUInt32 = p.pid
  nsTgid : task.nsTgid = if ns.ino ≠ 0 ∧ p.ns = ns then some p.tgid else none

/-- The processes there are at a time, the sensor among them, with the numbers under which its `/proc` shows
them and what can be read of their environments. -/
structure ProcFS where
  self : Pids
  procs : List Pids
  number : Pids → Option UInt32
  environ : Pids → Option GoString
  self_mem : self ∈ procs
  ino_ne : self.ns.ino ≠ 0
  number_ne : ∀ p ∈ procs, number p ≠ some 0
  number_inj : ∀ p ∈ procs, ∀ q ∈ procs, ∀ n, number p = some n → number q = some n → p = q
  number_ns : ∀ p ∈ procs, p.ns = self.ns → number p = some p.tgid
  number_initial : self.ns.ino = procPidInitIno → ∀ p ∈ procs, number p = some p.pid

namespace ProcFS

variable (F : ProcFS)

/-- What can be read of a path. -/
def readFile (path : GoString) : Option GoString :=
  (F.procs.find? fun p => (F.number p).any fun n => environPath n == path).bind F.environ

/-- `inInitPidNS`. -/
def inInit : Bool := F.self.ns.ino == procPidInitIno

/-- What the sensor settles of itself. -/
def host (V : Events.Passport) (llmIPs : HostTable) (clock : ClockOffset) : Host :=
  ⟨V, llmIPs, clock, F.self.tgid, F.inInit⟩

/-- What a process says it is, as far as the sensor can ask it. -/
def declared (p : Pids) : GoString :=
  if F.inInit = true ∨ p.ns = F.self.ns then ((F.environ p).map (findEnv · envVar)).getD "" else ""

theorem environPath_injective {m n : UInt32} (h : environPath m = environPath n) : m = n := by
  unfold environPath at h
  have hdigits := List.append_cancel_right h
  have hnat := congrArg Strconv.decimal (List.append_cancel_left hdigits)
  rw [Strconv.decimal_itoa, Strconv.decimal_itoa] at hnat
  exact UInt32.toNat_inj.mp hnat

theorem readFile_environPath {p : Pids} (hp : p ∈ F.procs) {n : UInt32} (hn : F.number p = some n) :
    F.readFile (environPath n) = F.environ p := by
  have hfind : (F.procs.find? fun q => (F.number q).any fun m => environPath m == environPath n) = some p := by
    have hsome : (F.procs.find? fun q => (F.number q).any fun m => environPath m == environPath n).isSome = true := by
      rw [List.find?_isSome]
      exact ⟨p, hp, by rw [hn, Option.any_some, beq_self_eq_true]⟩
    obtain ⟨q, hq⟩ := Option.isSome_iff_exists.mp hsome
    have hany := List.find?_some (p := fun q => (F.number q).any fun m => environPath m == environPath n) hq
    obtain ⟨m, hm, heq⟩ := (Option.any_eq_true _ _).mp hany
    rw [environPath_injective (beq_iff_eq.mp heq)] at hm
    rw [hq, F.number_inj q (List.mem_of_find?_eq_some hq) p hp n hm hn]
  rw [readFile, hfind, Option.bind_some]

variable {F} {V : Events.Passport} {llmIPs : HostTable} {clock : ClockOffset} {p : Pids} {task : Task}
  {address : Sockaddr}

theorem tgid_ne {p : Pids} (hp : p ∈ F.procs) (hns : p.ns = F.self.ns) : p.tgid ≠ 0 := by
  intro hzero
  have hnumber := F.number_ns p hp hns
  rw [hzero] at hnumber
  exact F.number_ne p hp hnumber

theorem nsTgid_onConnect (htask : TaskOf F.self.ns p task) :
    (onConnect address task).fields.nsTgid = if p.ns = F.self.ns then p.tgid else 0 := by
  have hfield : (onConnect address task).fields.nsTgid = task.nsTgid.getD 0 := rfl
  rw [hfield, htask.nsTgid]
  by_cases hns : p.ns = F.self.ns
  · rw [if_pos ⟨F.ino_ne, hns⟩, if_pos hns]
    rfl
  · rw [if_neg (fun h => hns h.2), if_neg hns]
    rfl

/-- **The sensor knows itself**, in whatever namespace it runs, and takes no one else for itself. -/
theorem isSelf_iff (hp : p ∈ F.procs) (htask : TaskOf F.self.ns p task) :
    isSelf (onConnect address task).fields F.self.tgid = true ↔ p = F.self := by
  rw [isSelf, nsTgid_onConnect htask, Bool.and_eq_true, bne_iff_ne, beq_iff_eq]
  constructor
  · rintro ⟨hne, heq⟩
    split_ifs at hne heq with hns
    · have hnumber := F.number_ns p hp hns
      rw [heq] at hnumber
      exact F.number_inj p hp F.self F.self_mem _ hnumber (F.number_ns _ F.self_mem rfl)
    · exact absurd rfl hne
  · rintro rfl
    rw [if_pos rfl]
    exact ⟨tgid_ne hp rfl, rfl⟩

/-- **Nobody else is asked**: the claim is what the process itself was given, or there is none. -/
theorem claimedAgentURI_eq (hp : p ∈ F.procs) (htask : TaskOf F.self.ns p task) :
    claimedAgentURI F.readFile (procPIDFor (onConnect address task).fields F.inInit) = F.declared p := by
  have hask : ∀ {n : UInt32}, F.number p = some n →
      claimedAgentURI F.readFile n = ((F.environ p).map (findEnv · envVar)).getD "" := by
    intro n hn
    have hne : n ≠ 0 := fun hzero => F.number_ne p hp (hzero ▸ hn)
    rw [claimedAgentURI, if_neg hne, F.readFile_environPath hp hn]
    cases F.environ p <;> rfl
  have hpid : (onConnect address task).fields.pid = p.pid := htask.pid
  unfold procPIDFor declared
  cases hinit : F.inInit with
  | true =>
    rw [if_pos rfl, if_pos (Or.inl rfl), hpid]
    exact hask (F.number_initial (beq_iff_eq.mp hinit) p hp)
  | false =>
    rw [if_neg Bool.false_ne_true, nsTgid_onConnect htask]
    by_cases hns : p.ns = F.self.ns
    · rw [if_pos hns, if_pos (Or.inr hns)]
      exact hask (F.number_ns p hp hns)
    · rw [if_neg hns, if_neg (by simp [hns])]
      rfl

/-- The flow of a connection of the process, which says of itself what `agentURI` is. -/
def flowOf (V : Events.Passport) (llmIPs : HostTable) (clock : ClockOffset) (now : Time) (p : Pids)
    (agentURI : GoString) (address : Sockaddr) (task : Task) : Flow :=
  let observed := identity (trimComm task.comm) task.cgroupId
  let claimed := claimedIdentity V agentURI
  { time := clock.wallTime task.ktimeNs now
    identity := if claimed ≠ "" then claimed else observed
    destination := destination address.ip.toList address.port llmIPs.host
    pid := p.pid
    cgroupID := task.cgroupId
    observed := observed }

/-- **What the sensor reports** of a process `p` that connects while the processes are those of `F`, and is
still there when the record is read: nothing if it is the sensor, and else what the process did and what it
says it is. -/
theorem handle_exact (F F' : ProcFS) (hself : F'.self = F.self) (V : Events.Passport) (llmIPs : HostTable)
    (clock : ClockOffset) (now : Time) {p : Pids} (hp : p ∈ F.procs) (hp' : p ∈ F'.procs) {task : Task}
    (htask : TaskOf F.self.ns p task) (address : Sockaddr) :
    (F.host V llmIPs clock).handle ⟨now, F'.readFile⟩ (connectionBytes (address, task)) =
      if address.quiet = true ∨ p = F.self then none
      else some (flowOf V llmIPs clock now p (F'.declared p) address task) := by
  have hinit : F'.inInit = F.inInit := by rw [inInit, inInit, hself]
  have hclaim : claimedAgentURI F'.readFile (procPIDFor (onConnect address task).fields F.inInit) =
      F'.declared p := hinit ▸ claimedAgentURI_eq hp' (hself ▸ htask)
  have hflow : (F.host V llmIPs clock).connectionFlow ⟨now, F'.readFile⟩ (address, task) =
      flowOf V llmIPs clock now p (F'.declared p) address task := by
    rw [Host.connectionFlow, Capture.flow, Host.capture, flowOf]
    dsimp only
    rw [dport_onConnect, ← hclaim, ← htask.pid]
    rfl
  rw [handle_bytes, hflow]
  exact if_congr (or_congr Iff.rfl (isSelf_iff hp htask)) rfl rfl

/-! ## A sensor in a container -/

/-- The namespace of a container, and that of the host. -/
def containerNs : PidNs := ⟨4, 0xF0000001⟩

@[inherit_doc containerNs]
def initialNs : PidNs := ⟨4, procPidInitIno⟩

/-- The sensor, which is process 7 of its container. -/
def sensor : Pids := ⟨containerNs, 7, 4711⟩

/-- Process 7 of the host. -/
def hostSeven : Pids := ⟨initialNs, 7, 7⟩

/-- The sensor in its container, where no other process has a number. -/
def container : ProcFS where
  self := sensor
  procs := [sensor, hostSeven]
  number p := if p = sensor then some 7 else none
  environ _ := some (environBlock [(envVar, "agent://acme.example/bot")])
  self_mem := by decide
  ino_ne := by decide
  number_ne := by decide
  number_inj := by
    intro p _ q _ n hpn hqn
    split_ifs at hpn hqn with hps hqs
    rw [hps, hqs]
  number_ns := by decide
  number_initial := by decide

/-- A call of the host's process 7. -/
def hostTask : Task := ⟨1, 5000000000, 0x700000007, Vector.replicate 16 0x61, none⟩

/-- The host's process 7 is not taken for the sensor, and the process 7 that the container has is not asked. -/
theorem handle_exact_hostSeven : sensor.tgid = hostSeven.pid ∧
    (container.host noClaims noHosts afterBoot).handle ⟨Time.zero, container.readFile⟩
      (connectionBytes (.inet (htons 443) #v[93, 184, 216, 34], hostTask)) =
    some (flowOf noClaims noHosts afterBoot Time.zero hostSeven "" (.inet (htons 443) #v[93, 184, 216, 34]) hostTask) := by
  have htask : TaskOf container.self.ns hostSeven hostTask := ⟨by decide, by decide⟩
  have h := handle_exact container container rfl noClaims noHosts afterBoot Time.zero (by decide : hostSeven ∈ _)
    (by decide) htask (.inet (htons 443) #v[93, 184, 216, 34])
  refine ⟨rfl, h.trans ?_⟩
  have hloud : (Sockaddr.inet (htons 443) #v[93, 184, 216, 34]).quiet = false := by decide
  have hother : hostSeven ≠ container.self := by decide
  rw [if_neg (by simp [hloud, hother])]
  rfl

end ProcFS

end Idryx.Ebpf
