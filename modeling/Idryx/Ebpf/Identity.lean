import Idryx.Ebpf.Flow
import Idryx.Lib.Joined

/-!
# The node a flow lands on

`internal/ebpfcapture/identity.go`: which processes the sensor keeps apart.

* `Process`: the name a process goes by, and its cgroup; `Capture.process`;
* `Apart`: two processes have different identities, neither is a claimed one, and no flow of the one lands
  on the node of the other from another cgroup;
* `Process.Imitates`: a name without a cgroup that reads like another one with its cgroup;
* **`apart_iff`**: processes are kept apart unless one imitates the other;
* `reaches_iff`: whose nodes a process can reach by choosing its name.
-/

namespace Idryx.Ebpf

/-- What the sensor tells a process by: at most 16 bytes with no NUL at the end, and a cgroup, which is zero
where the kernel gave none. -/
@[ext] structure Process where
  comm : GoString
  cgroupID : UInt64
  size : comm.length ≤ 16
  trimmed : comm.getLast? ≠ some 0

theorem length_trimComm (comm : Vector UInt8 16) : (trimComm comm).length ≤ 16 := by
  have hle := (List.rdropWhile_prefix (· == 0) comm.toList).length_le
  rwa [Vector.length_toList] at hle

theorem getLast?_trimComm (comm : Vector UInt8 16) : (trimComm comm).getLast? ≠ some 0 := by
  intro h
  obtain ⟨hne, hlast⟩ := List.mem_getLast?_eq_getLast h
  have hnot := List.rdropWhile_last_not (· == 0) comm.toList hne
  exact hnot (beq_iff_eq.mpr hlast.symm)

/-- The process of a connection. -/
def Capture.process (c : Capture) : Process :=
  ⟨trimComm c.event.comm, c.event.cgroupID, length_trimComm _, getLast?_trimComm _⟩

/-- `Identity` of a process. -/
def Process.observed (p : Process) : GoString := identity p.comm p.cgroupID

/-- Two processes are told apart, from each other and from what any process says it is. -/
structure Apart (V : Events.Passport) (p q : Process) : Prop where
  injective : p.observed = q.observed → p = q
  unclaimed : ∀ agentURI, p.observed ≠ claimedIdentity V agentURI ∧ q.observed ≠ claimedIdentity V agentURI
  lands : ∀ (llmIPs : HostTable) (c d : Capture), c.process = p → d.process = q →
    (c.flow V llmIPs).identity = (d.flow V llmIPs).observed → c.event.cgroupID = d.event.cgroupID

/-- A name without a cgroup that reads like the other one with its cgroup. -/
def Process.Imitates (p q : Process) : Prop :=
  p.cgroupID = 0 ∧ q.cgroupID ≠ 0 ∧ p.comm = q.comm ++ "@cg" ++ Strconv.itoa q.cgroupID.toNat

theorem observed_zero {p : Process} (h : p.cgroupID = 0) : p.observed = AiUsage.identityPrefix ++ p.comm :=
  if_pos h

theorem observed_cgroup {p : Process} (h : p.cgroupID ≠ 0) : p.observed =
    AiUsage.identityPrefix ++ (p.comm ++ "@cg" ++ Strconv.itoa p.cgroupID.toNat) := by
  rw [Process.observed, identity, if_neg h]
  simp only [List.append_assoc]

theorem suffix_inj {s t : GoString} {m n : ℕ} :
    s ++ ("@cg" : GoString) ++ Strconv.itoa m = t ++ ("@cg" : GoString) ++ Strconv.itoa n ↔ s = t ∧ m = n := by
  have hat : ∀ k, (0x40 : UInt8) ∉ [0x63, 0x67] ++ Strconv.itoa k := by
    intro k hmem
    rcases List.mem_append.mp hmem with hcg | hdigit
    · revert hcg
      decide
    · exact absurd (Strconv.digit_of_mem_itoa hdigit).2 (by decide)
  have htext : ∀ (r : GoString) (k : ℕ), r ++ ("@cg" : GoString) ++ Strconv.itoa k =
      r ++ 0x40 :: ([0x63, 0x67] ++ Strconv.itoa k) := fun r k => List.append_assoc r _ _
  rw [htext, htext, Joined.append_sep_inj (hat m) (hat n), List.append_cancel_left_eq]
  refine and_congr_right fun _ => ⟨fun h => ?_, fun h => h ▸ rfl⟩
  rw [← Strconv.decimal_itoa m, h, Strconv.decimal_itoa]

/-- **When two processes have one identity**: they are one, or one imitates the other. -/
theorem observed_eq_iff {p q : Process} :
    p.observed = q.observed ↔ p = q ∨ p.Imitates q ∨ q.Imitates p := by
  unfold Process.Imitates
  by_cases hp : p.cgroupID = 0
  · by_cases hq : q.cgroupID = 0
    · rw [observed_zero hp, observed_zero hq, List.append_cancel_left_eq, Process.ext_iff]
      simp [hp, hq]
    · rw [observed_zero hp, observed_cgroup hq, List.append_cancel_left_eq, Process.ext_iff]
      simp [hp, hq, Ne.symm hq]
  · by_cases hq : q.cgroupID = 0
    · rw [observed_cgroup hp, observed_zero hq, List.append_cancel_left_eq, Process.ext_iff]
      simp [hp, hq, eq_comm]
    · rw [observed_cgroup hp, observed_cgroup hq, List.append_cancel_left_eq, suffix_inj, UInt64.toNat_inj,
        Process.ext_iff]
      simp [hp, hq]

theorem Process.Imitates.ne {p q : Process} (h : p.Imitates q) : p ≠ q := by
  rintro rfl
  exact h.2.1 h.1

theorem observed_ne_claimed (V : Events.Passport) (p : Process) (agentURI : GoString) :
    p.observed ≠ claimedIdentity V agentURI := by
  obtain ⟨t, ht⟩ : ∃ t, p.observed = 0x70 :: t := by
    by_cases hp : p.cgroupID = 0
    · exact ⟨_, observed_zero hp⟩
    · exact ⟨_, observed_cgroup hp⟩
  intro h
  rw [ht, claimedIdentity] at h
  split_ifs at h
  · exact List.cons_ne_nil _ _ h
  · exact List.cons_ne_nil _ _ h
  · exact absurd (List.cons.inj h).1 (by decide)

/-- **Processes are kept apart** exactly if neither imitates the other. -/
theorem apart_iff (V : Events.Passport) (p q : Process) : Apart V p q ↔ ¬ p.Imitates q ∧ ¬ q.Imitates p := by
  constructor
  · intro h
    refine ⟨fun hpq => hpq.ne ?_, fun hqp => hqp.ne ?_⟩
    · exact h.injective (observed_eq_iff.mpr (Or.inr (Or.inl hpq)))
    · exact (h.injective (observed_eq_iff.mpr (Or.inr (Or.inr hqp)))).symm
  · rintro ⟨hpq, hqp⟩
    have hinj : p.observed = q.observed → p = q := by
      intro h
      rcases observed_eq_iff.mp h with heq | himitates | himitates
      · exact heq
      · exact absurd himitates hpq
      · exact absurd himitates hqp
    refine ⟨hinj, fun uri => ⟨observed_ne_claimed V p uri, observed_ne_claimed V q uri⟩, ?_⟩
    rintro llmIPs c d rfl rfl hlands
    unfold Capture.flow at hlands
    dsimp only at hlands
    split_ifs at hlands with hclaimed
    · exact absurd hlands.symm (observed_ne_claimed V d.process c.agentURI)
    · exact congrArg Process.cgroupID (hinj hlands)

/-- `curl` in a cgroup of its own. -/
def curlInCgroup : Process := ⟨"curl", 8471, by decide, by decide⟩

/-- A process in no cgroup, by the name of `curl` in its own. -/
def nameOfCurl : Process := ⟨"curl@cg8471", 0, by decide, by decide⟩

/-- **A name taken**: one node for two processes in different cgroups. -/
theorem curl_imitated : nameOfCurl.observed = curlInCgroup.observed ∧
    nameOfCurl.cgroupID ≠ curlInCgroup.cgroupID ∧ ¬ Apart Events.schemeOnly nameOfCurl curlInCgroup := by
  have hsame : nameOfCurl.observed = curlInCgroup.observed := by decide +kernel
  exact ⟨hsame, by decide, fun h => absurd (congrArg Process.cgroupID (h.injective hsame)) (by decide)⟩

/-! ## What a name can reach -/

/-- **Whose nodes a process can reach by its name**, from another cgroup: without a cgroup of its own, that of
every process whose name and cgroup fit into 16 bytes; with one, those without a cgroup that are already
named after it. -/
theorem reaches_iff {g : UInt64} {q : Process} (hne : g ≠ q.cgroupID) :
    (∃ p : Process, p.cgroupID = g ∧ p.observed = q.observed) ↔
      (g = 0 ∧ (q.comm ++ ("@cg" : GoString) ++ Strconv.itoa q.cgroupID.toNat).length ≤ 16) ∨
        q.cgroupID = 0 ∧ ∃ name : GoString, name.getLast? ≠ some 0 ∧ q.comm = name ++ "@cg" ++ Strconv.itoa g.toNat := by
  constructor
  · rintro ⟨p, rfl, h⟩
    rcases observed_eq_iff.mp h with heq | ⟨hzero, -, hname⟩ | ⟨hzero, -, hname⟩
    · exact absurd (congrArg Process.cgroupID heq) hne
    · exact Or.inl ⟨hzero, hname ▸ p.size⟩
    · exact Or.inr ⟨hzero, p.comm, p.trimmed, hname⟩
  · rintro (⟨rfl, hsize⟩ | ⟨hzero, name, htrimmed, hname⟩)
    · have hlast : (q.comm ++ ("@cg" : GoString) ++ Strconv.itoa q.cgroupID.toNat).getLast? ≠ some 0 := by
        intro h
        rw [List.getLast?_append_of_ne_nil _ (Strconv.itoa_ne_nil _)] at h
        exact absurd (Strconv.digit_of_mem_itoa (List.mem_of_getLast? h)).1 (by decide)
      exact ⟨⟨_, 0, hsize, hlast⟩, rfl, observed_eq_iff.mpr (Or.inr (Or.inl ⟨rfl, Ne.symm hne, rfl⟩))⟩
    · have hsize : name.length ≤ 16 := by
        have hq := q.size
        rw [hname, List.length_append, List.length_append] at hq
        omega
      exact ⟨⟨name, g, hsize, htrimmed⟩, rfl,
        observed_eq_iff.mpr (Or.inr (Or.inr ⟨hzero, fun h => hne (h.trans hzero.symm), hname⟩))⟩

end Idryx.Ebpf
