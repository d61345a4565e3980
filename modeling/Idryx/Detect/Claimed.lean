import Idryx.Model
import Idryx.AiUsage.Subjects
import Idryx.Lib.LastWrite

/-!
# Claimed identities

`internal/ebpfcapture/identity.go`, as the detectors of a claim read it: a process that names itself is
recorded under the name with a prefix, and everything else under a name without it.

* `isClaimed`, `claimedName`; `claimed_iff`: a claimed id is the prefix and a name;
* `established`, `claims`: the two sides of a graph, by name; **`stored_claims_iff`**, **`stored_established_iff`**.
-/

namespace Idryx

open LastWrite

/-- `IsClaimed`. -/
def isClaimed (id : GoString) : Bool := Strings.hasPrefix id AiUsage.claimedPrefix

/-- The id of the agent a claim names: `strings.TrimPrefix(id, ClaimedPrefix)`. -/
def claimedName (id : GoString) : GoString := Strings.trimPrefix id AiUsage.claimedPrefix

/-- The id of a claim to be the agent. -/
def claimOf (agent : GoString) : GoString := AiUsage.claimedPrefix ++ agent

theorem isClaimed_claimOf (agent : GoString) : isClaimed (claimOf agent) = true :=
  List.isPrefixOf_iff_prefix.mpr (List.prefix_append _ agent)

@[simp] theorem claimedName_claimOf (agent : GoString) : claimedName (claimOf agent) = agent := by
  have hpre : Strings.hasPrefix (claimOf agent) AiUsage.claimedPrefix = true := isClaimed_claimOf agent
  rw [claimedName, Strings.trimPrefix, if_pos hpre]
  exact List.drop_left

theorem claimOf_claimedName {id : GoString} (h : isClaimed id = true) : claimOf (claimedName id) = id := by
  obtain ⟨agent, rfl⟩ := List.isPrefixOf_iff_prefix.mp h
  exact congrArg claimOf (claimedName_claimOf agent)

theorem claimed_iff {id agent : GoString} :
    isClaimed id = true ∧ claimedName id = agent ↔ id = claimOf agent := by
  constructor
  · rintro ⟨h, rfl⟩
    exact (claimOf_claimedName h).symm
  · rintro rfl
    exact ⟨isClaimed_claimOf agent, claimedName_claimOf agent⟩

theorem claimedName_of_not {id : GoString} (h : isClaimed id = false) : claimedName id = id := by
  rw [claimedName, Strings.trimPrefix]
  exact if_neg (Bool.eq_false_iff.mp h)

/-! ## The two sides of a graph -/

variable {ν : Type} {ids : List Identity}

/-- What is read of the identities that are not claimed, by their id. -/
def established (read : Identity → Option ν) (id : Identity) : Option (GoString × ν) :=
  if isClaimed id.id then none else (read id).map fun v => (id.id, v)

/-- A claimed identity, by the name it claims. -/
def claims (id : Identity) : Option (GoString × Identity) :=
  if isClaimed id.id then some (claimedName id.id, id) else none

theorem established_eq_some_iff {read : Identity → Option ν} {id : Identity} {k : GoString} {v : ν} :
    established read id = some (k, v) ↔ isClaimed id.id = false ∧ id.id = k ∧ read id = some v := by
  unfold established
  split_ifs with h
  · simp [h]
  · simp only [Option.map_eq_some_iff, Prod.mk.injEq, Bool.not_eq_true] at h ⊢
    constructor
    · rintro ⟨w, hw, rfl, rfl⟩
      exact ⟨h, rfl, hw⟩
    · rintro ⟨-, rfl, hv⟩
      exact ⟨v, hv, rfl, rfl⟩

theorem claims_eq_some_iff {id node : Identity} {k : GoString} :
    claims id = some (k, node) ↔ id = node ∧ node.id = claimOf k := by
  unfold claims
  split_ifs with h
  · simp only [Option.some.injEq, Prod.mk.injEq]
    constructor
    · rintro ⟨hk, rfl⟩
      exact ⟨rfl, claimed_iff.mp ⟨h, hk⟩⟩
    · rintro ⟨rfl, hk⟩
      exact ⟨(claimed_iff.mpr hk).2, rfl⟩
  · simp only [false_iff, not_and]
    rintro rfl hk
    exact h (claimed_iff.mpr hk).1

theorem eq_of_id_eq (hn : (ids.map Identity.id).Nodup) {i j : Identity} (hi : i ∈ ids) (hj : j ∈ ids)
    (h : i.id = j.id) : i = j := List.inj_on_of_nodup_map hn hi hj h

/-- **The established side** of a graph, by id. -/
theorem stored_established_iff (hn : (ids.map Identity.id).Nodup) {read : Identity → Option ν} {k : GoString}
    {v : ν} : stored (index (established read) ids) k = some v ↔
      ∃ i ∈ ids, isClaimed i.id = false ∧ i.id = k ∧ read i = some v := by
  rw [stored_index_iff]
  · simp only [established_eq_some_iff]
  · intro i hi j hj v w hv hw
    rw [established_eq_some_iff] at hv hw
    have hij := eq_of_id_eq hn hi hj (hv.2.1.trans hw.2.1.symm)
    rw [hij, hw.2.2] at hv
    exact (Option.some.inj hv.2.2).symm

/-- **The claimed side**, by the name claimed. -/
theorem stored_claims_iff (hn : (ids.map Identity.id).Nodup) {k : GoString} {node : Identity} :
    stored (index claims ids) k = some node ↔ node ∈ ids ∧ node.id = claimOf k := by
  rw [stored_index_iff]
  · simp only [claims_eq_some_iff]
    constructor
    · rintro ⟨i, hi, rfl, hk⟩
      exact ⟨hi, hk⟩
    · rintro ⟨hi, hk⟩
      exact ⟨node, hi, rfl, hk⟩
  · intro i hi j hj v w hv hw
    rw [claims_eq_some_iff] at hv hw
    rw [← hv.1, ← hw.1]
    exact eq_of_id_eq hn hi hj ((hv.1 ▸ hv.2).trans (hw.1 ▸ hw.2).symm)

end Idryx
