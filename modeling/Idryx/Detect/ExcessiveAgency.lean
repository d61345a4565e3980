import Idryx.Graph.Chain

/-!
# The excessive-agency detector

`internal/detect/detectors/excessive_agency.go`: an agent whose delegation chain holds an
admin-equivalent grant of somebody else's.

* `adminInChain`, `agencyAlert`, `excessiveAgency`;
* `exists_excessiveAgency`: when an agent is alerted on;
* **`delegation_covered`**: what the walk, the detector and the blast radius cover;
* **`blastRadius_readings`**: the three readings of the permissions along a chain agree.
-/

namespace Idryx

/-- The first identity of the chain with an admin-equivalent permission. -/
def adminInChain (index : Index) (chain : List GoString) : Option GoString :=
  chain.find? fun link => (index.get link).any Identity.hasAdmin

/-- What the detector makes of one identity. -/
def agencyAlert (index : Index) (now : Time) (id : Identity) : Option Alert :=
  if !id.isAgent then none
  else
    let chain := walkDelegationChain index id.id
    match adminInChain index chain with
    | none => none
    | some adminVia =>
      if adminVia = id.id then none
      else some
        { detector := "excessive_agency"
          identityID := id.id
          severity := if 2 < chain.length then .critical else .high
          time := now
          summary := "agent reaches admin via " ++ adminVia ++ " (delegation depth " ++
            Strconv.itoa (chain.length - 1) ++ ")" }

/-- `ExcessiveAgency.Detect`, over the identities the graph returns. -/
def excessiveAgency (ids : List Identity) (now : Time) : List Alert :=
  ids.filterMap (agencyAlert (Index.ofIdentities ids) now)

variable {index : Index} {now : Time} {ids : List Identity} {a b : Identity}

theorem adminInChain_eq_some {chain : List GoString} {via : GoString}
    (h : adminInChain index chain = some via) :
    via ∈ chain ∧ ∃ node, index.get via = some node ∧ node.hasAdmin = true := by
  refine ⟨List.mem_of_find?_eq_some h, ?_⟩
  have hany := List.find?_some h
  cases hv : index.get via with
  | none =>
    rw [hv] at hany
    cases hany
  | some node =>
    rw [hv] at hany
    exact ⟨node, rfl, hany⟩

theorem isSome_adminInChain {chain : List GoString} (hb : b.id ∈ chain)
    (hget : index.get b.id = some b) (hadmin : b.hasAdmin = true) :
    (adminInChain index chain).isSome = true := by
  refine List.find?_isSome.mpr ⟨b.id, hb, ?_⟩
  rw [hget]
  exact hadmin

theorem agencyAlert_identityID {al : Alert} (h : agencyAlert index now a = some al) :
    al.identityID = a.id := by
  unfold agencyAlert at h
  split_ifs at h
  dsimp only at h
  cases hvia : adminInChain index (walkDelegationChain index a.id) with
  | none =>
    rw [hvia] at h
    cases h
  | some via =>
    rw [hvia] at h
    dsimp only at h
    by_cases hne : via = a.id
    · rw [if_pos hne] at h
      cases h
    · rw [if_neg hne, Option.some.injEq] at h
      rw [← h]

theorem isSome_agencyAlert (now : Time) (hagent : a.isAgent = true) (hget : index.get a.id = some a)
    (hself : a.hasAdmin = false) (hb : b.id ∈ walkDelegationChain index a.id)
    (hbget : index.get b.id = some b) (hadmin : b.hasAdmin = true) :
    (agencyAlert index now a).isSome = true := by
  obtain ⟨via, hvia⟩ := Option.isSome_iff_exists.mp (isSome_adminInChain hb hbget hadmin)
  obtain ⟨-, node, hnode, hnadmin⟩ := adminInChain_eq_some hvia
  have hne : via ≠ a.id := by
    intro h
    rw [h, hget, Option.some.injEq] at hnode
    rw [← hnode, hself] at hnadmin
    cases hnadmin
  unfold agencyAlert
  rw [hagent]
  dsimp only
  rw [hvia]
  simp [hne]

/-- **An agent without an admin permission is alerted on** when an identity on its chain has one. -/
theorem exists_excessiveAgency (hn : (ids.map Identity.id).Nodup) (ha : a ∈ ids)
    (hagent : a.isAgent = true) (hself : a.hasAdmin = false) (hb : b ∈ ids)
    (hmem : b.id ∈ walkDelegationChain (Index.ofIdentities ids) a.id)
    (hadmin : b.hasAdmin = true) : ∃ al ∈ excessiveAgency ids now, al.identityID = a.id := by
  obtain ⟨al, hal⟩ := Option.isSome_iff_exists.mp
    (isSome_agencyAlert now hagent (Index.get_ofIdentities hn ha) hself hmem
      (Index.get_ofIdentities hn hb) hadmin)
  exact ⟨al, List.mem_filterMap.mpr ⟨a, ha, hal⟩, agencyAlert_identityID hal⟩

/-- **Delegation coverage.** The chain holds everything named by an identity the walk stands on,
and every reachable principal where the index is consistent. The blast radius names the permissions
of all identities on the chain, and an agent without an admin permission is alerted on when one of
them has one. -/
theorem delegation_covered (index : Index) (s : Store) (now : Time) :
    (∀ start cur chain node, Walked index start cur chain → index.get cur = some node →
      ∀ p ∈ node.onBehalfOf, p ∈ walkDelegationChain index start) ∧
    (Consistent index → ∀ start id, Reaches index start id →
      id ∈ walkDelegationChain index start) ∧
    (∀ start, ∀ id ∈ walkDelegationChain index start, ∀ node, index.get id = some node →
      ∀ p ∈ node.permissions, p.name ∈ (blastRadius index start).map Permission.name) ∧
    (∀ a ∈ s.identities, a.isAgent = true → a.hasAdmin = false →
      ∀ b ∈ s.identities, b.hasAdmin = true →
        b.id ∈ walkDelegationChain (Index.ofIdentities s.identities) a.id →
          ∃ al ∈ excessiveAgency s.identities now, al.identityID = a.id) := by
  refine ⟨?_, ?_, ?_, ?_⟩
  · intro start cur chain node hw hnode
    exact mem_walk_of_walked hw hnode
  · intro hc start id h
    exact mem_walk_of_reaches hc h
  · intro start id hid node hnode p hp
    exact (mem_blastRadius index start p.name).mpr
      ⟨id, hid, node, hnode, List.mem_map_of_mem hp⟩
  · intro a ha hagent hself b hb hadmin hmem
    exact exists_excessiveAgency s.nodup_identities ha hagent hself hb hmem hadmin

/-- An agent acting through a service account that acts for an administrator itself, its own list
rooted at somebody else. -/
def branchingGraph : Store :=
  let grant : Permission := ⟨"AdministratorAccess", true, false, [], ""⟩
  [{ Identity.zero "agent" with type := identityAgent, onBehalfOf := ["user", "svc"] },
    { Identity.zero "svc" with type := identityServiceAccount, onBehalfOf := ["admin"] },
    { Identity.zero "admin" with permissions := [grant] }].foldl Store.addIdentity
      (Store.new fun _ => false)

/-- The walk goes on from the root of a list only: what a principal inside it delegates to is left
out of the chain, the alerts and the blast radius. -/
theorem not_closed_branchingGraph :
    let index := Index.ofIdentities branchingGraph.identities
    ("svc" : GoString) ∈ walkDelegationChain index "agent" ∧ Delegates index "svc" "admin" ∧
      ("admin" : GoString) ∉ walkDelegationChain index "agent" ∧ Reaches index "agent" "admin" ∧
      (index.get "agent").any Identity.isAgent = true ∧
      (index.get "agent").any Identity.hasAdmin = false ∧
      (index.get "admin").any Identity.hasAdmin = true ∧
      excessiveAgency branchingGraph.identities Time.zero = [] ∧
      ("AdministratorAccess" : GoString) ∉ (blastRadius index "agent").map Permission.name := by
  have hsvc : Delegates (Index.ofIdentities branchingGraph.identities) "svc" "admin" :=
    ⟨{ Identity.zero "svc" with type := identityServiceAccount, onBehalfOf := ["admin"] }, by decide,
      by decide⟩
  have hagent : Delegates (Index.ofIdentities branchingGraph.identities) "agent" "svc" :=
    ⟨{ Identity.zero "agent" with type := identityAgent, onBehalfOf := ["user", "svc"] },
      by decide, by decide⟩
  refine ⟨by decide, hsvc, by decide, ?_, by decide, by decide, by decide, by rfl, by decide⟩
  exact Relation.TransGen.tail (Relation.TransGen.single hagent) hsvc

/-! ## The readings of a blast radius -/

theorem isSome_adminInChain_iff (index : Index) (start : GoString) :
    (adminInChain index (walkDelegationChain index start)).isSome = true ↔
      ∃ p ∈ effectivePermissions index start, p.admin = true := by
  constructor
  · intro h
    obtain ⟨via, hvia⟩ := Option.isSome_iff_exists.mp h
    obtain ⟨hmem, node, hnode, hadmin⟩ := adminInChain_eq_some hvia
    obtain ⟨p, hp, hpadmin⟩ := List.any_eq_true.mp hadmin
    exact ⟨p, mem_effectivePermissions.mpr ⟨via, hmem, node, hnode, hp⟩, hpadmin⟩
  · rintro ⟨p, hp, hpadmin⟩
    obtain ⟨link, hlink, node, hnode, hp⟩ := mem_effectivePermissions.mp hp
    refine List.find?_isSome.mpr ⟨link, hlink, ?_⟩
    rw [hnode]
    exact List.any_eq_true.mpr ⟨p, hp, hpadmin⟩

theorem mem_names_blastRadius {start n : GoString} :
    n ∈ (blastRadius index start).map Permission.name ↔
      n ∈ (effectivePermissions index start).map Permission.name := by
  rw [mem_blastRadius, List.mem_map]
  constructor
  · rintro ⟨id, hid, node, hnode, hn⟩
    obtain ⟨p, hp, hname⟩ := List.mem_map.mp hn
    exact ⟨p, mem_effectivePermissions.mpr ⟨id, hid, node, hnode, hp⟩, hname⟩
  · rintro ⟨p, hp, rfl⟩
    obtain ⟨id, hid, node, hnode, hp⟩ := mem_effectivePermissions.mp hp
    exact ⟨id, hid, node, hnode, List.mem_map_of_mem hp⟩

/-- **The three readings agree.** The blast radius repeats no name, has the names of the effective
permissions and under each of them the first of the walk; the detector finds an administrator exactly
when an effective permission is admin-equivalent; and a permission more, wherever it is inserted,
takes neither a name nor an administrator away. -/
theorem blastRadius_readings (index : Index) (start : GoString) :
    ((blastRadius index start).map Permission.name).Nodup ∧
    (∀ n, n ∈ (blastRadius index start).map Permission.name ↔
      n ∈ (effectivePermissions index start).map Permission.name) ∧
    (∀ p ∈ blastRadius index start,
      (effectivePermissions index start).find? (·.name == p.name) = some p) ∧
    ((adminInChain index (walkDelegationChain index start)).isSome = true ↔
      ∃ p ∈ effectivePermissions index start, p.admin = true) ∧
    ∀ id k p,
      (∀ n ∈ (blastRadius index start).map Permission.name,
        n ∈ (blastRadius (index.grant id k p) start).map Permission.name) ∧
      ((adminInChain index (walkDelegationChain index start)).isSome = true →
        (adminInChain (index.grant id k p)
          (walkDelegationChain (index.grant id k p) start)).isSome = true) := by
  refine ⟨nodup_blastRadius index start, fun n => mem_names_blastRadius,
    fun p hp => find_effectivePermissions hp, isSome_adminInChain_iff index start, ?_⟩
  intro id k p
  constructor
  · intro n hn
    rw [mem_names_blastRadius, List.mem_map] at hn ⊢
    obtain ⟨q, hq, hname⟩ := hn
    exact ⟨q, mem_effectivePermissions_grant hq id k p, hname⟩
  · intro h
    rw [isSome_adminInChain_iff] at h ⊢
    obtain ⟨q, hq, hadmin⟩ := h
    exact ⟨q, mem_effectivePermissions_grant hq id k p, hadmin⟩

end Idryx
