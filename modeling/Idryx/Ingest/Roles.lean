import Idryx.Aws.Coverage
import Idryx.Detect.LeastPrivilege
import Idryx.Detect.PrivilegeEscalation
import Idryx.Lib.Groups

/-!
# Accounts with roles

What the GCP and the Azure inventories share: an account's grants are the roles bound to it, and of a
role the connector knows what a table says of its name.

* `normalizeActions`, `actionsInTable`; **`escalates_iff_of_table`**: a role of a table escalates;
* `distinct`; **`mergePermissions_grants`**: reports of grants that are told by their names merge into
  one grant a name;
* **`privilegeEscalation_run`**: an escalation that is reported is found, whatever else is;
* `Bound`: identities with one grant for each role of their id; **`Bound.node`**: so the node of an
  id has one for each distinct role, however often it is reported;
* **`Bound.mem_leastPrivilege_iff`**, **`Bound.exists_privilegeEscalation_iff`**: what two detectors make
  of such a graph.
-/

namespace Idryx

open Groups (insertMember)

/-! ## The table of a role -/

/-- One turn of the loop of `normalizeActions`; `seen` holds what `out` does. -/
def normalizeStep (U : Unicode) (out : List GoString) (a : GoString) : List GoString :=
  let a := Aws.normalizeAction U a
  if a = "" ∨ a ∈ out then out else out ++ [a]

/-- The actions of a table, lowered, each once, sorted. -/
def normalizeActions (U : Unicode) (ins : List GoString) : List GoString :=
  Strings.sort (ins.foldl (normalizeStep U) [])

theorem mem_normalizeActions {U : Unicode} {ins : List GoString} {a : GoString} :
    a ∈ normalizeActions U ins ↔ a ≠ "" ∧ ∃ b ∈ ins, Aws.normalizeAction U b = a := by
  have hstep : ∀ (out : List GoString) (b : GoString),
      a ∈ normalizeStep U out b ↔ a ∈ out ∨ a ≠ "" ∧ Aws.normalizeAction U b = a := by
    intro out b
    unfold normalizeStep
    dsimp only
    split_ifs with h
    · constructor
      · exact Or.inl
      · rintro (hmem | ⟨hne, rfl⟩)
        · exact hmem
        · exact h.resolve_left hne
    · rw [List.mem_append, List.mem_singleton, eq_comm (a := a)]
      refine or_congr_right ⟨fun hb => ⟨fun ha => h (Or.inl (hb.trans ha)), hb⟩, And.right⟩
  unfold normalizeActions
  rw [Strings.sort, List.mem_insertionSort,
    Loop.foldl_iff (P := fun out : List GoString => a ∈ out) hstep]
  simp only [List.not_mem_nil, false_or]
  grind

/-- The actions under a name in a table; none if it has no row. -/
def actionsInTable (U : Unicode) (table : List (GoString × List GoString)) (name : GoString) : List GoString :=
  match Keyed.lookup Prod.fst name table with
  | none => []
  | some row => normalizeActions U row.2

/-- Every row of the table has actions, all of them escalation permissions. -/
def EscalationTable (table : List (GoString × List GoString)) : Prop :=
  ∀ row ∈ table, row.2 ≠ [] ∧ ∀ a ∈ row.2, a ∈ dangerousPermissions.map Prod.fst

instance (table : List (GoString × List GoString)) : Decidable (EscalationTable table) :=
  inferInstanceAs (Decidable (∀ row ∈ table, _ ∧ ∀ a ∈ row.2, _))

theorem caught_key (U : Unicode) {k : GoString} (hk : k ∈ dangerousKeys) :
    Aws.normalizeAction U k = k ∧ Caught (Strings.toLower U k) := by
  obtain ⟨hbytes, hlow, -⟩ := dangerousKeys_plain hk
  have hlower : Strings.toLower U k = k := by
    rw [Strings.toLower_ascii U fun b hb => UInt8.lt_trans (hbytes b hb).1.2 (by decide), hlow]
  have hne : k ≠ "*" := by
    rintro rfl
    exact not_star_suffix hk List.suffix_rfl
  rw [hlower]
  refine ⟨?_, hne, Or.inr ⟨not_star_suffix hk, k, hk, whole_self k⟩⟩
  rw [Aws.normalizeAction, Strings.trimSpace_printable fun b hb => (hbytes b hb).1, hlower]

/-- **When the grant of a role escalates**: its name says so, or it is in the table. -/
theorem escalates_iff_of_table {U : Unicode} {table : List (GoString × List GoString)} {p : Permission}
    {name : GoString} (htable : EscalationTable table) (hp : p.actions = actionsInTable U table name) :
    Escalates U p ↔ (∃ k ∈ dangerousKeys, Whole k (Strings.toLower U p.name)) ∨ name ∈ table.map Prod.fst := by
  have hkeys : (∃ a ∈ actionsInTable U table name, Caught (Strings.toLower U a)) ↔ name ∈ table.map Prod.fst := by
    unfold actionsInTable
    cases hrow : Keyed.lookup Prod.fst name table with
    | none =>
      rw [Keyed.lookup_eq_none] at hrow
      simp [hrow]
    | some row =>
      have hmem := Keyed.mem_of_lookup hrow
      obtain ⟨hne, hdanger⟩ := htable row hmem
      obtain ⟨a, ha⟩ := List.exists_mem_of_ne_nil _ hne
      obtain ⟨hkept, hcaught⟩ := caught_key U (mem_dangerousKeys.mpr (hdanger a ha))
      refine iff_of_true ⟨a, mem_normalizeActions.mpr ⟨?_, a, ha, hkept⟩, hcaught⟩ ?_
      · exact dangerousKeys_ne_nil (mem_dangerousKeys.mpr (hdanger a ha))
      · exact Keyed.lookup_key hrow ▸ List.mem_map_of_mem hmem
  unfold Escalates
  rw [hp, hkeys]

/-! ## Grants told by their names -/

/-- A list with each element once, where it stands first. -/
def distinct {α : Type*} [DecidableEq α] (xs : List α) : List α := xs.foldl insertMember []

theorem mem_distinct {α : Type*} [DecidableEq α] {xs : List α} {x : α} : x ∈ distinct xs ↔ x ∈ xs := by
  unfold distinct
  rw [Groups.mem_foldl_members]
  simp

theorem nodup_distinct {α : Type*} [DecidableEq α] (xs : List α) : (distinct xs).Nodup :=
  Groups.nodup_foldl_insertMember List.nodup_nil xs

theorem foldl_insertMember_of_subset {α : Type*} [DecidableEq α] {set xs : List α}
    (h : ∀ x ∈ xs, x ∈ set) : xs.foldl insertMember set = set :=
  List.foldlRecOn (motive := fun s : List α => s = set) xs _ rfl fun s hs x hx => by
    rw [hs, insertMember, if_pos (h x hx)]

theorem unionActions_self (acts : List GoString) : unionActions acts acts = acts := by
  unfold unionActions
  split_ifs
  · rfl
  · refine List.foldlRecOn (motive := fun s : List GoString => s = acts) acts _ rfl fun s hs a ha => ?_
    rw [hs, if_pos (List.contains_iff_mem.mpr ha)]

theorem mergePermission_self (p : Permission) : mergePermission p p = p := by
  have hactions := unionActions_self p.actions
  ext1 <;> simp [mergePermission, hactions]

section Grants

variable {grant : GoString → Permission} (hname : ∀ name, (grant name).name = name)

include hname

theorem mergeOne_grant (ns : List GoString) (name : GoString) :
    mergeOne (ns.map grant) (grant name) = (insertMember ns name).map grant := by
  unfold mergeOne
  induction ns with
  | nil => rfl
  | cons n ns ih =>
    rw [List.map_cons, Keyed.upsert, hname, hname]
    unfold insertMember at ih ⊢
    by_cases h : n = name
    · subst h
      rw [if_pos rfl, if_pos List.mem_cons_self, mergePermission_self, List.map_cons]
    · rw [if_neg h]
      rw [hname] at ih
      rw [ih]
      simp only [List.mem_cons, Ne.symm h, false_or]
      split_ifs <;> rfl

/-- **Reports of grants told by their names** merge into one grant a name. -/
theorem mergePermissions_grants (ns ms : List GoString) :
    mergePermissions (ns.map grant) (ms.map grant) = (ms.foldl insertMember ns).map grant := by
  rw [mergePermissions_eq]
  induction ms generalizing ns with
  | nil => rfl
  | cons m ms ih => rw [List.map_cons, List.foldl_cons, mergeOne_grant hname, List.foldl_cons, ih]

end Grants

/-! ## Escalations in any graph -/

namespace Store

theorem exists_find_run {P : Identity → Prop} {s : Store} {xs : List Op} {id : GoString}
    (hevent : ∀ n e, P n → P { n with events := n.events ++ [e] }) (hmerge : ∀ n i, P n → P (mergeIdentity n i))
    (h : (∃ n, s.find id = some n ∧ P n) ∨ ∃ i ∈ Op.identities xs, i.id = id ∧ ∀ n, P (mergeIdentity n i)) :
    ∃ n, (s.run xs).find id = some n ∧ P n := by
  have hcall : ∀ (s : Store) (x : Op), (∃ n, s.find id = some n ∧ P n) →
      ∃ n, (s.apply x).find id = some n ∧ P n := by
    rintro s x ⟨n, hn, hP⟩
    cases x with
    | event e =>
      change ∃ n, (s.addEvent e).find id = some n ∧ P n
      unfold addEvent
      split_ifs
      · exact ⟨n, hn, hP⟩
      · rw [find_update]
        split_ifs with hid
        · subst hid
          have hfind : ({ s with seenEvents := s.seenEvents ++ [e] } : Store).find e.identityID = some n := hn
          refine ⟨_, rfl, ?_⟩
          rw [hfind]
          exact hevent n e hP
        · exact ⟨n, hn, hP⟩
    | identity i =>
      change ∃ n, (s.addIdentity i).find id = some n ∧ P n
      rw [find_addIdentity]
      split_ifs with hid
      · refine ⟨_, rfl, ?_⟩
        rw [← hid, hn]
        exact hmerge n i hP
      · exact ⟨n, hn, hP⟩
  induction xs generalizing s with
  | nil =>
    rcases h with h | ⟨i, hi, -⟩
    · exact h
    · cases hi
  | cons x xs ih =>
    rw [run_cons]
    refine ih ?_
    rcases h with h | ⟨i, hi, hid, hP⟩
    · exact Or.inl (hcall s x h)
    cases x with
    | event e => exact Or.inr ⟨i, hi, hid, hP⟩
    | identity j =>
      rcases List.mem_cons.mp hi with rfl | hi
      · exact Or.inl ⟨_, (find_addIdentity s i id).trans (if_pos hid.symm), hP _⟩
      · exact Or.inr ⟨i, hi, hid, hP⟩

end Store

theorem nhi_mergeIdentity {n i : Identity} (h : n.isNHI = true ∨ i.isNHI = true) :
    (mergeIdentity n i).isNHI = true := by
  show ((if i.type ≠ identityHuman then i.type else n.type) != identityHuman) = true
  split_ifs with ht
  · exact bne_iff_ne.mpr ht
  · rcases h with h | h
    · exact h
    · exact absurd (bne_iff_ne.mp h) ht

/-- **An escalation that is reported is found** in any graph that the report was added to. -/
theorem privilegeEscalation_run {U : Unicode} {privileged : GoString → Bool} {xs : List Op} {now : Time}
    {i : Identity} {p : Permission} (hi : i ∈ Op.identities xs) (hnhi : i.isNHI = true) (hp : p ∈ i.permissions)
    (hesc : Escalates U p) :
    ∃ al ∈ privilegeEscalation U ((Store.new privileged).run xs).identities now, al.identityID = i.id := by
  obtain ⟨n, hn, q, hq, hescq⟩ : ((Store.new privileged).run xs).Grants i.id (Escalates U) :=
    Store.grants_run (Aws.escalates_mergePermission U) (Or.inr ⟨i, hi, rfl, p, hp, hesc⟩)
  obtain ⟨m, hm, hnhim⟩ : ∃ n, ((Store.new privileged).run xs).find i.id = some n ∧ n.isNHI = true :=
    Store.exists_find_run (fun _ _ h => h) (fun _ _ h => nhi_mergeIdentity (Or.inl h))
      (Or.inr ⟨i, hi, rfl, fun _ => nhi_mergeIdentity (Or.inr hnhi)⟩)
  obtain rfl : n = m := Option.some.inj (hn.symm.trans hm)
  have hid : n.id = i.id := Keyed.lookup_key hn
  exact exists_privilegeEscalation.mpr
    ⟨n.chronological, Store.mem_identities.mpr ⟨n, Keyed.mem_of_lookup hn, rfl⟩, hid, hnhim, q, hq, hescq⟩

/-! ## The graph of an inventory of roles -/

/-- Non-human identities, each with a grant for every role of its id. -/
structure Bound (roles : GoString → List GoString) (grant : GoString → GoString → Permission)
    (is : List Identity) : Prop where
  name : ∀ id role, (grant id role).name = role
  nhi : ∀ i ∈ is, i.isNHI = true
  permissions : ∀ i ∈ is, i.permissions = (roles i.id).map (grant i.id)

namespace Bound

variable {roles : GoString → List GoString} {grant : GoString → GoString → Permission}
  {is : List Identity} {privileged : GoString → Bool}

/-- **The node of an id** has one grant for each distinct role of it. -/
theorem node (h : Bound roles grant is) {id : GoString} {n : Identity}
    (hn : (is.foldl Store.addIdentity (Store.new privileged)).find id = some n) :
    n.id = id ∧ n.isNHI = true ∧ n.permissions = (distinct (roles id)).map (grant id) := by
  have hrun : ∀ id n, (is.foldl Store.addIdentity (Store.new privileged)).find id = some n →
      n.id = id ∧ n.isNHI = true ∧ n.permissions = (distinct (roles id)).map (grant id) := by
    refine List.foldlRecOn (motive := fun s : Store => ∀ id n, s.find id = some n →
      n.id = id ∧ n.isNHI = true ∧ n.permissions = (distinct (roles id)).map (grant id)) is _
        (fun id n hn => by cases hn) fun s hs i hi id n hn => ?_
    rw [Store.find_addIdentity] at hn
    split_ifs at hn with hid
    · subst hid
      obtain rfl := (Option.some.inj hn).symm
      refine ⟨?_, nhi_mergeIdentity (Or.inr (h.nhi i hi)), ?_⟩
      · cases hf : s.find i.id with
        | none => rfl
        | some m => exact (hs i.id m hf).1
      · -- the node was new, or it had all these roles already
        change mergePermissions ((s.find i.id).getD (s.fresh i.id)).permissions i.permissions = _
        rw [h.permissions i hi]
        cases hf : s.find i.id with
        | none => exact mergePermissions_grants (h.name i.id) [] (roles i.id)
        | some m =>
          rw [Option.getD_some, (hs i.id m hf).2.2, mergePermissions_grants (h.name i.id),
            foldl_insertMember_of_subset fun role => mem_distinct.mpr]
    · exact hs id n hn
  exact hrun id n hn

theorem of_mem_identities (h : Bound roles grant is) {n : Identity}
    (hn : n ∈ (is.foldl Store.addIdentity (Store.new privileged)).identities) :
    (∃ i ∈ is, i.id = n.id) ∧ n.isNHI = true ∧ n.permissions = (distinct (roles n.id)).map (grant n.id) := by
  obtain ⟨m, hm, rfl⟩ := Store.mem_identities.mp hn
  have hfind : (is.foldl Store.addIdentity (Store.new privileged)).find m.id = some m :=
    Keyed.lookup_of_mem (Store.nodup _) hm
  have hnode := h.node hfind
  rw [Store.find_addIdentities] at hfind
  split_ifs at hfind with hnil
  · cases hfind
  obtain ⟨i, hi⟩ := List.exists_mem_of_ne_nil _ hnil
  exact ⟨⟨i, Keyed.mem_reports.mp hi⟩, hnode.2⟩

theorem exists_mem_identities (privileged : GoString → Bool) {i : Identity} (hi : i ∈ is) :
    ∃ n ∈ (is.foldl Store.addIdentity (Store.new privileged)).identities, n.id = i.id := by
  have hne : Keyed.reports Identity.id i.id is ≠ [] :=
    List.ne_nil_of_mem (Keyed.mem_reports.mpr ⟨hi, rfl⟩)
  have hfind := Store.find_addIdentities (Store.new privileged) i.id is
  rw [if_neg hne] at hfind
  have hid := Keyed.lookup_key hfind
  exact ⟨_, Store.mem_identities.mpr ⟨_, Keyed.mem_of_lookup hfind, rfl⟩, hid⟩

/-- What the least-privilege detector says of the roles of an id. -/
def leastPrivilegeAlert (roles : GoString → List GoString) (grant : GoString → GoString → Permission) (now : Time)
    (id : GoString) : Alert where
  detector := "least_privilege"
  identityID := id
  severity := if ∃ role ∈ roles id, (grant id role).used = false ∧ (grant id role).admin = true then .high
    else .medium
  time := now
  summary := leastPrivilegeSummary ((distinct (roles id)).filter fun role => !(grant id role).used)
    (distinct (roles id)).length

/-- **Who is alerted on for least privilege**: the identities with a role of each kind. -/
theorem mem_leastPrivilege_iff (h : Bound roles grant is) {now : Time} {al : Alert} :
    al ∈ leastPrivilege (is.foldl Store.addIdentity (Store.new privileged)).identities now ↔
      ∃ i ∈ is, (∃ role ∈ roles i.id, (grant i.id role).used = true) ∧
        (∃ role ∈ roles i.id, (grant i.id role).used = false) ∧
        al = leastPrivilegeAlert roles grant now i.id := by
  -- the grants of a node, by the roles of its id
  have hgrants : ∀ n : Identity, n.permissions = (distinct (roles n.id)).map (grant n.id) →
      ((∃ p ∈ n.permissions, p.used = true) ↔ ∃ role ∈ roles n.id, (grant n.id role).used = true) ∧
      (n.unused ≠ [] ↔ ∃ role ∈ roles n.id, (grant n.id role).used = false) ∧
      (n.unused.any Permission.admin = true ↔
        ∃ role ∈ roles n.id, (grant n.id role).used = false ∧ (grant n.id role).admin = true) ∧
      n.unused.map Permission.name = (distinct (roles n.id)).filter (fun role => !(grant n.id role).used) := by
    intro n hp
    have hunused : n.unused =
        ((distinct (roles n.id)).filter fun role => !(grant n.id role).used).map (grant n.id) := by
      unfold Identity.unused
      rw [hp, List.filter_map]
      rfl
    refine ⟨?_, ?_, ?_, ?_⟩
    · simp [hp, mem_distinct]
    · rw [hunused]
      simp [mem_distinct]
    · rw [hunused]
      simp [mem_distinct]
    · rw [hunused, List.map_map]
      exact (List.map_congr_left fun role _ => h.name n.id role).trans (List.map_id _)
  rw [mem_leastPrivilege]
  constructor
  · rintro ⟨n, hn, hused, hunused, rfl⟩
    obtain ⟨⟨i, hi, hid⟩, -, hp⟩ := h.of_mem_identities hn
    obtain ⟨h₁, h₂, h₃, h₄⟩ := hgrants n hp
    rw [← hid] at h₁ h₂ h₃ h₄ hp ⊢
    refine ⟨i, hi, h₁.mp hused, h₂.mp hunused, ?_⟩
    rw [h₄, hp, List.length_map]
    simp only [h₃]
    rfl
  · rintro ⟨i, hi, hused, hunused, rfl⟩
    obtain ⟨n, hn, hid⟩ := exists_mem_identities privileged hi
    obtain ⟨-, -, hp⟩ := h.of_mem_identities hn
    obtain ⟨h₁, h₂, h₃, h₄⟩ := hgrants n hp
    rw [hid] at h₁ h₂ h₃ h₄ hp
    refine ⟨n, hn, h₁.mpr hused, h₂.mpr hunused, ?_⟩
    rw [h₄, hp, hid, List.length_map]
    simp only [h₃]
    rfl

/-- **Who is alerted on for escalation**: the identities with a role that escalates. -/
theorem exists_privilegeEscalation_iff (h : Bound roles grant is) {U : Unicode} {now : Time} {id : GoString} :
    (∃ al ∈ privilegeEscalation U (is.foldl Store.addIdentity (Store.new privileged)).identities now,
      al.identityID = id) ↔ ∃ i ∈ is, i.id = id ∧ ∃ role ∈ roles id, Escalates U (grant id role) := by
  rw [exists_privilegeEscalation]
  constructor
  · rintro ⟨n, hn, rfl, -, p, hp, hesc⟩
    obtain ⟨⟨i, hi, hid⟩, -, hperm⟩ := h.of_mem_identities hn
    rw [hperm] at hp
    obtain ⟨role, hrole, rfl⟩ := List.mem_map.mp hp
    exact ⟨i, hi, hid, role, mem_distinct.mp hrole, hesc⟩
  · rintro ⟨i, hi, rfl, role, hrole, hesc⟩
    obtain ⟨n, hn, hid⟩ := exists_mem_identities privileged hi
    obtain ⟨-, hnhi, hperm⟩ := h.of_mem_identities hn
    rw [hid] at hperm
    refine ⟨n, hn, hid, hnhi, _, ?_, hesc⟩
    rw [hperm]
    exact List.mem_map_of_mem (mem_distinct.mpr hrole)

end Bound

end Idryx
