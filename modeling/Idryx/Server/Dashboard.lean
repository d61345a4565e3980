import Idryx.Graph.Walk

/-!
# The walk of the dashboard

`identitiesJSON` of `internal/server/server.go`, and the script of `internal/server/dashboard.go` that
walks what it sends. Strings are valid UTF-8, which JSON carries as they are.

* `getDelegationChain`, `computeBlastRadius`; **`isSome_getDelegationChain`**: the loop ends;
* `addPrincipals_eq`: a turn of it adds what a turn of the server's adds;
* `Mirrors`; **`mirrors_iff`**: when the two walks are one;
* `empty_root_differs`: a graph on which they are not.
-/

namespace Idryx.Server

/-! ## What the server sends -/

/-- A grant as it is sent. -/
structure ApiPermission where
  name : GoString
  admin : Bool
  used : Bool
  deriving DecidableEq

/-- An identity as it is sent, to the fields the walks read. -/
structure ApiIdentity where
  id : GoString
  onBehalfOf : Option (List GoString)
  permissions : Option (List ApiPermission)
  deriving DecidableEq

/-- An empty list is left out. -/
def omitEmpty {α : Type} (xs : List α) : Option (List α) := if xs.isEmpty then none else some xs

/-- The entry of an identity. -/
def apiIdentity (i : Identity) : ApiIdentity where
  id := i.id
  onBehalfOf := omitEmpty i.onBehalfOf
  permissions := omitEmpty (i.permissions.map fun p => ⟨p.name, p.admin, p.used⟩)

/-- The entries of all identities. -/
def identitiesJSON (ids : List Identity) : List ApiIdentity := ids.map apiIdentity

/-! ## What the script does -/

/-- `globalIdentities.find(x => x.id === id)`. -/
def find (globalIdentities : List ApiIdentity) (id : GoString) : Option ApiIdentity :=
  Keyed.lookup ApiIdentity.id id globalIdentities

/-- The inner loop: the principals from the last to the first, with the last one added. -/
def addPrincipals (chain obo : List GoString) : List GoString × Option GoString :=
  obo.reverse.foldl (fun st p => if p ∈ st.1 then st else (st.1 ++ [p], some p)) (chain, none)

/-- The outer loop, at most `n` turns of it. -/
def chainFrom (globalIdentities : List ApiIdentity) : Nat → GoString → List GoString →
    Option (List GoString)
  | 0, _, _ => none
  | n + 1, currentId, chain =>
    match (find globalIdentities currentId).bind ApiIdentity.onBehalfOf with
    | none => some chain
    | some obo =>
      if obo.length = 0 then some chain
      else
        let (chain, next) := addPrincipals chain obo
        match next with
        | none => some chain
        | some next => chainFrom globalIdentities n next chain

/-- `getDelegationChain`; `none` would be a loop that has not ended. -/
def getDelegationChain (globalIdentities : List ApiIdentity) (startId : GoString) :
    Option (List GoString) :=
  chainFrom globalIdentities (globalIdentities.length + 2) startId [startId]

/-- A permission and the link it comes from. -/
structure BlastEntry where
  name : GoString
  admin : Bool
  source : GoString
  deriving DecidableEq

/-- The permissions along a chain, the first of each name. -/
def blastEntries (globalIdentities : List ApiIdentity) (chain : List GoString) : List BlastEntry :=
  chain.foldl (fun out linkId =>
    match (find globalIdentities linkId).bind ApiIdentity.permissions with
    | none => out
    | some ps => ps.foldl (fun out p =>
        if p.name ∈ out.map BlastEntry.name then out else out ++ [⟨p.name, p.admin, linkId⟩]) out) []

/-- The comparison of the sort: admin permissions first, then by name. -/
def compareEntries (localeCompare : GoString → GoString → Int) (a b : BlastEntry) : Int :=
  let byAdmin : Int := b.admin.toNat - a.admin.toNat
  if byAdmin ≠ 0 then byAdmin else localeCompare a.name b.name

/-- `computeBlastRadius`. -/
def computeBlastRadius (localeCompare : GoString → GoString → Int)
    (globalIdentities : List ApiIdentity) (chain : List GoString) : List BlastEntry :=
  (blastEntries globalIdentities chain).insertionSort fun a b => compareEntries localeCompare a b ≤ 0

/-! ## One turn -/

variable {ids : List Identity} {chain obo : List GoString}

theorem addPrincipals_cons (chain : List GoString) (p : GoString) (ps : List GoString) :
    addPrincipals chain (p :: ps) = if p ∈ (addPrincipals chain ps).1 then addPrincipals chain ps
      else ((addPrincipals chain ps).1 ++ [p], some p) := by
  unfold addPrincipals
  rw [List.reverse_cons, List.foldl_append]
  rfl

/-- **A turn of the script adds what a turn of the server adds**; the server takes a last empty
principal for none. -/
theorem addPrincipals_eq (chain ps : List GoString) :
    visit chain ps = ((addPrincipals chain ps).1, (addPrincipals chain ps).2.getD "") := by
  induction ps with
  | nil => rfl
  | cons p ps ih =>
    rw [visit_cons, addPrincipals_cons, ih]
    split_ifs <;> rfl

theorem chain_addPrincipals (chain ps : List GoString) :
    (addPrincipals chain ps).1 = (visit chain ps).1 :=
  (congrArg Prod.fst (addPrincipals_eq chain ps)).symm

theorem addPrincipals_next {next : GoString} (h : (addPrincipals chain obo).2 = some next) :
    next ∈ obo ∧ next ∉ chain := by
  induction obo with
  | nil => cases h
  | cons p ps ih =>
    rw [addPrincipals_cons] at h
    split_ifs at h with hp
    · obtain ⟨hmem, hnew⟩ := ih h
      exact ⟨List.mem_cons_of_mem p hmem, hnew⟩
    · rw [Option.some.injEq] at h
      subst h
      refine ⟨List.mem_cons_self, fun hold => hp ?_⟩
      rw [chain_addPrincipals]
      exact mem_visit.mpr (Or.inl hold)

theorem addPrincipals_none : (addPrincipals chain obo).2 = none ↔ ∀ p ∈ obo, p ∈ chain := by
  induction obo with
  | nil => exact iff_of_true rfl fun _ hp => absurd hp List.not_mem_nil
  | cons p ps ih =>
    rw [addPrincipals_cons, List.forall_mem_cons, chain_addPrincipals]
    split_ifs with hp
    · rw [ih]
      constructor
      · intro h
        exact ⟨(mem_visit.mp hp).elim id (h p), h⟩
      · exact And.right
    · refine iff_of_false (fun h => by cases h) fun h => hp ?_
      exact mem_visit.mpr (Or.inl h.1)

theorem visit_old (h : ∀ p ∈ obo, p ∈ chain) : (visit chain obo).1 = chain := by
  induction obo with
  | nil => rfl
  | cons p ps ih =>
    have hps := ih fun q hq => h q (List.mem_cons_of_mem p hq)
    rw [visit_cons, if_pos]
    · exact hps
    · rw [hps]
      exact h p List.mem_cons_self

/-! ## What the script finds -/

theorem find_identitiesJSON (hn : (ids.map Identity.id).Nodup) (id : GoString) :
    find (identitiesJSON ids) id = ((Index.ofIdentities ids).get id).map apiIdentity := by
  have hfind : find (identitiesJSON ids) id = (Keyed.lookup Identity.id id ids).map apiIdentity := by
    unfold find identitiesJSON Keyed.lookup
    rw [List.find?_map]
    rfl
  rw [hfind]
  exact congrArg _ (Keyed.lookup_perm (List.reverse_perm ids).symm hn id)

theorem chainFrom_succ (hn : (ids.map Identity.id).Nodup) (n : Nat) (cur : GoString)
    (chain : List GoString) : chainFrom (identitiesJSON ids) (n + 1) cur chain =
      match (Index.ofIdentities ids).get cur with
      | none => some chain
      | some node =>
        match (addPrincipals chain node.onBehalfOf).2 with
        | none => some (visit chain node.onBehalfOf).1
        | some next => chainFrom (identitiesJSON ids) n next (visit chain node.onBehalfOf).1 := by
  rw [chainFrom, find_identitiesJSON hn]
  cases (Index.ofIdentities ids).get cur with
  | none => rfl
  | some node =>
    dsimp only [Option.map_some, Option.bind_some, apiIdentity]
    rw [← chain_addPrincipals]
    cases node.onBehalfOf with
    | nil => rfl
    | cons p ps => rfl

/-! ## Termination -/

theorem isSome_chainFrom (hn : (ids.map Identity.id).Nodup) : ∀ (n : Nat) (cur : GoString)
    (chain : List GoString), (unvisited (Index.ofIdentities ids) chain).length + 2 ≤ n →
      (chainFrom (identitiesJSON ids) n cur chain).isSome = true
  | 0, _, _, h => by omega
  | n + 1, cur, chain, h => by
    rw [chainFrom_succ hn]
    cases (Index.ofIdentities ids).get cur with
    | none => rfl
    | some node =>
      dsimp only
      cases hnext : (addPrincipals chain node.onBehalfOf).2 with
      | none => rfl
      | some next =>
        dsimp only
        obtain ⟨hmem, hnew⟩ := addPrincipals_next hnext
        cases hnode : (Index.ofIdentities ids).get next with
        | some node' =>
          have hlt := unvisited_lt_of_new hmem hnew hnode
          exact isSome_chainFrom hn n _ _ (by omega)
        | none =>
          obtain ⟨m, rfl⟩ : ∃ m, n = m + 1 := ⟨n - 1, by omega⟩
          rw [chainFrom_succ hn, hnode]
          rfl

/-- **The loop of the script ends.** -/
theorem isSome_getDelegationChain (hn : (ids.map Identity.id).Nodup) (start : GoString) :
    (getDelegationChain (identitiesJSON ids) start).isSome = true := by
  have hle : (unvisited (Index.ofIdentities ids) [start]).length ≤ (Index.ofIdentities ids).length :=
    List.length_filter_le ..
  have hlen : (identitiesJSON ids).length = (Index.ofIdentities ids).length := by
    rw [identitiesJSON, Index.ofIdentities, List.length_map, List.length_reverse]
  exact isSome_chainFrom hn _ _ _ (by omega)

/-! ## Two walks -/

/-- The script's walk is the server's, and what it lists along it the server's blast radius. -/
def Mirrors (localeCompare : GoString → GoString → Int) (ids : List Identity) (start : GoString) :
    Prop :=
  ∃ chain, getDelegationChain (identitiesJSON ids) start = some chain ∧
    chain = walkDelegationChain (Index.ofIdentities ids) start ∧
    ((computeBlastRadius localeCompare (identitiesJSON ids) chain).map fun p => (p.name, p.admin)).Perm
      ((blastRadius (Index.ofIdentities ids) start).map fun p => (p.name, p.admin))

/-- Wherever the last principal a turn of the walk adds is the empty one, there is no identity of that
name, or its principals are on the chain. -/
def EmptyRootSpent (index : Index) (start : GoString) : Prop :=
  ∀ cur chain node root, Walked index start cur chain → index.get cur = some node →
    (addPrincipals chain node.onBehalfOf).2 = some ("" : GoString) → index.get "" = some root →
      ∀ p ∈ root.onBehalfOf, p ∈ (visit chain node.onBehalfOf).1

theorem entries_eq (link : GoString) (ps : List Permission) (out : List BlastEntry)
    (out' : List Permission)
    (h : out.map (fun p => (p.name, p.admin)) = out'.map fun p => (p.name, p.admin)) :
    ((ps.map fun p => (⟨p.name, p.admin, p.used⟩ : ApiPermission)).foldl (fun out p =>
        if p.name ∈ out.map BlastEntry.name then out else out ++ [⟨p.name, p.admin, link⟩]) out).map
          (fun p => (p.name, p.admin)) =
      (ps.foldl (fun out p =>
        if p.name ∈ out.map Permission.name then out else out ++ [p]) out').map
          fun p => (p.name, p.admin) := by
  induction ps generalizing out out' with
  | nil => exact h
  | cons p ps ih =>
    have hnames : out.map BlastEntry.name = out'.map Permission.name := by
      have hfst := congrArg (List.map Prod.fst) h
      rw [List.map_map, List.map_map] at hfst
      exact hfst
    rw [List.map_cons, List.foldl_cons, List.foldl_cons]
    apply ih
    dsimp only
    rw [hnames]
    split_ifs
    · exact h
    · rw [List.map_append, List.map_append, h]
      rfl

/-- **The permissions along the server's chain are those of its blast radius.** -/
theorem blastEntries_walk (hn : (ids.map Identity.id).Nodup) (start : GoString) :
    (blastEntries (identitiesJSON ids) (walkDelegationChain (Index.ofIdentities ids) start)).map
        (fun p => (p.name, p.admin)) =
      (blastRadius (Index.ofIdentities ids) start).map fun p => (p.name, p.admin) := by
  unfold blastEntries blastRadius
  have hrun : ∀ (chain : List GoString) (out : List BlastEntry) (out' : List Permission),
      out.map (fun p => (p.name, p.admin)) = out'.map (fun p => (p.name, p.admin)) →
      (chain.foldl (fun out linkId =>
        match (find (identitiesJSON ids) linkId).bind ApiIdentity.permissions with
        | none => out
        | some ps => ps.foldl (fun out p =>
            if p.name ∈ out.map BlastEntry.name then out else out ++ [⟨p.name, p.admin, linkId⟩])
              out) out).map (fun p => (p.name, p.admin)) =
        (chain.foldl (fun out link =>
          match (Index.ofIdentities ids).get link with
          | none => out
          | some node => node.permissions.foldl (fun out p =>
              if p.name ∈ out.map Permission.name then out else out ++ [p]) out) out').map
                fun p => (p.name, p.admin) := by
    intro chain
    induction chain with
    | nil => exact fun _ _ h => h
    | cons link chain ih =>
      intro out out' h
      rw [List.foldl_cons, List.foldl_cons]
      apply ih
      rw [find_identitiesJSON hn]
      cases (Index.ofIdentities ids).get link with
      | none => exact h
      | some node =>
        dsimp only [Option.map_some, Option.bind_some, apiIdentity]
        rw [← entries_eq link node.permissions out out' h]
        cases node.permissions <;> rfl
  exact hrun _ [] [] rfl

theorem chainFrom_of_walked (hn : (ids.map Identity.id).Nodup) {start cur : GoString}
    {chain : List GoString} (h : Walked (Index.ofIdentities ids) start cur chain) :
    ∃ n, chainFrom (identitiesJSON ids) n cur chain = getDelegationChain (identitiesJSON ids) start := by
  induction h with
  | start => exact ⟨_, rfl⟩
  | @next cur chain node _ hnode hnext ih =>
    obtain ⟨n, h⟩ := ih
    cases n with
    | zero =>
      have hsome := isSome_getDelegationChain hn start
      rw [← h] at hsome
      cases hsome
    | succ n =>
      refine ⟨n, ?_⟩
      rw [← h, chainFrom_succ hn, hnode]
      rw [addPrincipals_eq] at hnext
      dsimp only at hnext ⊢
      cases hp : (addPrincipals chain node.onBehalfOf).2 with
      | none => exact absurd (by rw [hp]; rfl) hnext
      | some next =>
        dsimp only
        rw [addPrincipals_eq, hp]
        rfl

theorem chainFrom_eq_walkFrom (hn : (ids.map Identity.id).Nodup) {start : GoString}
    (h : EmptyRootSpent (Index.ofIdentities ids) start) {c d : List GoString} :
    ∀ {n m : Nat} {cur : GoString} {chain : List GoString},
      Walked (Index.ofIdentities ids) start cur chain →
      walkFrom (Index.ofIdentities ids) n cur chain = some c →
      chainFrom (identitiesJSON ids) m cur chain = some d → d = c
  | 0, _, _, _, _, hc, _ => by cases hc
  | _ + 1, 0, _, _, _, _, hd => by cases hd
  | n + 1, m + 1, cur, chain, hw, hc, hd => by
    rw [walkFrom] at hc
    rw [chainFrom_succ hn] at hd
    cases hnode : (Index.ofIdentities ids).get cur with
    | none =>
      rw [hnode, Option.some.injEq] at hc hd
      exact hd.symm.trans hc
    | some node =>
      rw [hnode] at hc hd
      dsimp only at hc hd
      have hv := congrArg Prod.snd (addPrincipals_eq chain node.onBehalfOf)
      dsimp only at hv
      cases hnext : (addPrincipals chain node.onBehalfOf).2 with
      | none =>
        rw [hnext] at hv hd
        rw [if_pos (show (visit chain node.onBehalfOf).2 = "" from hv), Option.some.injEq] at hc
        exact (Option.some.inj hd).symm.trans hc
      | some next =>
        rw [hnext] at hv hd
        dsimp only [Option.getD_some] at hv hd
        by_cases hempty : next = ""
        · -- the server stops, and the script stands on the empty id
          subst hempty
          rw [if_pos hv, Option.some.injEq] at hc
          cases m with
          | zero => cases hd
          | succ m =>
            rw [chainFrom_succ hn] at hd
            cases hroot : (Index.ofIdentities ids).get "" with
            | none =>
              rw [hroot, Option.some.injEq] at hd
              exact hd.symm.trans hc
            | some root =>
              have hold := h cur chain node root hw hnode hnext hroot
              rw [hroot] at hd
              dsimp only at hd
              rw [addPrincipals_none.mpr hold, visit_old hold, Option.some.injEq] at hd
              exact hd.symm.trans hc
        · rw [if_neg (hv ▸ hempty)] at hc
          have hwalked := Walked.next hw hnode (hv ▸ hempty)
          exact chainFrom_eq_walkFrom hn h hwalked hc (hv ▸ hd)

theorem mem_getDelegationChain_of_empty (hn : (ids.map Identity.id).Nodup) {start cur : GoString}
    {chain : List GoString} {node root : Identity} (hw : Walked (Index.ofIdentities ids) start cur chain)
    (hnode : (Index.ofIdentities ids).get cur = some node)
    (hnext : (addPrincipals chain node.onBehalfOf).2 = some ("" : GoString))
    (hroot : (Index.ofIdentities ids).get "" = some root) {c : List GoString}
    (hc : getDelegationChain (identitiesJSON ids) start = some c) : ∀ p ∈ root.onBehalfOf, p ∈ c := by
  have hsub : ∀ (n : Nat) (cur : GoString) (chain : List GoString),
      chainFrom (identitiesJSON ids) n cur chain = some c → chain ⊆ c := by
    intro n
    induction n with
    | zero => exact fun _ _ h => by cases h
    | succ n ih =>
      intro cur chain h
      have hvisit : ∀ ps, chain ⊆ (visit chain ps).1 := fun ps x hx => mem_visit.mpr (Or.inl hx)
      rw [chainFrom_succ hn] at h
      cases hcur : (Index.ofIdentities ids).get cur with
      | none =>
        rw [hcur, Option.some.injEq] at h
        exact h ▸ List.Subset.refl _
      | some node =>
        rw [hcur] at h
        dsimp only at h
        cases hp : (addPrincipals chain node.onBehalfOf).2 with
        | none =>
          rw [hp, Option.some.injEq] at h
          exact h ▸ hvisit _
        | some next =>
          rw [hp] at h
          exact List.Subset.trans (hvisit _) (ih _ _ h)
  intro p hp
  obtain ⟨n, h⟩ := chainFrom_of_walked hn hw
  rw [hc] at h
  cases n with
  | zero => cases h
  | succ n =>
    simp only [chainFrom_succ hn, hnode, hnext] at h
    cases n with
    | zero => cases h
    | succ n =>
      simp only [chainFrom_succ hn, hroot] at h
      have hv : p ∈ (visit (visit chain node.onBehalfOf).1 root.onBehalfOf).1 :=
        mem_visit.mpr (Or.inr hp)
      cases hnext' : (addPrincipals (visit chain node.onBehalfOf).1 root.onBehalfOf).2 with
      | none =>
        rw [hnext', Option.some.injEq] at h
        exact h ▸ hv
      | some next =>
        rw [hnext'] at h
        exact hsub _ _ _ h hv

/-- **When the dashboard's walk is the server's.** -/
theorem mirrors_iff (localeCompare : GoString → GoString → Int) {ids : List Identity}
    (hn : (ids.map Identity.id).Nodup) (start : GoString) :
    Mirrors localeCompare ids start ↔ EmptyRootSpent (Index.ofIdentities ids) start := by
  constructor
  · rintro ⟨c, hc, rfl, -⟩ cur chain node root hw hnode hnext hroot p hp
    have hmem := mem_getDelegationChain_of_empty hn hw hnode hnext hroot hc p hp
    -- the server's chain is complete where the script goes on
    obtain ⟨n, h⟩ := walkFrom_of_walked hw
    cases n with
    | zero => cases h
    | succ n =>
      have hv := congrArg Prod.snd (addPrincipals_eq chain node.onBehalfOf)
      rw [hnext] at hv
      rw [walkFrom, hnode] at h
      dsimp only at h
      rw [if_pos (show (visit chain node.onBehalfOf).2 = "" from hv), Option.some.injEq] at h
      rw [h]
      exact hmem
  · intro h
    obtain ⟨c, hc⟩ := Option.isSome_iff_exists.mp (isSome_getDelegationChain hn start)
    have heq : c = walkDelegationChain (Index.ofIdentities ids) start :=
      chainFrom_eq_walkFrom hn h Walked.start (walkFrom_start _ start) hc
    refine ⟨c, hc, heq, ?_⟩
    subst heq
    rw [← blastEntries_walk hn]
    exact (List.perm_insertionSort _ _).map _

/-! ## An empty principal -/

/-- An agent that acts for the empty id, which acts for an administrator. -/
def emptyPrincipal : List Identity :=
  [{ Identity.zero "agent" with onBehalfOf := [""] },
    { Identity.zero "" with onBehalfOf := ["root"] },
    { Identity.zero "root" with permissions := [{ (default : Permission) with name := "all", admin := true }] }]

/-- An agent that acts for a user. -/
def oneHop : List Identity :=
  [{ Identity.zero "agent" with onBehalfOf := ["alice"] }, Identity.zero "alice"]

/-- The walk from an agent to its user is one walk. -/
theorem mirrors_iff_oneHop : (oneHop.map Identity.id).Nodup ∧
    (Mirrors (fun _ _ => 0) oneHop "agent" ↔ EmptyRootSpent (Index.ofIdentities oneHop) "agent") :=
  ⟨by decide, mirrors_iff (fun _ _ => 0) (by decide) "agent"⟩

/-- **The script goes through an empty id, and the server does not.** -/
theorem empty_root_differs : ¬ ∀ (localeCompare : GoString → GoString → Int) (ids : List Identity),
    (ids.map Identity.id).Nodup → ∀ start ∈ ids.map Identity.id, Mirrors localeCompare ids start := by
  intro h
  obtain ⟨c, hc, heq, -⟩ := h (fun _ _ => 0) emptyPrincipal (by decide) "agent" (by decide)
  have hscript : getDelegationChain (identitiesJSON emptyPrincipal) "agent" =
      some (["agent", "", "root"] : List GoString) := by
    decide
  have hserver : walkDelegationChain (Index.ofIdentities emptyPrincipal) "agent" =
      (["agent", ""] : List GoString) := by
    decide
  rw [hscript, Option.some.injEq] at hc
  rw [← hc, hserver] at heq
  exact absurd heq (by decide)

end Idryx.Server
