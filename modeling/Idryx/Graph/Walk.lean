import Idryx.Graph.Store
import Mathlib.Logic.Relation

/-!
# Delegation chains

`WalkDelegationChain` and `BlastRadius` of `internal/graph/store.go`. The seen set of the walk is the
chain itself; the loop runs on fuel, which **`isSome_walkFrom`** shows to suffice.

* `visit`: a node's own list, immediate principal first, and the principal to continue from;
* `Walked`: the states of the loop; **`mem_walk_of_walked`**: whatever a node the walk stands on
  names is on the chain;
* `Consistent`: the lists of intermediate principals repeat what the longer list says;
  **`mem_walk_of_reaches`**: then the chain holds every reachable principal;
* `blastRadius`, with **`mem_blastRadius`**.
-/

namespace Idryx

/-- A map of identities by id. The first entry of an id is the one the map holds. -/
abbrev Index := List Identity

namespace Index

/-- The map filled from a list of identities in order: a later one replaces an earlier one. -/
def ofIdentities (ids : List Identity) : Index := ids.reverse

/-- What the map holds of an id. -/
def get (index : Index) (id : GoString) : Option Identity := Keyed.lookup Identity.id id index

theorem get_ofIdentities {ids : List Identity} (hn : (ids.map Identity.id).Nodup) {i : Identity}
    (hi : i ∈ ids) : (ofIdentities ids).get i.id = some i := by
  refine Keyed.lookup_of_mem ?_ (List.mem_reverse.mpr hi)
  rw [ofIdentities, List.map_reverse, List.nodup_reverse]
  exact hn

end Index

/-! ## The walk -/

/-- Append a node's own list to the chain, immediate principal first, with the last id appended. -/
def visit (chain ps : List GoString) : List GoString × GoString :=
  ps.reverse.foldl (fun st p => if p ∈ st.1 then st else (st.1 ++ [p], p)) (chain, "")

/-- The loop of `WalkDelegationChain`, at most `n` turns of it. -/
def walkFrom (index : Index) : Nat → GoString → List GoString → Option (List GoString)
  | 0, _, _ => none
  | n + 1, cur, chain =>
    match index.get cur with
    | none => some chain
    | some node =>
      let (chain, next) := visit chain node.onBehalfOf
      if next = "" then some chain else walkFrom index n next chain

/-- `WalkDelegationChain`. -/
def walkDelegationChain (index : Index) (start : GoString) : List GoString :=
  (walkFrom index (index.length + 2) start [start]).getD []

/-- `BlastRadius`: the permissions along the chain, the first of each name. -/
def blastRadius (index : Index) (start : GoString) : List Permission :=
  (walkDelegationChain index start).foldl (fun out link =>
    match index.get link with
    | none => out
    | some node => node.permissions.foldl (fun out p =>
        if p.name ∈ out.map Permission.name then out else out ++ [p]) out) []

/-! ## One turn -/

theorem visit_cons (chain : List GoString) (p : GoString) (ps : List GoString) :
    visit chain (p :: ps) =
      if p ∈ (visit chain ps).1 then visit chain ps else ((visit chain ps).1 ++ [p], p) := by
  unfold visit
  rw [List.reverse_cons, List.foldl_append]
  rfl

theorem mem_visit {chain ps : List GoString} {x : GoString} :
    x ∈ (visit chain ps).1 ↔ x ∈ chain ∨ x ∈ ps := by
  induction ps with
  | nil => simp [visit]
  | cons p ps ih =>
    rw [visit_cons, List.mem_cons]
    split_ifs with hp
    · rw [ih]
      constructor
      · rintro (h | h)
        · exact Or.inl h
        · exact Or.inr (Or.inr h)
      · rintro (h | rfl | h)
        · exact Or.inl h
        · exact ih.mp hp
        · exact Or.inr h
    · rw [List.mem_append, ih, List.mem_singleton]
      tauto

theorem visit_next (chain ps : List GoString) :
    (visit chain ps).2 = "" ∨ (visit chain ps).2 ∈ ps ∧ (visit chain ps).2 ∉ chain := by
  induction ps with
  | nil => exact Or.inl rfl
  | cons p ps ih =>
    rw [visit_cons]
    split_ifs with hp
    · exact ih.imp id fun h => ⟨List.mem_cons_of_mem _ h.1, h.2⟩
    · exact Or.inr ⟨List.mem_cons_self, fun h => hp (mem_visit.mpr (Or.inl h))⟩

theorem eq_next_or_mem_tail {chain ps : List GoString} {x : GoString} (hx : x ∈ ps)
    (hnew : x ∉ chain) : x = (visit chain ps).2 ∨ x ∈ ps.tail := by
  cases ps with
  | nil => cases hx
  | cons p ps =>
    rcases List.mem_cons.mp hx with rfl | hx
    · by_cases hp : x ∈ ps
      · exact Or.inr hp
      · refine Or.inl ?_
        rw [visit_cons, if_neg]
        rw [mem_visit]
        exact fun h => h.elim hnew hp
    · exact Or.inr hx

theorem old_of_next_eq_empty {chain ps : List GoString} (he : ("" : GoString) ∉ ps)
    (h : (visit chain ps).2 = "") : ∀ x ∈ ps, x ∈ chain := by
  induction ps with
  | nil => simp
  | cons p ps ih =>
    rw [visit_cons] at h
    split_ifs at h with hp
    · have hold := ih (fun h' => he (List.mem_cons_of_mem _ h')) h
      intro x hx
      rcases List.mem_cons.mp hx with rfl | hx
      · exact (mem_visit.mp hp).elim id (hold x)
      · exact hold x hx
    · exact absurd (h ▸ List.mem_cons_self) he

/-! ## Termination -/

/-- The identities of the index that are not on the chain. -/
def unvisited (index : Index) (chain : List GoString) : List Identity :=
  index.filter fun i => i.id ∉ chain

theorem unvisited_lt_of_new {index : Index} {chain ps : List GoString} {x : GoString} {node : Identity}
    (hmem : x ∈ ps) (hnew : x ∉ chain) (hnode : index.get x = some node) :
    (unvisited index (visit chain ps).1).length < (unvisited index chain).length := by
  have hsub : unvisited index (visit chain ps).1 =
      (unvisited index chain).filter fun i => i.id ∉ (visit chain ps).1 := by
    refine (Keyed.filter_filter_of_imp (fun i hi => ?_) index).symm
    rw [decide_eq_true_eq] at hi ⊢
    exact fun h => hi (mem_visit.mpr (Or.inl h))
  have hid := Keyed.lookup_key hnode
  rw [hsub, List.length_filter_lt_length_iff_exists]
  refine ⟨node, List.mem_filter.mpr ⟨Keyed.mem_of_lookup hnode, ?_⟩, ?_⟩
  · rw [hid]
    exact decide_eq_true hnew
  · rw [hid]
    simp [mem_visit, hmem]

theorem unvisited_visit_lt {index : Index} {chain ps : List GoString} {node : Identity}
    (hnext : (visit chain ps).2 ≠ "") (hnode : index.get (visit chain ps).2 = some node) :
    (unvisited index (visit chain ps).1).length < (unvisited index chain).length := by
  obtain ⟨hmem, hnew⟩ := (visit_next chain ps).resolve_left hnext
  exact unvisited_lt_of_new hmem hnew hnode

theorem isSome_walkFrom (index : Index) : ∀ (n : Nat) (cur : GoString) (chain : List GoString),
    (unvisited index chain).length + 2 ≤ n → (walkFrom index n cur chain).isSome = true
  | 0, _, _, h => by omega
  | n + 1, cur, chain, h => by
    rw [walkFrom]
    cases hcur : index.get cur with
    | none => rfl
    | some node =>
      dsimp only
      split_ifs with hnext
      · rfl
      · cases hn : index.get (visit chain node.onBehalfOf).2 with
        | some node' =>
          have hlt := unvisited_visit_lt hnext hn
          exact isSome_walkFrom index n _ _ (by omega)
        | none =>
          obtain ⟨m, rfl⟩ : ∃ m, n = m + 1 := ⟨n - 1, by omega⟩
          rw [walkFrom, hn]
          rfl

theorem walkFrom_start (index : Index) (start : GoString) :
    walkFrom index (index.length + 2) start [start] = some (walkDelegationChain index start) := by
  have hle : (unvisited index [start]).length ≤ index.length := List.length_filter_le ..
  obtain ⟨c, hc⟩ := Option.isSome_iff_exists.mp
    (isSome_walkFrom index (index.length + 2) start [start] (by omega))
  rw [walkDelegationChain, hc]
  rfl

/-! ## What the walk reaches -/

/-- The walk stands on `cur`, the chain so far being `chain`. -/
inductive Walked (index : Index) (start : GoString) : GoString → List GoString → Prop
  | start : Walked index start start [start]
  | next {cur : GoString} {chain : List GoString} {node : Identity} :
      Walked index start cur chain → index.get cur = some node →
      (visit chain node.onBehalfOf).2 ≠ "" →
      Walked index start (visit chain node.onBehalfOf).2 (visit chain node.onBehalfOf).1

variable {index : Index} {start : GoString}

theorem walkFrom_of_walked {cur : GoString} {chain : List GoString}
    (h : Walked index start cur chain) :
    ∃ n, walkFrom index n cur chain = some (walkDelegationChain index start) := by
  induction h with
  | start => exact ⟨_, walkFrom_start index start⟩
  | next _ hnode hnext ih =>
    obtain ⟨n, hn⟩ := ih
    cases n with
    | zero => cases hn
    | succ n =>
      rw [walkFrom, hnode] at hn
      dsimp only at hn
      rw [if_neg hnext] at hn
      exact ⟨n, hn⟩

theorem subset_walkFrom {c : List GoString} : ∀ {n : Nat} {cur : GoString} {chain : List GoString},
    walkFrom index n cur chain = some c → chain ⊆ c
  | 0, _, _, h => by cases h
  | n + 1, cur, chain, h => by
    rw [walkFrom] at h
    cases hcur : index.get cur with
    | none =>
      rw [hcur, Option.some.injEq] at h
      exact h ▸ List.Subset.refl _
    | some node =>
      rw [hcur] at h
      dsimp only at h
      have hsub : chain ⊆ (visit chain node.onBehalfOf).1 := fun x hx => mem_visit.mpr (Or.inl hx)
      split_ifs at h with hnext
      · rw [Option.some.injEq] at h
        exact h ▸ hsub
      · exact List.Subset.trans hsub (subset_walkFrom h)

/-- **Everything named by an identity the walk stands on is on the chain.** -/
theorem mem_walk_of_walked {cur : GoString} {chain : List GoString} {node : Identity}
    (h : Walked index start cur chain) (hnode : index.get cur = some node) :
    ∀ p ∈ node.onBehalfOf, p ∈ walkDelegationChain index start := by
  intro p hp
  obtain ⟨n, hn⟩ := walkFrom_of_walked h
  have hv : p ∈ (visit chain node.onBehalfOf).1 := mem_visit.mpr (Or.inr hp)
  cases n with
  | zero => cases hn
  | succ n =>
    rw [walkFrom, hnode] at hn
    dsimp only at hn
    split_ifs at hn with hnext
    · rw [Option.some.injEq] at hn
      exact hn ▸ hv
    · exact subset_walkFrom hn hv

theorem start_mem_walk (index : Index) (start : GoString) :
    start ∈ walkDelegationChain index start :=
  subset_walkFrom (walkFrom_start index start) List.mem_cons_self

/-! ## Closure -/

/-- `b` is named by the identity of `a`. -/
def Delegates (index : Index) (a b : GoString) : Prop :=
  ∃ node, index.get a = some node ∧ b ∈ node.onBehalfOf

/-- `b` is reached from `a` through one or more delegations. -/
def Reaches (index : Index) : GoString → GoString → Prop := Relation.TransGen (Delegates index)

/-- No list names the empty id, and a principal inside a list names nobody the list does not. -/
def Consistent (index : Index) : Prop :=
  ∀ a node, index.get a = some node → ("" : GoString) ∉ node.onBehalfOf ∧
    ∀ p ∈ node.onBehalfOf.tail, ∀ x, Delegates index p x → x ∈ node.onBehalfOf

/-- Every id but `cur` names only ids of the chain. -/
def ClosedBut (index : Index) (cur : GoString) (chain : List GoString) : Prop :=
  ∀ x ∈ chain, x ≠ cur → ∀ y, Delegates index x y → y ∈ chain

theorem closedBut_visit (hc : Consistent index) {cur : GoString} {chain : List GoString}
    {node : Identity} (hnode : index.get cur = some node) (h : ClosedBut index cur chain) :
    ClosedBut index (visit chain node.onBehalfOf).2 (visit chain node.onBehalfOf).1 := by
  intro x hx hne y hy
  rw [mem_visit] at hx ⊢
  by_cases hxc : x ∈ chain
  · by_cases hcur : x = cur
    · -- the list just read
      obtain ⟨node', hnode', hmem⟩ := hy
      rw [hcur, hnode, Option.some.injEq] at hnode'
      exact Or.inr (hnode' ▸ hmem)
    · exact Or.inl (h x hxc hcur y hy)
  · -- an intermediate principal just added
    have htail := (eq_next_or_mem_tail (hx.resolve_left hxc) hxc).resolve_left hne
    exact Or.inr ((hc cur node hnode).2 x htail y hy)

theorem closed_walkFrom (hc : Consistent index) {c : List GoString} :
    ∀ {n : Nat} {cur : GoString} {chain : List GoString}, ClosedBut index cur chain →
      walkFrom index n cur chain = some c → ∀ x ∈ c, ∀ y, Delegates index x y → y ∈ c
  | 0, _, _, _, h => by cases h
  | n + 1, cur, chain, hclosed, h => by
    rw [walkFrom] at h
    cases hcur : index.get cur with
    | none =>
      rw [hcur, Option.some.injEq] at h
      subst h
      intro x hx y hy
      by_cases hxc : x = cur
      · obtain ⟨node, hnode, _⟩ := hy
        rw [hxc, hcur] at hnode
        cases hnode
      · exact hclosed x hx hxc y hy
    | some node =>
      rw [hcur] at h
      dsimp only at h
      have hstep := closedBut_visit hc hcur hclosed
      split_ifs at h with hnext
      · rw [Option.some.injEq] at h
        have hold := old_of_next_eq_empty (hc cur node hcur).1 hnext
        subst h
        intro x hx y hy
        by_cases hx' : x = (visit chain node.onBehalfOf).2
        · -- the empty id: it was on the chain before
          rw [mem_visit] at hx ⊢
          have hxc : x ∈ chain := hx.elim id (hold x)
          by_cases hxcur : x = cur
          · obtain ⟨node', hnode', hmem⟩ := hy
            rw [hxcur, hcur, Option.some.injEq] at hnode'
            exact Or.inr (hnode' ▸ hmem)
          · exact Or.inl (hclosed x hxc hxcur y hy)
        · exact hstep x hx hx' y hy
      · exact closed_walkFrom hc hstep h

/-- **Over a consistent index the chain holds every reachable principal.** -/
theorem mem_walk_of_reaches (hc : Consistent index) {id : GoString}
    (h : Reaches index start id) : id ∈ walkDelegationChain index start := by
  have hinit : ClosedBut index start [start] := by
    intro x hx hne
    exact absurd (List.mem_singleton.mp hx) hne
  have hclosed := closed_walkFrom hc hinit (walkFrom_start index start)
  induction h with
  | single hab => exact hclosed start (start_mem_walk index start) _ hab
  | tail _ hbc ih => exact hclosed _ ih _ hbc

/-! ## The blast radius -/

theorem mem_names_foldl (ps : List Permission) (out : List Permission) (n : GoString) :
    n ∈ (ps.foldl (fun out p =>
        if p.name ∈ out.map Permission.name then out else out ++ [p]) out).map Permission.name ↔
      n ∈ out.map Permission.name ∨ n ∈ ps.map Permission.name := by
  rw [List.mem_map (f := Permission.name) (l := ps)]
  apply Loop.foldl_iff (P := fun out : List Permission => n ∈ out.map Permission.name)
  intro out p
  split_ifs with hp
  · constructor
    · exact Or.inl
    · rintro (h | rfl)
      · exact h
      · exact hp
  · rw [List.map_append, List.mem_append, List.map_singleton, List.mem_singleton, eq_comm (a := n)]

/-- **The names of the blast radius are those of the permissions along the chain.** -/
theorem mem_blastRadius (index : Index) (start n : GoString) :
    n ∈ (blastRadius index start).map Permission.name ↔
      ∃ id ∈ walkDelegationChain index start, ∃ node, index.get id = some node ∧
        n ∈ node.permissions.map Permission.name := by
  unfold blastRadius
  rw [Loop.foldl_iff (P := fun out : List Permission => n ∈ out.map Permission.name)
    (Q := fun id => ∃ node, index.get id = some node ∧ n ∈ node.permissions.map Permission.name)]
  · simp only [List.map_nil, List.not_mem_nil, false_or]
  intro out link
  cases hl : index.get link with
  | none => simp
  | some node =>
    dsimp only
    rw [mem_names_foldl]
    simp only [Option.some.injEq, exists_eq_left']

end Idryx
