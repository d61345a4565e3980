import Idryx.Graph.Walk
import Idryx.Lib.KeepFirst
import Mathlib.Data.Set.Card

/-!
# What a delegation chain is made of

* `Traced`: the lists grown from a start by a principal that an id of the list names and the list does
  not hold; **`traced_walkDelegationChain`**: a chain is one, whatever the index holds;
* `Traced.exists_before`, `Traced.length_le`; **`walkDelegationChain_traced`** puts them together;
* **`Index.Extends.walkDelegationChain`**: a chain only goes on where principals are added at its end;
* `effectivePermissions`, and `blastRadius_eq`: the blast radius keeps its first grants by name;
* `Index.grant`: a permission more for an identity, which no chain depends on.
-/

namespace Idryx

/-! ## Chains as traces -/

/-- A list grown from `start`: each id is named by one before it and is new. -/
inductive Traced (index : Index) (start : GoString) : List GoString → Prop
  | start : Traced index start [start]
  | snoc {chain : List GoString} {a p : GoString} :
      Traced index start chain → a ∈ chain → Delegates index a p → p ∉ chain →
      Traced index start (chain ++ [p])

/-- The ids some identity of the index names. -/
def named (index : Index) : Set GoString := {p | ∃ a, Delegates index a p}

variable {index : Index} {start : GoString} {chain : List GoString}

theorem finite_named (index : Index) : (named index).Finite := by
  refine Set.Finite.subset (List.finite_toSet (index.flatMap Identity.onBehalfOf)) ?_
  rintro p ⟨a, node, hnode, hp⟩
  exact List.mem_flatMap.mpr ⟨node, Keyed.mem_of_lookup hnode, hp⟩

namespace Traced

theorem head (h : Traced index start chain) : ∃ rest, chain = start :: rest := by
  induction h with
  | start => exact ⟨[], rfl⟩
  | snoc _ _ _ _ ih =>
    obtain ⟨rest, rfl⟩ := ih
    exact ⟨_, List.cons_append⟩

theorem nodup (h : Traced index start chain) : chain.Nodup := by
  induction h with
  | start => exact List.nodup_singleton start
  | snoc _ _ _ hnew ih => exact List.nodup_append.mpr ⟨ih, List.nodup_singleton _, by grind⟩

/-- **Each later id is named by one before it.** -/
theorem exists_before (h : Traced index start chain) {before after : List GoString} {x : GoString}
    (hsplit : chain = before ++ x :: after) (hne : before ≠ []) :
    ∃ a ∈ before, Delegates index a x := by
  induction h generalizing after with
  | start =>
    cases before with
    | nil => exact absurd rfl hne
    | cons b before => simp at hsplit
  | @snoc chain a p _ ha hap _ ih =>
    rcases List.eq_nil_or_concat after with rfl | ⟨after, y, rfl⟩
    · -- the id appended last
      obtain ⟨rfl, hp⟩ := List.append_inj' hsplit rfl
      obtain rfl : p = x := by simpa using hp
      exact ⟨a, ha, hap⟩
    · have hlast : chain ++ [p] = (before ++ x :: after) ++ [y] := by
        rw [hsplit]
        simp
      exact ih (List.append_inj' hlast rfl).1

theorem tail_subset (h : Traced index start chain) : ∀ x ∈ chain.tail, x ∈ named index := by
  induction h with
  | start => simp
  | @snoc chain a p _ ha hap _ ih =>
    intro x hx
    rw [List.tail_append_of_ne_nil (List.ne_nil_of_mem ha), List.mem_append] at hx
    rcases hx with hx | hx
    · exact ih x hx
    · exact ⟨a, List.mem_singleton.mp hx ▸ hap⟩

theorem length_le (h : Traced index start chain) : chain.length ≤ 1 + (named index).ncard := by
  have htail : chain.tail.Nodup := h.nodup.sublist (List.tail_sublist chain)
  have hcard : chain.tail.length ≤ (named index).ncard := by
    rw [← List.toFinset_card_of_nodup htail, ← Set.ncard_coe_finset]
    refine Set.ncard_le_ncard (fun x hx => ?_) (finite_named index)
    exact h.tail_subset x (List.mem_toFinset.mp hx)
  rw [List.length_tail] at hcard
  omega

theorem visit (h : Traced index start chain) {cur : GoString} {node : Identity} (hcur : cur ∈ chain)
    (hnode : index.get cur = some node) {ps : List GoString} (hps : ps ⊆ node.onBehalfOf) :
    Traced index start (visit chain ps).1 := by
  induction ps with
  | nil => exact h
  | cons p ps ih =>
    have hold := ih fun x hx => hps (List.mem_cons_of_mem _ hx)
    rw [visit_cons]
    split_ifs with hp
    · exact hold
    · exact hold.snoc (mem_visit.mpr (Or.inl hcur)) ⟨node, hnode, hps List.mem_cons_self⟩ hp

theorem walkFrom {c : List GoString} : ∀ {n : Nat} {cur : GoString} {chain : List GoString},
    Traced index start chain → cur ∈ chain → walkFrom index n cur chain = some c →
      Traced index start c
  | 0, _, _, _, _, h => by cases h
  | n + 1, cur, chain, htr, hcur, h => by
    rw [Idryx.walkFrom] at h
    cases hnode : index.get cur with
    | none =>
      rw [hnode, Option.some.injEq] at h
      exact h ▸ htr
    | some node =>
      rw [hnode] at h
      dsimp only at h
      have hstep := htr.visit hcur hnode (List.Subset.refl node.onBehalfOf)
      split_ifs at h with hnext
      · rw [Option.some.injEq] at h
        exact h ▸ hstep
      · -- the walk goes on from a principal of the list it has just read
        have hmem := ((visit_next chain node.onBehalfOf).resolve_left hnext).1
        exact hstep.walkFrom (mem_visit.mpr (Or.inr hmem)) h

end Traced

/-- **A delegation chain is a trace.** -/
theorem traced_walkDelegationChain (index : Index) (start : GoString) :
    Traced index start (walkDelegationChain index start) :=
  Traced.start.walkFrom List.mem_cons_self (walkFrom_start index start)

theorem walkFrom_mono {c : List GoString} : ∀ {n m : Nat} {cur : GoString} {chain : List GoString},
    n ≤ m → walkFrom index n cur chain = some c → walkFrom index m cur chain = some c
  | 0, _, _, _, _, h => by cases h
  | n + 1, 0, _, _, hle, _ => by omega
  | n + 1, m + 1, cur, chain, hle, h => by
    rw [walkFrom] at h ⊢
    cases hcur : index.get cur with
    | none => rwa [hcur] at h
    | some node =>
      rw [hcur] at h
      dsimp only at h ⊢
      split_ifs at h ⊢ with hnext
      · exact h
      · exact walkFrom_mono (by omega) h

/-- **The walk ends and is sound**: over any index it takes no more turns than there are identities
and two; the chain begins with the start, repeats nobody, goes from an id to one that an earlier one
acts for, and is no longer than the principals there are to name. -/
theorem walkDelegationChain_traced (index : Index) (start : GoString) :
    (∀ n, index.length + 2 ≤ n →
      walkFrom index n start [start] = some (walkDelegationChain index start)) ∧
    (walkDelegationChain index start).head? = some start ∧
    (walkDelegationChain index start).Nodup ∧
    (∀ before x after, walkDelegationChain index start = before ++ x :: after → before ≠ [] →
      ∃ a ∈ before, ∃ node, index.get a = some node ∧ x ∈ node.onBehalfOf) ∧
    (walkDelegationChain index start).length ≤
      1 + {p | ∃ a node, index.get a = some node ∧ p ∈ node.onBehalfOf}.ncard := by
  have h := traced_walkDelegationChain index start
  refine ⟨fun n hn => walkFrom_mono hn (walkFrom_start index start), ?_, h.nodup, ?_, h.length_le⟩
  · obtain ⟨rest, hrest⟩ := h.head
    rw [hrest]
    rfl
  · intro before x after hsplit hne
    exact h.exists_before hsplit hne

/-! ## Chains that go on -/

theorem prefix_visit (chain ps : List GoString) : chain <+: (visit chain ps).1 := by
  induction ps with
  | nil => exact List.prefix_refl chain
  | cons p ps ih =>
    rw [visit_cons]
    split_ifs
    · exact ih
    · exact ih.trans (List.prefix_append _ [p])

theorem prefix_walkFrom {c : List GoString} : ∀ {n : Nat} {cur : GoString} {chain : List GoString},
    walkFrom index n cur chain = some c → chain <+: c
  | 0, _, _, h => by cases h
  | n + 1, cur, chain, h => by
    rw [walkFrom] at h
    cases hcur : index.get cur with
    | none =>
      rw [hcur, Option.some.injEq] at h
      exact h ▸ List.prefix_refl _
    | some node =>
      rw [hcur] at h
      dsimp only at h
      split_ifs at h with hnext
      · rw [Option.some.injEq] at h
        exact h ▸ prefix_visit chain _
      · exact (prefix_visit chain _).trans (prefix_walkFrom h)

/-- An index in which every identity keeps its principals, or is given some where it had none. -/
def Index.Extends (index' index : Index) : Prop :=
  ∀ id node, index.get id = some node → ∃ node', index'.get id = some node' ∧
    (node'.onBehalfOf = node.onBehalfOf ∨ node.onBehalfOf = [])

theorem Index.Extends.walkFrom {index' : Index} (h : Index.Extends index' index) {c c' : List GoString} :
    ∀ {n n' : Nat} {cur : GoString} {chain : List GoString}, walkFrom index n cur chain = some c →
      walkFrom index' n' cur chain = some c' → c <+: c'
  | 0, _, _, _, hc, _ => by cases hc
  | _ + 1, 0, _, _, _, hc' => by cases hc'
  | n + 1, n' + 1, cur, chain, hc, hc' => by
    rw [Idryx.walkFrom] at hc
    cases hnode : index.get cur with
    | none =>
      -- the chain ends here, and the other is grown from it
      rw [hnode, Option.some.injEq] at hc
      exact hc ▸ prefix_walkFrom hc'
    | some node =>
      obtain ⟨node', hnode', hsame | hnil⟩ := h cur node hnode
      · rw [Idryx.walkFrom, hnode'] at hc'
        rw [hnode] at hc
        dsimp only at hc hc'
        rw [hsame] at hc'
        split_ifs at hc hc' with hnext
        · rw [Option.some.injEq] at hc hc'
          exact hc ▸ hc' ▸ List.prefix_refl _
        · exact h.walkFrom hc hc'
      · rw [hnode] at hc
        dsimp only at hc
        rw [hnil] at hc
        have hend : c = chain := (Option.some.inj hc).symm
        exact hend ▸ prefix_walkFrom hc'

/-- **A chain only goes on** where identities that had no principal are given some. -/
theorem Index.Extends.walkDelegationChain {index' : Index} (h : Index.Extends index' index)
    (start : GoString) : walkDelegationChain index start <+: walkDelegationChain index' start :=
  h.walkFrom (walkFrom_start index start) (walkFrom_start index' start)

/-! ## The permissions along a chain -/

/-- `EffectivePermissions`: the permissions of each identity of the chain, none left out. -/
def effectivePermissions (index : Index) (id : GoString) : List Permission :=
  (walkDelegationChain index id).flatMap fun link =>
    match index.get link with
    | none => []
    | some node => node.permissions

/-- Two grants of one name. -/
def sameName (p q : Permission) : Bool := p.name == q.name

theorem mem_effectivePermissions {p : Permission} : p ∈ effectivePermissions index start ↔
    ∃ id ∈ walkDelegationChain index start, ∃ node, index.get id = some node ∧
      p ∈ node.permissions := by
  unfold effectivePermissions
  rw [List.mem_flatMap]
  refine exists_congr fun id => and_congr_right fun _ => ?_
  cases index.get id with
  | none => simp
  | some node => simp

theorem foldl_names (out ps : List Permission) :
    ps.foldl (fun out p => if p.name ∈ out.map Permission.name then out else out ++ [p]) out =
      KeepFirst.keepFirst sameName out ps := by
  unfold KeepFirst.keepFirst
  congr 1
  funext out p
  have hany : out.any (sameName · p) = true ↔ p.name ∈ out.map Permission.name := by
    rw [List.any_eq_true, List.mem_map]
    exact exists_congr fun q => and_congr_right fun _ => beq_iff_eq
  by_cases h : p.name ∈ out.map Permission.name
  · rw [if_pos h, if_pos (hany.mpr h)]
  · rw [if_neg h, if_neg (mt hany.mp h)]

/-- **The blast radius is the effective permissions, the first of each name.** -/
theorem blastRadius_eq (index : Index) (start : GoString) :
    blastRadius index start = KeepFirst.keepFirst sameName [] (effectivePermissions index start) := by
  unfold blastRadius effectivePermissions
  rw [KeepFirst.keepFirst, List.foldl_flatMap]
  congr 1
  funext out link
  cases index.get link with
  | none => rfl
  | some node => exact foldl_names out node.permissions

theorem nodup_blastRadius (index : Index) (start : GoString) :
    ((blastRadius index start).map Permission.name).Nodup := by
  rw [blastRadius_eq, List.Nodup, List.pairwise_map]
  refine (KeepFirst.keepFirst_pairwise List.Pairwise.nil _).imp fun {p q} hpq => ?_
  exact ne_of_beq_false hpq

theorem find_effectivePermissions {p : Permission} (hp : p ∈ blastRadius index start) :
    (effectivePermissions index start).find? (·.name == p.name) = some p := by
  have hclass := KeepFirst.filter_keepFirst_class (r := sameName) (p := (·.name == p.name))
    (fun a b hab => by rw [beq_iff_eq.mp hab])
    (fun a b ha hb => beq_iff_eq.mpr ((beq_iff_eq.mp ha).trans (beq_iff_eq.mp hb).symm))
    (effectivePermissions index start)
  rw [blastRadius_eq] at hp
  have hmem : p ∈ (KeepFirst.keepFirst sameName [] (effectivePermissions index start)).filter
      (·.name == p.name) := List.mem_filter.mpr ⟨hp, beq_self_eq_true p.name⟩
  rw [hclass, Option.mem_toList] at hmem
  exact hmem

/-! ## One permission more -/

/-- The index with `p` among the permissions of an identity, after the first `k` of them. -/
def Index.grant (index : Index) (id : GoString) (k : Nat) (p : Permission) : Index :=
  index.map fun i =>
    if i.id = id then
      { i with permissions := i.permissions.take k ++ p :: i.permissions.drop k }
    else i

theorem Index.get_grant (index : Index) (id : GoString) (k : Nat) (p : Permission) (a : GoString) :
    (index.grant id k p).get a = (index.get a).map fun i =>
      if i.id = id then
        { i with permissions := i.permissions.take k ++ p :: i.permissions.drop k }
      else i := by
  unfold Index.get Index.grant
  apply Keyed.lookup_map
  intro i
  split_ifs <;> rfl

theorem walkFrom_congr {index' : Index}
    (h : ∀ a, (index'.get a).map Identity.onBehalfOf = (index.get a).map Identity.onBehalfOf) :
    ∀ (n : Nat) (cur : GoString) (chain : List GoString),
      walkFrom index' n cur chain = walkFrom index n cur chain
  | 0, _, _ => rfl
  | n + 1, cur, chain => by
    have hcur := h cur
    rw [walkFrom, walkFrom]
    cases hl : index.get cur with
    | none =>
      rw [hl, Option.map_none, Option.map_eq_none_iff] at hcur
      rw [hcur]
    | some node =>
      rw [hl, Option.map_some, Option.map_eq_some_iff] at hcur
      obtain ⟨node', hl', hsame⟩ := hcur
      rw [hl']
      dsimp only
      rw [hsame, walkFrom_congr h n]

theorem walkDelegationChain_grant (index : Index) (id : GoString) (k : Nat) (p : Permission)
    (start : GoString) :
    walkDelegationChain (index.grant id k p) start = walkDelegationChain index start := by
  have hsame : ∀ a, ((index.grant id k p).get a).map Identity.onBehalfOf =
      (index.get a).map Identity.onBehalfOf := by
    intro a
    rw [Index.get_grant, Option.map_map]
    congr 1
    funext i
    simp only [Function.comp]
    split_ifs <;> rfl
  have hlen : (index.grant id k p).length = index.length := List.length_map ..
  unfold walkDelegationChain
  rw [hlen, walkFrom_congr hsame]

theorem mem_effectivePermissions_grant {q : Permission} (hq : q ∈ effectivePermissions index start)
    (id : GoString) (k : Nat) (p : Permission) :
    q ∈ effectivePermissions (index.grant id k p) start := by
  rw [mem_effectivePermissions] at hq ⊢
  obtain ⟨link, hlink, node, hnode, hq⟩ := hq
  rw [walkDelegationChain_grant]
  refine ⟨link, hlink, _, (Index.get_grant ..).trans (congrArg _ hnode), ?_⟩
  dsimp only
  split_ifs
  · rw [← List.take_append_drop k node.permissions, List.mem_append] at hq
    exact List.mem_append.mpr (hq.imp_right fun h => List.mem_cons_of_mem p h)
  · exact hq

end Idryx
