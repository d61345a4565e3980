import Idryx.Go.Search
import Idryx.Graph.Chain
import Idryx.Graph.Grants
import Idryx.Graph.Reorder

/-!
# The Agent-BOM

`internal/bom/bom.go`: of each agent who owns it, where it runs, what vouches for it, what it may use, and whom it acts
for.

* `AgentBOM`, `BOM`, `buildAgent`, `build`;
* `Agree`: reports of one identity that do not contradict each other; `Card.merge_comm`;
* `Alike`: what a BOM reads of an identity; `alike_run`, `build_alike`;
* **`build_perm`**: the order the sources are loaded in does not matter to the BOM;
* **`build_exact`**: what is in it, in which order.
-/

namespace Idryx.Bom

/-! ## The inventory -/

/-- A grant of an agent. -/
structure ToolRef where
  name : GoString
  admin : Bool
  used : Bool
  deriving DecidableEq

/-- What the BOM says of an agent. -/
structure AgentBOM where
  id : GoString
  owner : GoString
  runtime : GoString
  parent : GoString
  attestation : GoString
  privileged : Bool
  tools : List ToolRef
  delegationChain : List GoString
  blastRadius : List GoString
  deriving DecidableEq

/-- The bill of materials of all agents. -/
structure BOM where
  generatedAt : Time
  agents : List AgentBOM

/-- A grant as it is listed. -/
def toolRef (p : Permission) : ToolRef := ⟨p.name, p.admin, p.used⟩

/-- The grants, sorted by name; the grants of a node have different names. -/
def toolRefs (ps : List Permission) : List ToolRef := (ps.map toolRef).insertionSort fun a b => a.name ≤ b.name

/-- The entry of one agent. -/
def buildAgent (index : Index) (id : Identity) : AgentBOM where
  id := id.id
  owner := id.owner
  runtime := id.runtime
  parent := id.parent
  attestation := id.attestation
  privileged := id.privileged
  tools := toolRefs id.permissions
  delegationChain := walkDelegationChain index id.id
  blastRadius := Strings.sort ((blastRadius index id.id).map Permission.name)

/-- `Build`, over the identities the graph returns. -/
def build (now : Time) (ids : List Identity) : BOM where
  generatedAt := now
  agents :=
    ((ids.filter Identity.isAgent).map (buildAgent (Index.ofIdentities ids))).insertionSort fun a b => a.id ≤ b.id

/-! ## Reports that agree -/

/-- What a BOM reads of an identity besides its grants. -/
structure Card where
  type : GoString
  privileged : Bool
  owner : GoString
  runtime : GoString
  parent : GoString
  attestation : GoString
  onBehalfOf : List GoString

/-- What the BOM reads of an identity apart from its grants. -/
def card (i : Identity) : Card := ⟨i.type, i.privileged, i.owner, i.runtime, i.parent, i.attestation, i.onBehalfOf⟩

/-- What a report does to it. -/
def Card.merge (c : Card) (inn : Identity) : Card where
  type := if inn.type ≠ identityHuman then inn.type else c.type
  privileged := if inn.privileged then true else c.privileged
  owner := if inn.owner ≠ "" then inn.owner else c.owner
  runtime := if inn.runtime ≠ "" then inn.runtime else c.runtime
  parent := if inn.parent ≠ "" then inn.parent else c.parent
  attestation := if inn.attestation ≠ "" then inn.attestation else c.attestation
  onBehalfOf := if inn.onBehalfOf ≠ [] then inn.onBehalfOf else c.onBehalfOf

theorem card_mergeIdentity (i inn : Identity) : card (mergeIdentity i inn) = (card i).merge inn := rfl

/-- Where both reports say something they say the same. -/
structure Agree (i j : Identity) : Prop where
  type : i.type ≠ identityHuman → j.type ≠ identityHuman → i.type = j.type
  owner : i.owner ≠ "" → j.owner ≠ "" → i.owner = j.owner
  runtime : i.runtime ≠ "" → j.runtime ≠ "" → i.runtime = j.runtime
  parent : i.parent ≠ "" → j.parent ≠ "" → i.parent = j.parent
  attestation : i.attestation ≠ "" → j.attestation ≠ "" → i.attestation = j.attestation
  onBehalfOf : i.onBehalfOf ≠ [] → j.onBehalfOf ≠ [] → i.onBehalfOf = j.onBehalfOf

instance (i j : Identity) : Decidable (Agree i j) :=
  decidable_of_iff ((i.type ≠ identityHuman → j.type ≠ identityHuman → i.type = j.type) ∧
      (i.owner ≠ "" → j.owner ≠ "" → i.owner = j.owner) ∧
      (i.runtime ≠ "" → j.runtime ≠ "" → i.runtime = j.runtime) ∧
      (i.parent ≠ "" → j.parent ≠ "" → i.parent = j.parent) ∧
      (i.attestation ≠ "" → j.attestation ≠ "" → i.attestation = j.attestation) ∧
      (i.onBehalfOf ≠ [] → j.onBehalfOf ≠ [] → i.onBehalfOf = j.onBehalfOf))
    ⟨fun ⟨h₁, h₂, h₃, h₄, h₅, h₆⟩ => ⟨h₁, h₂, h₃, h₄, h₅, h₆⟩,
      fun h => ⟨h.type, h.owner, h.runtime, h.parent, h.attestation, h.onBehalfOf⟩⟩

theorem Card.merge_comm {i j : Identity} (h : Agree i j) (c : Card) : (c.merge i).merge j = (c.merge j).merge i := by
  simp only [Card.merge, Card.mk.injEq]
  refine ⟨?_, ?_, ?_, ?_, ?_, ?_, ?_⟩
  · exact Replay.overwrite_comm (p := fun i : Identity => i.type ≠ identityHuman) (f := Identity.type) h.type _
  · cases i.privileged <;> cases j.privileged <;> rfl
  · exact Replay.overwrite_comm (p := fun i : Identity => i.owner ≠ "") (f := Identity.owner) h.owner _
  · exact Replay.overwrite_comm (p := fun i : Identity => i.runtime ≠ "") (f := Identity.runtime) h.runtime _
  · exact Replay.overwrite_comm (p := fun i : Identity => i.parent ≠ "") (f := Identity.parent) h.parent _
  · exact Replay.overwrite_comm (p := fun i : Identity => i.attestation ≠ "") (f := Identity.attestation)
      h.attestation _
  · exact Replay.overwrite_comm (p := fun i : Identity => i.onBehalfOf ≠ []) (f := Identity.onBehalfOf) h.onBehalfOf _

theorem card_foldl (is : List Identity) (i : Identity) :
    card (is.foldl mergeIdentity i) = is.foldl Card.merge (card i) := by
  induction is generalizing i with
  | nil => rfl
  | cons inn is ih => rw [List.foldl_cons, ih, card_mergeIdentity, List.foldl_cons]

/-! ## Grants -/

theorem exists_foldl_mergeIdentity {P : Permission → Prop}
    (hP : ∀ d p : Permission, d.name = p.name → (P (mergePermission d p) ↔ P d ∨ P p)) (is : List Identity)
    (i : Identity) : (∃ q ∈ (is.foldl mergeIdentity i).permissions, P q) ↔
      (∃ q ∈ i.permissions, P q) ∨ ∃ inn ∈ is, ∃ q ∈ inn.permissions, P q :=
  Loop.foldl_iff (P := fun i : Identity => ∃ q ∈ i.permissions, P q)
    (fun i inn => exists_mergePermissions hP i.permissions inn.permissions) is i

/-- What a BOM says of a grant. -/
inductive Fact where
  | named
  | admin
  | used

/-- The tool has the name, and the fact is so of it. -/
def Fact.Of (f : Fact) (n : GoString) (t : ToolRef) : Prop :=
  t.name = n ∧ match f with
    | named => True
    | admin => t.admin = true
    | used => t.used = true

theorem Fact.of_merge (f : Fact) (n : GoString) (d p : Permission) (h : d.name = p.name) :
    f.Of n (toolRef (mergePermission d p)) ↔ f.Of n (toolRef d) ∨ f.Of n (toolRef p) := by
  cases f with
  | named => simp [Fact.Of, toolRef, mergePermission, h]
  | admin => simp [Fact.Of, toolRef, mergePermission, h, and_or_left]
  | used => simp [Fact.Of, toolRef, mergePermission, h, and_or_left]

theorem mem_toolRefs {ps : List Permission} {t : ToolRef} : t ∈ toolRefs ps ↔ ∃ p ∈ ps, toolRef p = t := by
  rw [toolRefs, (List.perm_insertionSort _ _).mem_iff, List.mem_map]

theorem exists_toolRefs {ps : List Permission} (f : Fact) (n : GoString) :
    (∃ t ∈ toolRefs ps, f.Of n t) ↔ ∃ p ∈ ps, f.Of n (toolRef p) := by
  simp only [mem_toolRefs]
  exact ⟨fun ⟨_, ⟨p, hp, h⟩, hf⟩ => ⟨p, hp, h ▸ hf⟩, fun ⟨p, hp, hf⟩ => ⟨_, ⟨p, hp, rfl⟩, hf⟩⟩

theorem names_toolRefs (ps : List Permission) :
    ((toolRefs ps).map ToolRef.name).Perm (ps.map Permission.name) := by
  have hperm := (List.perm_insertionSort (fun a b : ToolRef => a.name ≤ b.name) (ps.map toolRef)).map ToolRef.name
  rw [List.map_map] at hperm
  exact hperm

theorem toolRefs_ext {ps qs : List Permission} (hps : (ps.map Permission.name).Nodup)
    (hqs : (qs.map Permission.name).Nodup)
    (h : ∀ (f : Fact) n, (∃ p ∈ ps, f.Of n (toolRef p)) ↔ ∃ q ∈ qs, f.Of n (toolRef q)) :
    toolRefs ps = toolRefs qs := by
  have hsub : ∀ {ps qs : List Permission}, (qs.map Permission.name).Nodup → (ps.map Permission.name).Nodup →
      (∀ (f : Fact) n, (∃ p ∈ ps, f.Of n (toolRef p)) ↔ ∃ q ∈ qs, f.Of n (toolRef q)) →
        ps.map toolRef ⊆ qs.map toolRef := by
    intro ps qs hqs hps h t ht
    obtain ⟨p, hp, rfl⟩ := List.mem_map.mp ht
    obtain ⟨q, hq, hname, -⟩ := (h .named p.name).mp ⟨p, hp, rfl, trivial⟩
    -- a fact of the one grant of the name is a fact of the other
    have hfact : ∀ f : Fact, f.Of p.name (toolRef p) ↔ f.Of p.name (toolRef q) := by
      intro f
      constructor
      · intro hf
        obtain ⟨q', hq', hf'⟩ := (h f p.name).mp ⟨p, hp, hf⟩
        obtain rfl := List.inj_on_of_nodup_map hqs hq hq' (hname.trans hf'.1.symm)
        exact hf'
      · intro hf
        obtain ⟨p', hp', hf'⟩ := (h f p.name).mpr ⟨q, hq, hf⟩
        obtain rfl := List.inj_on_of_nodup_map hps hp hp' hf'.1.symm
        exact hf'
    have hadmin : q.admin = p.admin := by
      have hiff := hfact .admin
      simp only [Fact.Of, toolRef, show q.name = p.name from hname, true_and] at hiff
      exact Bool.eq_iff_iff.mpr hiff.symm
    have hused : q.used = p.used := by
      have hiff := hfact .used
      simp only [Fact.Of, toolRef, show q.name = p.name from hname, true_and] at hiff
      exact Bool.eq_iff_iff.mpr hiff.symm
    refine List.mem_map.mpr ⟨q, hq, ?_⟩
    rw [toolRef, toolRef, show q.name = p.name from hname, hadmin, hused]
  have hnames : ∀ rs : List Permission, (rs.map toolRef).map ToolRef.name = rs.map Permission.name := fun rs =>
    List.map_map
  have hnodup : ∀ {rs : List Permission}, (rs.map Permission.name).Nodup → (rs.map toolRef).Nodup := fun {rs} hrs =>
    List.Nodup.of_map ToolRef.name (hnames rs ▸ hrs)
  have hperm : (ps.map toolRef).Perm (qs.map toolRef) := by
    rw [List.perm_ext_iff_of_nodup (hnodup hps) (hnodup hqs)]
    exact fun t => ⟨fun ht => hsub hqs hps h ht, fun ht => hsub hps hqs (fun f n => (h f n).symm) ht⟩
  exact StableSort.insertionSort_perm_key ToolRef.name hperm (hnames ps ▸ hps)

/-! ## What a BOM reads of a graph -/

/-- Two identities of which a BOM reads the same. -/
structure Alike (i j : Identity) : Prop where
  id : i.id = j.id
  card : card i = card j
  tools : toolRefs i.permissions = toolRefs j.permissions

theorem Alike.names {i j : Identity} (h : Alike i j) (n : GoString) :
    n ∈ i.permissions.map Permission.name ↔ n ∈ j.permissions.map Permission.name := by
  rw [← (names_toolRefs _).mem_iff, h.tools, (names_toolRefs _).mem_iff]

section Alike

variable {ids ids' : List Identity}

theorem Alike.symm {i j : Identity} (h : Alike i j) : Alike j i := ⟨h.id.symm, h.card.symm, h.tools.symm⟩

theorem get_alike (h : List.Forall₂ Alike ids ids') (id : GoString) :
    Option.Rel Alike ((Index.ofIdentities ids).get id) ((Index.ofIdentities ids').get id) :=
  Keyed.lookup_forall₂ id (fun _ _ hij => hij.id) (List.rel_reverse h)

theorem extends_alike (h : List.Forall₂ Alike ids ids') :
    Index.Extends (Index.ofIdentities ids') (Index.ofIdentities ids) := by
  intro id node hnode
  have hrel := get_alike h id
  rw [hnode] at hrel
  generalize (Index.ofIdentities ids').get id = node' at hrel ⊢
  cases hrel with
  | some halike => exact ⟨_, rfl, Or.inl (congrArg Card.onBehalfOf halike.card.symm)⟩

theorem walk_alike (h : List.Forall₂ Alike ids ids') (start : GoString) :
    walkDelegationChain (Index.ofIdentities ids) start = walkDelegationChain (Index.ofIdentities ids') start := by
  have hback : List.Forall₂ Alike ids' ids := List.Forall₂.flip (h.imp fun _ _ hij => hij.symm)
  have hle := (extends_alike h).walkDelegationChain start
  exact hle.eq_of_length (Nat.le_antisymm hle.length_le ((extends_alike hback).walkDelegationChain start).length_le)

theorem blast_alike (h : List.Forall₂ Alike ids ids') (start : GoString) :
    Strings.sort ((blastRadius (Index.ofIdentities ids) start).map Permission.name) =
      Strings.sort ((blastRadius (Index.ofIdentities ids') start).map Permission.name) := by
  have hperm : ((blastRadius (Index.ofIdentities ids) start).map Permission.name).Perm
      ((blastRadius (Index.ofIdentities ids') start).map Permission.name) := by
    rw [List.perm_ext_iff_of_nodup (nodup_blastRadius _ _) (nodup_blastRadius _ _)]
    intro n
    rw [mem_blastRadius, mem_blastRadius, walk_alike h]
    refine exists_congr fun id => and_congr_right fun _ => ?_
    have hrel := get_alike h id
    generalize (Index.ofIdentities ids).get id = node at hrel ⊢
    generalize (Index.ofIdentities ids').get id = node' at hrel ⊢
    cases hrel with
    | none => simp
    | some halike => simpa using halike.names n
  exact Strings.sort_perm hperm

/-- **A BOM depends on nothing else.** -/
theorem build_alike (now : Time) (h : List.Forall₂ Alike ids ids') : build now ids = build now ids' := by
  have hagents : (ids.filter Identity.isAgent).map (buildAgent (Index.ofIdentities ids)) =
      (ids'.filter Identity.isAgent).map (buildAgent (Index.ofIdentities ids')) := by
    have hfilter : List.Forall₂ Alike (ids.filter Identity.isAgent) (ids'.filter Identity.isAgent) := by
      refine List.rel_filter (fun i j hij => ?_) h
      have htype : i.type = j.type := congrArg Card.type hij.card
      exact iff_of_eq (congrArg (fun type => (type == identityAgent) = true) htype)
    rw [← List.forall₂_eq_eq_eq, List.forall₂_map_left_iff, List.forall₂_map_right_iff]
    refine hfilter.imp fun i j hij => ?_
    simp only [buildAgent, AgentBOM.mk.injEq]
    rw [walk_alike h, blast_alike h, hij.id, hij.tools]
    refine ⟨rfl, ?_, ?_, ?_, ?_, ?_, rfl, rfl, rfl⟩
    · exact congrArg Card.owner hij.card
    · exact congrArg Card.runtime hij.card
    · exact congrArg Card.parent hij.card
    · exact congrArg Card.attestation hij.card
    · exact congrArg Card.privileged hij.card
  rw [build, build, hagents]

end Alike

/-! ## The order of loading -/

theorem id_bare (s : Store) (id : GoString) : (s.bare id).id = id := by
  unfold Store.bare
  cases hfind : s.find id with
  | none => rfl
  | some i =>
    have hid : i.id = id := Keyed.lookup_key hfind
    exact hid

theorem nodup_names_identities (p : GoString → Bool) (xs : List Op) (id : GoString) :
    ((((Store.new p).run xs).bare id).permissions.map Permission.name).Nodup := by
  have hapart : ((Store.new p).run xs).GrantsApart := Store.grantsApart_run (fun _ _ h => by cases h) xs
  unfold Store.bare
  cases hfind : ((Store.new p).run xs).find id with
  | none => exact List.nodup_nil
  | some i => exact hapart id i hfind

theorem alike_run (p : GoString → Bool) {xs ys : List Op} (h : xs.Perm ys)
    (he : ∀ i ∈ Op.identities xs, i.events = [])
    (hagree : ∀ i ∈ Op.identities xs, ∀ j ∈ Op.identities xs, i.id = j.id → Agree i j) :
    List.Forall₂ Alike ((Store.new p).run xs).identities ((Store.new p).run ys).identities := by
  have hreports : (Op.identities xs).Perm (Op.identities ys) := h.filterMap _
  have hevents : (Op.events xs).Perm (Op.events ys) := h.filterMap _
  have hy : ∀ i ∈ Op.identities ys, i.events = [] := fun i hi => he i (hreports.mem_iff.mpr hi)
  refine Store.identities_forall₂ fun id => ?_
  have hsome : (((Store.new p).run xs).find id).isSome = (((Store.new p).run ys).find id).isSome := by
    rw [Bool.eq_iff_iff, Store.isSome_find_run_iff (Store.rooted_new p), Store.isSome_find_run_iff (Store.rooted_new p)]
    simp only [hevents.mem_iff, hreports.mem_iff]
  rw [Store.lookup_identities_eq, Store.lookup_identities_eq, hsome]
  cases (((Store.new p).run ys).find id).isSome with
  | false => exact Option.Rel.none
  | true =>
    have hperm : (Keyed.reports Identity.id id (Op.identities xs)).Perm
        (Keyed.reports Identity.id id (Op.identities ys)) := hreports.filter _
    refine Option.Rel.some ⟨?_, ?_, ?_⟩
    · exact (id_bare _ id).trans (id_bare _ id).symm
    · change card (((Store.new p).run xs).bare id) = card (((Store.new p).run ys).bare id)
      rw [Store.bare_run _ he, Store.bare_run _ hy, card_foldl, card_foldl]
      refine hperm.foldl_eq' (fun i hi j hj c => Card.merge_comm ?_ c) _
      obtain ⟨hi, hid⟩ := Keyed.mem_reports.mp hi
      obtain ⟨hj, hjd⟩ := Keyed.mem_reports.mp hj
      exact hagree i hi j hj (hid.trans hjd.symm)
    · refine toolRefs_ext (nodup_names_identities p xs id) (nodup_names_identities p ys id) fun f n => ?_
      dsimp only
      rw [Store.bare_run _ he, Store.bare_run _ hy, exists_foldl_mergeIdentity (f.of_merge n),
        exists_foldl_mergeIdentity (f.of_merge n)]
      simp only [hperm.mem_iff]

/-- **The order of loading does not matter to the BOM**: sources that do not contradict each other leave one BOM,
in whatever order their reports and events reach the graph. -/
theorem build_perm (now : Time) (p : GoString → Bool) {xs ys : List Op} (h : xs.Perm ys)
    (he : ∀ i ∈ Op.identities xs, i.events = [])
    (hagree : ∀ i ∈ Op.identities xs, ∀ j ∈ Op.identities xs, i.id = j.id → Agree i j) :
    build now ((Store.new p).run xs).identities = build now ((Store.new p).run ys).identities :=
  build_alike now (alike_run p h he hagree)

/-- A bot described by an inventory and by its Passport, which was used and acts for alice. -/
def described : List Op :=
  let bot := { Identity.zero "bot" with type := identityAgent }
  [.identity { bot with source := "agents",
                        permissions := [⟨"deploy", true, false, [], ""⟩, ⟨"build", false, false, [], ""⟩] },
    .identity { bot with source := "passport", owner := "platform", onBehalfOf := ["alice"] },
    .identity { Identity.zero "alice" with permissions := [⟨"billing", false, true, [], ""⟩] },
    .identity { bot with permissions := [⟨"build", false, true, [], ""⟩] }]

theorem build_perm_described :
    build .zero ((Store.new fun _ => false).run described).identities =
      build .zero ((Store.new fun _ => false).run described.reverse).identities :=
  build_perm .zero (fun _ => false) (List.reverse_perm described).symm (by decide) (by decide)

/-! ## What is in it -/

theorem bare_permissions {xs : List Op} (he : ∀ i ∈ Op.identities xs, i.events = []) (p : GoString → Bool)
    (id : GoString) (f : Fact) (n : GoString) :
    (∃ q ∈ (((Store.new p).run xs).bare id).permissions, f.Of n (toolRef q)) ↔
      ∃ i ∈ Op.identities xs, i.id = id ∧ ∃ q ∈ i.permissions, f.Of n (toolRef q) := by
  rw [Store.bare_run _ he, exists_foldl_mergeIdentity (f.of_merge n)]
  simp only [Keyed.mem_reports, and_assoc]
  refine or_iff_right ?_
  rintro ⟨q, hq, -⟩
  exact absurd hq List.not_mem_nil

theorem permissions_of_mem {s : Store} {i : Identity} (hi : i ∈ s.identities) :
    i.permissions = (s.bare i.id).permissions := by
  have hlookup := Keyed.lookup_of_mem s.nodup_identities hi
  rw [Store.lookup_identities_eq] at hlookup
  split_ifs at hlookup
  exact (congrArg Identity.permissions (Option.some.inj hlookup)).symm

theorem granted_iff {p : GoString → Bool} {xs : List Op} (he : ∀ i ∈ Op.identities xs, i.events = [])
    (link n : GoString) : (∃ node, (Index.ofIdentities ((Store.new p).run xs).identities).get link = some node ∧
        n ∈ node.permissions.map Permission.name) ↔
      ∃ i ∈ Op.identities xs, i.id = link ∧ ∃ q ∈ i.permissions, q.name = n := by
  have hbare := bare_permissions he p link .named n
  simp only [Fact.Of, toolRef, and_true] at hbare
  rw [← hbare]
  constructor
  · rintro ⟨node, hnode, hn⟩
    have hid : node.id = link := Keyed.lookup_key hnode
    have hmem := List.mem_reverse.mp (Keyed.mem_of_lookup hnode)
    rw [permissions_of_mem hmem, hid] at hn
    exact List.mem_map.mp hn
  · intro hn
    obtain ⟨i, hi, rfl, -⟩ := hbare.mp hn
    have hsome := Store.isSome_find_run_of_mem (Store.new p) hi
    have hlookup := Store.lookup_identities_eq ((Store.new p).run xs) i.id
    rw [if_pos hsome] at hlookup
    have hget := Index.get_ofIdentities (Store.nodup_identities _) (Keyed.mem_of_lookup hlookup)
    have hkey : _ = i.id := Keyed.lookup_key hlookup
    rw [hkey] at hget
    exact ⟨_, hget, List.mem_map.mpr hn⟩

theorem pairwise_lt {xs : List GoString} (h : xs.Pairwise (· ≤ ·)) (hn : xs.Nodup) : xs.Pairwise (· < ·) :=
  h.imp₂ (fun _ _ hle hne => Std.lt_of_le_of_ne hle hne) hn

theorem mem_agents {now : Time} {ids : List Identity} {a : AgentBOM} : a ∈ (build now ids).agents ↔
    ∃ i ∈ ids, i.isAgent = true ∧ buildAgent (Index.ofIdentities ids) i = a := by
  rw [build, (List.perm_insertionSort _ _).mem_iff, List.mem_map]
  simp only [List.mem_filter, and_assoc]

/-- **A BOM is what was reported**: one entry for each agent, in order; of each agent every tool some report grants,
once and in order, an administrator's or a used one if a report says so; and the blast radius is the names of all that
is reported along the delegation chain. -/
theorem build_exact (now : Time) (p : GoString → Bool) {xs : List Op} (he : ∀ i ∈ Op.identities xs, i.events = []) :
    let ids := ((Store.new p).run xs).identities
    ((build now ids).agents.map AgentBOM.id).Pairwise (· < ·) ∧
      (∀ id, id ∈ (build now ids).agents.map AgentBOM.id ↔ ∃ i ∈ ids, i.isAgent = true ∧ i.id = id) ∧
      ∀ a ∈ (build now ids).agents,
        (a.tools.map ToolRef.name).Pairwise (· < ·) ∧ a.blastRadius.Pairwise (· < ·) ∧
        (∀ (f : Fact) n, (∃ t ∈ a.tools, f.Of n t) ↔
          ∃ i ∈ Op.identities xs, i.id = a.id ∧ ∃ q ∈ i.permissions, f.Of n (toolRef q)) ∧
        ∀ n, n ∈ a.blastRadius ↔ ∃ link ∈ a.delegationChain,
          ∃ i ∈ Op.identities xs, i.id = link ∧ ∃ q ∈ i.permissions, q.name = n := by
  intro ids
  refine ⟨?_, fun id => ?_, fun a ha => ?_⟩
  · have hids : ((ids.filter Identity.isAgent).map (buildAgent (Index.ofIdentities ids))).map AgentBOM.id =
        (ids.filter Identity.isAgent).map Identity.id := by
      rw [List.map_map]
      rfl
    have hsub : (ids.filter Identity.isAgent).Sublist ids := List.filter_sublist
    have hn := (hsub.map Identity.id).nodup ((Store.new p).run xs).nodup_identities
    rw [← hids] at hn
    refine pairwise_lt ?_ (((List.perm_insertionSort _ _).map AgentBOM.id).nodup_iff.mpr hn)
    rw [List.pairwise_map]
    exact List.pairwise_insertionSort (fun a b : AgentBOM => a.id ≤ b.id) _
  · rw [List.mem_map]
    simp only [mem_agents]
    constructor
    · rintro ⟨a, ⟨i, hi, hagent, rfl⟩, rfl⟩
      exact ⟨i, hi, hagent, rfl⟩
    · rintro ⟨i, hi, hagent, rfl⟩
      exact ⟨_, ⟨i, hi, hagent, rfl⟩, rfl⟩
  · obtain ⟨i, hi, -, rfl⟩ := mem_agents.mp ha
    have hperms : i.permissions = (((Store.new p).run xs).bare i.id).permissions := permissions_of_mem hi
    have hnames : (i.permissions.map Permission.name).Nodup := hperms ▸ nodup_names_identities p xs i.id
    refine ⟨pairwise_lt ?_ ((names_toolRefs i.permissions).nodup_iff.mpr hnames), ?_, fun f n => ?_, fun n => ?_⟩
    · rw [List.pairwise_map]
      exact List.pairwise_insertionSort (fun a b : ToolRef => a.name ≤ b.name) _
    · exact pairwise_lt (Strings.pairwise_sort _) ((List.perm_insertionSort _ _).nodup_iff.mpr (nodup_blastRadius _ _))
    · refine (exists_toolRefs f n).trans ?_
      rw [hperms]
      exact bare_permissions he p i.id f n
    · refine ((List.perm_insertionSort _ _).mem_iff.trans (mem_blastRadius _ _ _)).trans ?_
      exact exists_congr fun link => and_congr_right fun _ => granted_iff he link n

/-- The bot may deploy as an administrator, and has used what only one of its reports says it has. -/
theorem build_exact_described : ∃ a ∈ (build .zero ((Store.new fun _ => false).run described).identities).agents,
    a.id = "bot" ∧ (∃ t ∈ a.tools, Fact.admin.Of "deploy" t) ∧ ∃ t ∈ a.tools, Fact.used.Of "build" t := by
  have he : ∀ i ∈ Op.identities described, i.events = [] := by decide
  obtain ⟨-, hagents, hexact⟩ := build_exact .zero (fun _ => false) he
  have hbot : ∃ i ∈ ((Store.new fun _ => false).run described).identities, i.isAgent = true ∧ i.id = "bot" := by decide
  obtain ⟨a, ha, hid⟩ := List.mem_map.mp ((hagents "bot").mpr hbot)
  obtain ⟨-, -, hfacts, -⟩ := hexact a ha
  refine ⟨a, ha, hid, (hfacts .admin "deploy").mpr ?_, (hfacts .used "build").mpr ?_⟩
  · rw [hid]
    exact ⟨_, List.mem_cons_self, rfl, _, List.mem_cons_self, rfl, rfl⟩
  · rw [hid]
    exact ⟨_, List.mem_cons_of_mem _ (List.mem_cons_of_mem _ (List.mem_cons_of_mem _ List.mem_cons_self)), rfl, _,
      List.mem_cons_self, rfl, rfl⟩

end Idryx.Bom
