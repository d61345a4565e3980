import Idryx.Aws.Usage
import Idryx.Graph.Shared

/-!
# Principals that share a policy

`internal/ingest/awspolicy.go`, `awsiam.go` and `internal/graph/store.go`, the action lists being slices
over a heap: those of a managed policy are one slice, shared by the grants of all who attach it.

* `policyEffectS`, `managedPolicyIndexS`, `principalToIdentityS`, `awsIAMS`; **`awsIAMS_spec`**: the
  identities of an export, as lists and as slices;
* `Act`, `RunState.run`; `GrantsKept`: no call touches the grants of others, and every reported action
  stays;
* **`grantsKept_of_clear`**: the runs that keep the grants;
* `shared_overwritten`: two roles of one policy, the second of which overwrites what the first allows.
-/

namespace Idryx.Aws

open Slices

/-! ## Reading an export -/

/-- The variables of `policyEffect`. -/
structure Effect where
  heap : Heap GoString
  actions : Slice
  seen : List GoString
  admin : Bool

/-- What one managed policy allows. -/
structure SManagedPolicyGrant where
  actions : Slice
  admin : Bool

section Read

variable (grow : Nat → Nat → Nat) (R : Reader)

/-- One turn of the loop over the actions of a statement. -/
def addActionS (U : Unicode) (everyResource : Bool) (acc : Effect) (a : GoString) : Effect :=
  let a := normalizeAction U a
  if a = [] then acc
  else
    let acc := { acc with admin := if a = "*" ∧ everyResource = true then true else acc.admin }
    if acc.seen.contains a then acc
    else
      let r := append grow acc.heap acc.actions a
      { acc with heap := r.1, actions := r.2, seen := acc.seen ++ [a] }

/-- One turn of the loop over the statements. -/
def addStatementS (U : Unicode) (acc : Effect) (st : Statement) : Effect :=
  if !st.allows then acc
  else
    let acc := st.action.foldl (addActionS grow U st.everyResource) acc
    { acc with admin := if st.notAction ≠ [] ∧ st.everyResource = true then true else acc.admin }

/-- `policyEffect`, which appends to the actions of the statements before. -/
def policyEffectS (U : Unicode) (h : Heap GoString) (doc : PolicyDoc) : Effect :=
  doc.statement.foldl (addStatementS grow U) ⟨h, nil, [], false⟩

/-- One turn of the loop over the managed policies. -/
def indexPolicyS (st : Heap GoString × List (GoString × SManagedPolicyGrant)) (p : ManagedPolicy) :
    Heap GoString × List (GoString × SManagedPolicyGrant) :=
  if p.arn = "" then st
  else
    match policyDocument R p with
    | none => st
    | some doc =>
      let e := policyEffectS grow R.unicode st.1 doc
      (e.heap, Keyed.upsert Prod.fst p.arn (p.arn, ⟨e.actions, e.admin⟩)
        (fun _ => (p.arn, ⟨e.actions, e.admin⟩)) st.2)

/-- `managedPolicyIndex`, whose grants are slices of their own. -/
def managedPolicyIndexS (h : Heap GoString) (policies : List ManagedPolicy) :
    Heap GoString × List (GoString × SManagedPolicyGrant) :=
  policies.foldl (indexPolicyS grow R) (h, [])

/-- The grant of an attached managed policy, with the slice of the index. -/
def attachedPermissionS (managed : List (GoString × SManagedPolicyGrant)) (m : AttachedPolicy) :
    SPermission :=
  let grant := ((Keyed.lookup Prod.fst m.policyArn managed).map Prod.snd).getD ⟨nil, false⟩
  { name := m.policyName
    admin := isAdminPolicy R m.policyName m.policyArn || grant.admin
    used := false
    actions := grant.actions
    arn := m.policyArn }

/-- The grant of an inline policy. -/
def inlinePermissionS (h : Heap GoString) (inl : InlinePolicy) : Heap GoString × SPermission :=
  let admin := isAdminPolicy R inl.policyName ""
  match R.decodePolicyDocument inl.policyDocument with
  | none => (h, ⟨inl.policyName, admin, false, nil, ""⟩)
  | some doc =>
    let e := policyEffectS grow R.unicode h doc
    (e.heap, ⟨inl.policyName, admin || e.admin, false, e.actions, ""⟩)

/-- `principalToIdentity`: an attached policy hands on the slice of the index. -/
def principalToIdentityS (managed : List (GoString × SManagedPolicyGrant)) (h : Heap GoString)
    (p : Principal × List InlinePolicy) : Heap GoString × SIdentity :=
  let r := mapHeap (inlinePermissionS grow R) h p.2
  (r.1, ⟨p.1.arn, p.1.attachedManaged.map (attachedPermissionS R managed) ++ r.2⟩)

/-- `AWSIAM`, of a decoded document. -/
def awsIAMS (h : Heap GoString) (d : AuthDetails) : Heap GoString × List SIdentity :=
  let r := managedPolicyIndexS grow R h d.policies
  mapHeap (principalToIdentityS grow R r.2) r.1 (principals d)

end Read

/-! ## The actions of a document -/

variable {grow : Nat → Nat → Nat} {R : Reader} {N K K' : List Slice} {h h' : Heap GoString}

/-- The loop over slices has made what the loop over lists has, in an array of its own. -/
structure Built (h : Heap GoString) (e : Effect) (acc : List GoString × Bool) : Prop where
  heap : h <+: e.heap
  wf : WF e.heap e.actions
  fresh : Fresh h e.actions
  read : Slices.read e.heap e.actions = acc.1
  seen : e.seen = acc.1
  admin : e.admin = acc.2

theorem Built.addAction {U : Unicode} {every : Bool} {e : Effect} {acc : List GoString × Bool}
    (hb : Built h e acc) (a : GoString) :
    Built h (addActionS grow U every e a) (addAction U every acc a) := by
  unfold addActionS Aws.addAction
  dsimp only
  rw [hb.seen, hb.admin]
  by_cases hnil : normalizeAction U a = []
  · rw [if_pos hnil, if_pos hnil]
    exact hb
  rw [if_neg hnil, if_neg hnil]
  generalize (if normalizeAction U a = "*" ∧ every = true then true else acc.2) = admin
  split_ifs with hseen
  · exact ⟨hb.heap, hb.wf, hb.fresh, hb.read, rfl, rfl⟩
  · have hgrown := @append_grown _ _ e.heap e.actions grow hb.wf (normalizeAction U a)
    refine ⟨append_longer hb.heap hb.fresh _, hgrown.wf, fresh_append hb.heap hb.fresh _, ?_, rfl, rfl⟩
    show Slices.read (append grow e.heap e.actions (normalizeAction U a)).1
      (append grow e.heap e.actions (normalizeAction U a)).2 = _
    rw [read_append hb.wf, hb.read]

theorem Built.addStatement {U : Unicode} {e : Effect} {acc : List GoString × Bool}
    (hb : Built h e acc) (st : Statement) :
    Built h (addStatementS grow U e st) (addStatement U acc st) := by
  unfold addStatementS Aws.addStatement
  by_cases hallow : (!st.allows) = true
  · rw [if_pos hallow, if_pos hallow]
    exact hb
  · have hloop : Built h (st.action.foldl (addActionS grow U st.everyResource) e)
        (st.action.foldl (Aws.addAction U st.everyResource) acc) :=
      List.foldl_rel hb fun a _ _ _ hb' => hb'.addAction a
    rw [if_neg hallow, if_neg hallow]
    refine ⟨hloop.heap, hloop.wf, hloop.fresh, hloop.read, hloop.seen, ?_⟩
    dsimp only
    rw [hloop.admin]

/-- **The actions of a document**, as a slice in an array of its own. -/
theorem policyEffectS_built (grow : Nat → Nat → Nat) (U : Unicode) (h : Heap GoString)
    (doc : PolicyDoc) : Built h (policyEffectS grow U h doc) (policyEffect U doc) := by
  have hstart : Built h ⟨h, nil, [], false⟩ ([], false) :=
    ⟨List.prefix_rfl, wf_nil h, fresh_nil h, rfl, rfl, rfl⟩
  exact List.foldl_rel hstart fun st _ _ _ hb => hb.addStatement st

theorem later_policyEffectS (hK : Known N h K) (U : Unicode) (doc : PolicyDoc) :
    Later N h K (policyEffectS grow U h doc).heap ((policyEffectS grow U h doc).actions :: K) :=
  have hb := policyEffectS_built grow U h doc
  hK.insert hb.heap hb.wf hb.fresh

/-! ## What the slices stand for -/

/-- A slice handed out, by its elements. -/
def ShowsActions (h : Heap GoString) (K : List Slice) (s : Slice) (as : List GoString) : Prop :=
  s ∈ K ∧ Slices.read h s = as

/-- An entry of the index. -/
def ShowsEntry (h : Heap GoString) (K : List Slice) (e : GoString × SManagedPolicyGrant)
    (v : GoString × ManagedPolicyGrant) : Prop :=
  e.1 = v.1 ∧ e.2.admin = v.2.admin ∧ ShowsActions h K e.2.actions v.2.actions

/-- What shows the grant or the identity by value, through slices among `K`. -/
def ShowsPermission (h : Heap GoString) (K : List Slice) (p : SPermission) (v : Permission) : Prop :=
  p.actions ∈ K ∧ p.read h = v

@[inherit_doc ShowsPermission]
def ShowsIdentity (h : Heap GoString) (K : List Slice) (i : SIdentity) (v : Identity) : Prop :=
  i.id = v.id ∧ List.Forall₂ (ShowsPermission h K) i.permissions v.permissions

theorem stable_showsActions : Stable N ShowsActions := fun _ _ _ _ hK hl _ _ hs =>
  ⟨hl.subset hs.1, (hl.read hK hs.1).trans hs.2⟩

theorem stable_showsEntry : Stable N ShowsEntry := fun _ _ _ _ hK hl _ _ hs =>
  ⟨hs.1, hs.2.1, stable_showsActions hK hl hs.2.2⟩

theorem stable_showsPermission : Stable N ShowsPermission := fun _ _ _ _ hK hl _ _ hs =>
  ⟨hl.subset hs.1, (SPermission.read_congr (hl.read hK hs.1)).trans hs.2⟩

theorem stable_showsIdentity : Stable N ShowsIdentity := fun _ _ _ _ hK hl _ _ hs =>
  ⟨hs.1, stable_showsPermission.forall₂ hK hl hs.2⟩

/-! ## The index and the principals -/

/-- **The index**, as lists and as slices. -/
theorem managedPolicyIndexS_spec (hK : Known N h K) (policies : List ManagedPolicy) :
    ∃ K', Later N h K (managedPolicyIndexS grow R h policies).1 K' ∧
      List.Forall₂ (ShowsEntry (managedPolicyIndexS grow R h policies).1 K')
        (managedPolicyIndexS grow R h policies).2 (managedPolicyIndex R policies) := by
  have hrun := @List.foldl_rel _ _ _ policies (indexPolicyS grow R) (indexPolicy R) (h, []) []
    (fun st out => ∃ K', Later N h K st.1 K' ∧ List.Forall₂ (ShowsEntry st.1 K') st.2 out)
    ⟨K, hK.later, List.Forall₂.nil⟩
  refine hrun fun p _ st out => ?_
  rintro ⟨K₁, hl, hout⟩
  unfold indexPolicyS indexPolicy
  split_ifs
  · exact ⟨K₁, hl, hout⟩
  cases policyDocument R p with
  | none => exact ⟨K₁, hl, hout⟩
  | some doc =>
    have hb := policyEffectS_built grow R.unicode st.1 doc
    have hl' := @later_policyEffectS grow _ _ _ hl.known R.unicode doc
    have hentry : ShowsEntry (policyEffectS grow R.unicode st.1 doc).heap
        ((policyEffectS grow R.unicode st.1 doc).actions :: K₁)
        (p.arn, ⟨(policyEffectS grow R.unicode st.1 doc).actions,
          (policyEffectS grow R.unicode st.1 doc).admin⟩) (p.arn, grantOf R doc) :=
      ⟨rfl, hb.admin, List.mem_cons_self, hb.read⟩
    refine ⟨_, hl.trans hl', ?_⟩
    exact Keyed.forall₂_upsert (fun _ _ he => he.1) hentry (fun _ _ _ => hentry)
      (stable_showsEntry.forall₂ hl.known hl' hout)

theorem attachedPermissionS_spec {managed : List (GoString × SManagedPolicyGrant)}
    {index : List (GoString × ManagedPolicyGrant)} (hm : List.Forall₂ (ShowsEntry h K) managed index)
    (hnil : nil ∈ K) (m : AttachedPolicy) :
    ShowsPermission h K (attachedPermissionS R managed m) (attachedPermission R index m) := by
  have hlook := Keyed.lookup_forall₂ m.policyArn (fun _ _ he => he.1) hm
  unfold ShowsPermission attachedPermissionS attachedPermission SPermission.read
  generalize Keyed.lookup Prod.fst m.policyArn managed = o at hlook ⊢
  generalize Keyed.lookup Prod.fst m.policyArn index = o' at hlook ⊢
  cases hlook with
  | none => exact ⟨hnil, rfl⟩
  | some he =>
    obtain ⟨-, hadmin, hin, hread⟩ := he
    simp only [Option.map_some, Option.getD_some, hadmin, hread]
    exact ⟨hin, trivial⟩

theorem inlinePermissionS_spec (hK : Known N h K) (inl : InlinePolicy) :
    ∃ K', Later N h K (inlinePermissionS grow R h inl).1 K' ∧
      ShowsPermission (inlinePermissionS grow R h inl).1 K' (inlinePermissionS grow R h inl).2
        (inlinePermission R inl) := by
  unfold inlinePermissionS inlinePermission ShowsPermission SPermission.read
  cases R.decodePolicyDocument inl.policyDocument with
  | none =>
    refine ⟨nil :: K, hK.insert List.prefix_rfl (wf_nil h) (fresh_nil h), List.mem_cons_self, ?_⟩
    simp [Slices.read, nil]
  | some doc =>
    have hb := policyEffectS_built grow R.unicode h doc
    refine ⟨_, later_policyEffectS hK R.unicode doc, List.mem_cons_self, ?_⟩
    dsimp only
    rw [hb.read, hb.admin]
    rfl

theorem principalToIdentityS_spec {managed : List (GoString × SManagedPolicyGrant)}
    {index : List (GoString × ManagedPolicyGrant)} (hK : Known N h K)
    (hm : List.Forall₂ (ShowsEntry h K) managed index) (p : Principal × List InlinePolicy) :
    ∃ K', Later N h K (principalToIdentityS grow R managed h p).1 K' ∧
      ShowsIdentity (principalToIdentityS grow R managed h p).1 K'
        (principalToIdentityS grow R managed h p).2 (principalToIdentity R p.1 p.2 index) := by
  have hnil : Later N h K h (nil :: K) := hK.insert List.prefix_rfl (wf_nil h) (fresh_nil h)
  obtain ⟨K', hl, hinl⟩ := mapHeap_spec stable_showsPermission hnil.known
    (fun h₁ K₁ hl => @inlinePermissionS_spec grow R _ _ _ hl.known) p.2
  have hatt : ∀ m, ShowsPermission (mapHeap (inlinePermissionS grow R) h p.2).1 K'
      (attachedPermissionS R managed m) (attachedPermission R index m) := fun m =>
    stable_showsPermission hnil.known hl
      (attachedPermissionS_spec (stable_showsEntry.forall₂ hK hnil hm) List.mem_cons_self m)
  refine ⟨K', hnil.trans hl, rfl, List.rel_append ?_ hinl⟩
  rw [List.forall₂_map_left_iff, List.forall₂_map_right_iff, List.forall₂_same]
  exact fun m _ => hatt m

/-- **The identities of an export**, as lists and as slices. -/
theorem awsIAMS_spec (hK : Known N h K) (d : AuthDetails) :
    ∃ K', Later N h K (awsIAMS grow R h d).1 K' ∧
      List.Forall₂ (ShowsIdentity (awsIAMS grow R h d).1 K') (awsIAMS grow R h d).2 (awsIAM R d) := by
  obtain ⟨K₁, hl₁, hm⟩ := @managedPolicyIndexS_spec grow R _ _ _ hK d.policies
  have hturn := mapHeap_spec stable_showsIdentity hl₁.known
    (fun h₂ K₂ hl => @principalToIdentityS_spec grow R _ _ _ _ _ hl.known
      (stable_showsEntry.forall₂ hl₁.known hl hm)) (principals d)
  obtain ⟨K', hl, hids⟩ := hturn
  rw [awsIAM_eq]
  exact ⟨K', hl₁.trans hl, hids⟩

/-! ## Runs -/

/-- An export is read, or one of the identities read so far is added to the graph. -/
inductive Act where
  | read (d : AuthDetails)
  | add (k : Nat)

/-- The graph, and the identities read so far. -/
structure RunState where
  store : SStore
  pool : List SIdentity

namespace RunState

/-- Nothing is read and nothing added. -/
def start : RunState := ⟨⟨[], [], List.nodup_nil⟩, []⟩

/-- One act. -/
def step (grow : Nat → Nat → Nat) (R : Reader) (st : RunState) : Act → RunState
  | .read d =>
    let r := awsIAMS grow R st.store.heap d
    ⟨{ st.store with heap := r.1 }, st.pool ++ r.2⟩
  | .add k =>
    match st.pool[k]? with
    | none => st
    | some inn => { st with store := st.store.addIdentity grow inn }

/-- A sequence of acts. -/
def run (grow : Nat → Nat → Nat) (R : Reader) (st : RunState) (xs : List Act) : RunState :=
  xs.foldl (step grow R) st

/-- What the call appends in place is out of the sight of every other grant. -/
def ClearStep (grow : Nat → Nat → Nat) (st : RunState) : Act → Prop
  | .read _ => True
  | .add k => ∀ inn ∈ st.pool[k]?, st.store.ClearAdd grow inn

instance (grow : Nat → Nat → Nat) (st : RunState) : ∀ x, Decidable (st.ClearStep grow x)
  | .read _ => isTrue trivial
  | .add k => inferInstanceAs (Decidable (∀ inn ∈ st.pool[k]?, st.store.ClearAdd grow inn))

/-- Every call is clear, in the state it finds. -/
def ClearRun (grow : Nat → Nat → Nat) (R : Reader) : RunState → List Act → Prop
  | _, [] => True
  | st, x :: xs => st.ClearStep grow x ∧ ClearRun grow R (st.step grow R x) xs

instance decidableClearRun (grow : Nat → Nat → Nat) (R : Reader) :
    ∀ (st : RunState) (xs : List Act), Decidable (st.ClearRun grow R xs)
  | _, [] => isTrue trivial
  | st, x :: xs =>
    have := decidableClearRun grow R (st.step grow R x) xs
    inferInstanceAs (Decidable (_ ∧ _))

end RunState

/-- An export, and one of its principals. -/
abbrev Report : Type := AuthDetails × (Principal × List InlinePolicy)

/-- The identity that is read for a principal, by value. -/
def Report.identity (R : Reader) (r : Report) : Identity :=
  principalToIdentity R r.2.1 r.2.2 (managedPolicyIndex R r.1.policies)

/-- The principals read so far, and those whose identities were added. -/
structure Reports where
  pool : List Report
  added : List Report

namespace Reports

/-- What is read and added by one act and by a sequence of acts. -/
def step (rs : Reports) : Act → Reports
  | .read d => { rs with pool := rs.pool ++ (principals d).map fun p => (d, p) }
  | .add k => { rs with added := rs.added ++ (rs.pool[k]?).toList }

@[inherit_doc step]
def run (rs : Reports) (xs : List Act) : Reports := xs.foldl step rs

/-- The graph of lists that the same calls make. -/
def store (R : Reader) (rs : Reports) : Store :=
  (Store.new fun _ => false).run (rs.added.map fun r => .identity (r.identity R))

end Reports

/-- No call for one identity touches the grants of another, and in the end the grant of each policy of
an added principal is there, with every action its document allows. -/
structure GrantsKept (grow : Nat → Nat → Nat) (R : Reader) (xs : List Act) : Prop where
  others : ∀ pre k post, xs = pre ++ .add k :: post →
    ∀ inn ∈ (RunState.start.run grow R pre).pool[k]?, ∀ id, id ≠ inn.id →
      ((RunState.start.run grow R pre).step grow R (.add k)).store.grants id =
        (RunState.start.run grow R pre).store.grants id
  reported : ∀ r ∈ (Reports.run ⟨[], []⟩ xs).added, ∀ q ∈ heldPolicies R r.1 r.2,
    (∃ g ∈ (RunState.start.run grow R xs).store.grants r.2.1.arn, g.name = q.1) ∧
      ∀ g ∈ (RunState.start.run grow R xs).store.grants r.2.1.arn, g.name = q.1 →
        ∀ a ∈ allowedActions R q.2, a ∈ g.actions

/-! ## Clear runs -/

/-- The run over slices has made what the run over lists has. -/
structure Sound (R : Reader) (st : RunState) (rs : Reports) (K : List Slice) : Prop where
  known : Known st.store.slices st.store.heap K
  pool : List.Forall₂ (ShowsIdentity st.store.heap K) st.pool (rs.pool.map (Report.identity R))
  grants : ∀ id, st.store.grants id = (rs.store R).grantsOf id

theorem sound_start (R : Reader) : Sound R RunState.start ⟨[], []⟩ [] := by
  refine ⟨⟨⟨?_, ?_⟩, ⟨?_, ?_⟩⟩, List.Forall₂.nil, fun _ => rfl⟩ <;>
    exact fun s hs => absurd hs List.not_mem_nil

theorem ShowsIdentity.slices_subset {i : SIdentity} {v : Identity} (hs : ShowsIdentity h K i v) :
    i.slices ⊆ K := by
  obtain ⟨hin, -⟩ := (List.forall₂_and_left _ _).mp hs.2
  exact List.forall_mem_map.mpr hin

theorem ShowsIdentity.map_read {i : SIdentity} {v : Identity} (hs : ShowsIdentity h K i v) :
    i.permissions.map (SPermission.read h) = v.permissions := by
  have hrel : List.Forall₂ (fun p q => SPermission.read h p = q) i.permissions v.permissions :=
    hs.2.imp fun _ _ hpq => hpq.2
  rw [← List.forall₂_map_left_iff (R := Eq)] at hrel
  exact List.forall₂_eq_eq_eq ▸ hrel

theorem ShowsIdentity.of_read {i : SIdentity} {v : Identity} (hs : ShowsIdentity h K i v)
    (hr : ∀ t ∈ K, Slices.read h' t = Slices.read h t) : ShowsIdentity h' K i v :=
  ⟨hs.1, hs.2.imp fun _ _ hpq => ⟨hpq.1, (SPermission.read_congr (hr _ hpq.1)).trans hpq.2⟩⟩

variable {st : RunState} {rs : Reports}

theorem Sound.read (hs : Sound R st rs K) (d : AuthDetails) :
    ∃ K', Sound R (st.step grow R (.read d)) (rs.step (.read d)) K' := by
  obtain ⟨K', hl, hids⟩ := @awsIAMS_spec grow R _ _ _ hs.known d
  refine ⟨K', hl.known, ?_, fun id => ?_⟩
  · have hpool : (rs.step (.read d)).pool.map (Report.identity R) =
        rs.pool.map (Report.identity R) ++ awsIAM R d := by
      rw [awsIAM_eq]
      unfold Reports.step
      rw [List.map_append, List.map_map]
      rfl
    rw [hpool]
    exact List.rel_append (stable_showsIdentity.forall₂ hs.known hl hs.pool) hids
  · refine Eq.trans ?_ (hs.grants id)
    refine map_read_congr fun p hp => ?_
    exact ((hs.known.others.wf _ (SStore.slices_of_permissions hp).1).of_longer hl.heap).2

theorem getElem?_forall₂ {α β : Type*} {P : α → β → Prop} {xs : List α} {ys : List β}
    (hxy : List.Forall₂ P xs ys) (k : Nat) : Option.Rel P xs[k]? ys[k]? := by
  induction hxy generalizing k with
  | nil => exact Option.Rel.none
  | cons hab _ ih =>
    cases k with
    | zero => exact Option.Rel.some hab
    | succ k => exact ih k

theorem Sound.add {k : Nat} (hs : Sound R st rs K) (hclear : st.ClearStep grow (.add k)) :
    Sound R (st.step grow R (.add k)) (rs.step (.add k)) K ∧
      ∀ inn ∈ st.pool[k]?, ∀ id, id ≠ inn.id →
        (st.step grow R (.add k)).store.grants id = st.store.grants id := by
  have hpool := hs.pool
  rw [List.forall₂_map_right_iff] at hpool
  have hk := getElem?_forall₂ hpool k
  change ∀ inn ∈ st.pool[k]?, st.store.ClearAdd grow inn at hclear
  unfold RunState.step Reports.step
  dsimp only
  generalize st.pool[k]? = o at hk hclear ⊢
  generalize rs.pool[k]? = o' at hk ⊢
  cases hk with
  | none =>
    rw [Option.toList_none, List.append_nil]
    exact ⟨hs, fun inn hinn => nomatch hinn⟩
  | @some inn r hinn =>
    obtain ⟨hknown, hread, hgrants⟩ :=
      SStore.addIdentity_spec hs.known hinn.slices_subset (hclear inn rfl)
    refine ⟨⟨hknown, hs.pool.imp fun i v hv => hv.of_read hread, fun id => ?_⟩, ?_⟩
    · have hstore : Reports.store R { rs with added := rs.added ++ (some r).toList } =
          (rs.store R).addIdentity (r.identity R) := by
        unfold Reports.store Store.run
        rw [Option.toList_some, List.map_append, List.foldl_append]
        rfl
      rw [hstore, Store.grantsOf_addIdentity, ← hs.grants, ← hs.grants, hgrants, hinn.1, hinn.map_read]
    · intro inn' hinn' id hid
      obtain rfl := Option.some.inj hinn'
      exact (hgrants id).trans (if_neg hid)

/-- **A clear run** makes what the calls make over lists, at every point of it. -/
theorem sound_run {xs : List Act} (hs : Sound R st rs K) (hclear : st.ClearRun grow R xs) :
    ∀ pre post, xs = pre ++ post → ∃ K', Sound R (st.run grow R pre) (rs.run pre) K' ∧
      (st.run grow R pre).ClearRun grow R post := by
  intro pre post hxs
  subst hxs
  induction pre generalizing st rs K with
  | nil => exact ⟨K, hs, hclear⟩
  | cons x pre ih =>
    obtain ⟨hx, hrest⟩ := hclear
    cases x with
    | read d =>
      obtain ⟨K', hs'⟩ := @Sound.read grow R K st rs hs d
      exact ih hs' hrest
    | add k => exact ih (hs.add hx).1 hrest

theorem grants_store {rs : Reports} {r : Report} (hr : r ∈ rs.added) {q : GoString × Option PolicyDoc}
    (hq : q ∈ heldPolicies R r.1 r.2) :
    (∃ g ∈ (rs.store R).grantsOf r.2.1.arn, g.name = q.1) ∧
      ∀ g ∈ (rs.store R).grantsOf r.2.1.arn, g.name = q.1 → ∀ a ∈ allowedActions R q.2,
        a ∈ g.actions := by
  have hmem : (q.1, false, allowedActions R q.2) ∈ (r.identity R).permissions.map
      fun g => (g.name, g.used, g.actions) := by
    unfold Report.identity
    rw [map_permissions]
    exact List.mem_map_of_mem hq
  obtain ⟨p, hp, hpq⟩ := List.mem_map.mp hmem
  simp only [Prod.mk.injEq] at hpq
  obtain ⟨hname, -, hactions⟩ := hpq
  have hadded : r.identity R ∈ Op.identities (rs.added.map fun r => .identity (r.identity R)) :=
    List.mem_filterMap.mpr ⟨_, List.mem_map_of_mem hr, rfl⟩
  have hnamed : (rs.store R).Grants r.2.1.arn fun g => g.name = q.1 :=
    Store.grants_run (fun d p hdp => by simp [hdp]) (Or.inr ⟨_, hadded, rfl, p, hp, hname⟩)
  refine ⟨Store.grants_iff.mp hnamed, fun g hg hgq a ha => ?_⟩
  have hallowed : (rs.store R).Grants r.2.1.arn fun g => g.name = q.1 ∧ a ∈ g.actions := by
    refine Store.grants_run (fun d p hdp => ?_) (Or.inr ⟨_, hadded, rfl, p, hp, hname, hactions ▸ ha⟩)
    have hunion : (mergePermission d p).actions = unionActions d.actions p.actions := rfl
    rw [hunion, mem_unionActions, mergePermission_name, ← hdp, and_or_left]
  obtain ⟨g', hg', hg'q, hin⟩ := Store.grants_iff.mp hallowed
  have hapart := (Store.grantsApart_run (s := Store.new fun _ => false) (fun _ _ h => nomatch h)
    (rs.added.map fun r => .identity (r.identity R))).grantsOf r.2.1.arn
  obtain rfl : g' = g := List.inj_on_of_nodup_map hapart hg' hg (hg'q.trans hgq.symm)
  exact hin

/-- **The runs that keep the grants.** If every merge that appends in place does so out of the sight of
the other grants, no call touches the grants of others, and every action reported stays. -/
theorem grantsKept_of_clear {xs : List Act} (hclear : RunState.start.ClearRun grow R xs) :
    GrantsKept grow R xs where
  others pre k post hxs inn hinn id hid := by
    obtain ⟨K, hs, hclear'⟩ := sound_run (sound_start R) hclear pre _ hxs
    exact (hs.add hclear'.1).2 inn hinn id hid
  reported r hr q hq := by
    obtain ⟨K, hs, -⟩ := sound_run (sound_start R) hclear xs [] (List.append_nil xs).symm
    rw [hs.grants]
    exact grants_store hr hq

/-- The text of a policy that allows three actions. -/
def deployText : GoString :=
  "\x7b\"Statement\":[\x7b\"Effect\":\"Allow\",\"Action\":[\"ecs:UpdateService\",\"ecr:GetImage\",\"s3:GetObject\"],\"Resource\":\"*\"\x7d]\x7d"

/-- The texts of two policies that allow one more each. -/
def passRoleText : GoString :=
  "\x7b\"Statement\":[\x7b\"Effect\":\"Allow\",\"Action\":\"iam:PassRole\",\"Resource\":\"*\"\x7d]\x7d"

@[inherit_doc passRoleText]
def putLogsText : GoString :=
  "\x7b\"Statement\":[\x7b\"Effect\":\"Allow\",\"Action\":\"logs:PutLogEvents\",\"Resource\":\"*\"\x7d]\x7d"

/-- A reader of these, and of no dates. -/
def deployReader : Reader where
  unicode := Unicode.basic
  decodePolicyDocument raw :=
    if raw = deployText then
      some ⟨[⟨"Allow", ["ecs:UpdateService", "ecr:GetImage", "s3:GetObject"], [], ["*"]⟩]⟩
    else if raw = passRoleText then some ⟨[⟨"Allow", ["iam:PassRole"], [], ["*"]⟩]⟩
    else if raw = putLogsText then some ⟨[⟨"Allow", ["logs:PutLogEvents"], [], ["*"]⟩]⟩
    else none
  parseTime _ := none

/-- A role that holds the managed policy "deploy", and an inline policy of that name. -/
def deployRole (arn text : GoString) : Principal where
  arn := arn
  createDate := ""
  tags := []
  attachedManaged := [⟨"deploy", "arn:aws:iam::1:policy/deploy"⟩]
  userPolicyList := []
  rolePolicyList := [⟨"deploy", text⟩]
  lastUsedDate := ""

/-- Two roles with one managed policy, each with an inline policy of the same name. -/
def deployExport : AuthDetails where
  userDetailList := []
  roleDetailList := [deployRole "arn:aws:iam::1:role/ci" passRoleText,
    deployRole "arn:aws:iam::1:role/web" putLogsText]
  policies := [⟨"deploy", "arn:aws:iam::1:policy/deploy", "v1", [⟨deployText, "v1", true⟩]⟩]

/-- The three actions, and a fourth. -/
def deployActions (fourth : GoString) : List GoString :=
  ["ecs:updateservice", "ecr:getimage", "s3:getobject", fourth]

/-- The export is read twice, and each role is added as it was read in one of them. -/
theorem grantsKept_of_clear_apart : GrantsKept doubling deployReader
    [.read deployExport, .add 0, .read deployExport, .add 3] :=
  grantsKept_of_clear (by decide +kernel)

/-- **The second role overwrites what the first allows.** The fourth action of both is written into the
spare room of the array of the managed policy. -/
theorem shared_overwritten :
    (¬ ∀ (grow : Nat → Nat → Nat) (R : Reader) (xs : List Act), GrantsKept grow R xs) ∧
      ((RunState.start.run doubling deployReader [.read deployExport, .add 0]).store.grants
          "arn:aws:iam::1:role/ci").map Permission.actions =
        [deployActions "iam:passrole"] ∧
      ((RunState.start.run doubling deployReader [.read deployExport, .add 0, .add 1]).store.grants
          "arn:aws:iam::1:role/ci").map Permission.actions =
        [deployActions "logs:putlogevents"] := by
  have hbefore : ((RunState.start.run doubling deployReader [.read deployExport, .add 0]).store.grants
      "arn:aws:iam::1:role/ci").map Permission.actions =
        [deployActions "iam:passrole"] := by decide +kernel
  have hafter : ((RunState.start.run doubling deployReader
      [.read deployExport, .add 0, .add 1]).store.grants
        "arn:aws:iam::1:role/ci").map Permission.actions =
          [deployActions "logs:putlogevents"] := by
    decide +kernel
  refine ⟨fun hkept => ?_, hbefore, hafter⟩
  have hpool : ((RunState.start.run doubling deployReader [.read deployExport, .add 0]).pool[1]?).map
      SIdentity.id = some "arn:aws:iam::1:role/web" := by decide +kernel
  obtain ⟨inn, hinn, hid⟩ := Option.map_eq_some_iff.mp hpool
  have hne : ("arn:aws:iam::1:role/ci" : GoString) ≠ inn.id := by
    rw [hid]
    decide
  have hsame := (hkept doubling deployReader [.read deployExport, .add 0, .add 1]).others
    [.read deployExport, .add 0] 1 [] rfl inn hinn _ hne
  have hactions := congrArg (List.map Permission.actions) hsame
  rw [hbefore] at hactions
  exact absurd (hafter.symm.trans hactions) (by decide +kernel)

end Idryx.Aws
