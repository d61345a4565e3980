import Idryx.Model
import Idryx.Lib.Keyed
import Idryx.Lib.KeepFirst
import Idryx.Lib.StableSort

/-!
# The in-memory store

`internal/graph/store.go`. The map of identities is a list without repeated ids, so every value of
`Store` is one Go can hold; `seenEvents` is the set of event keys, compared by Go's `==`.

* `mergePermissions`, `mergePermission`, `unionActions`: the merge of two reports of one grant;
  **`mergePermissions_eq`**: the index map of the loop makes it a fold of upserts by name;
  `exists_mergePermissions`, `nodup_mergePermissions`;
* `ensure`, `addEvent`, `addIdentity`, `markPrivileged`, `identities`;
* `find_update`, `find_addEvents`, `find_addIdentities`: what a run leaves at one id.
-/

namespace Idryx

/-! ## Merging two reports of a grant -/

/-- The union of two action lists, in first-seen order; an empty list never clears the other. -/
def unionActions (dst inn : List GoString) : List GoString :=
  if inn.isEmpty then dst
  else if dst.isEmpty then inn
  else inn.foldl (fun dst a => if dst.contains a then dst else dst ++ [a]) dst

/-- Fold one report of a grant into another, field by field. -/
def mergePermission (dst inn : Permission) : Permission :=
  { dst with
    admin := dst.admin || inn.admin
    used := dst.used || inn.used
    arn := if inn.arn ≠ "" then inn.arn else dst.arn
    actions := unionActions dst.actions inn.actions }

/-- Union `inn` into `existing` by name. `at` maps a name to the index of its entry. -/
def mergePermissions (existing inn : List Permission) : List Permission :=
  if inn.isEmpty then existing
  else
    let at₀ : GoString → Option Nat := fun n => existing.findIdx? fun p => p.name = n
    (inn.foldl (fun (st : List Permission × (GoString → Option Nat)) p =>
      match st.2 p.name with
      | none => (st.1 ++ [p], Function.update st.2 p.name (some st.1.length))
      | some i => (st.1.modify i (mergePermission · p), st.2)) (existing, at₀)).1

@[simp] theorem mergePermission_name (dst inn : Permission) :
    (mergePermission dst inn).name = dst.name := rfl

/-- A grant about which nothing is known but its name. -/
def blankPermission (name : GoString) : Permission := ⟨name, false, false, [], ""⟩

theorem unionActions_nil_left (acts : List GoString) : unionActions [] acts = acts := by
  cases acts <;> rfl

theorem mergePermission_blank (p : Permission) : mergePermission (blankPermission p.name) p = p := by
  obtain ⟨name, admin, used, actions, arn⟩ := p
  simp only [mergePermission, blankPermission, Bool.false_or, unionActions_nil_left]
  split_ifs with h
  · rfl
  · rw [not_not] at h
    rw [h]

section Index

variable {α κ : Type*} [DecidableEq κ] {key : α → κ}

theorem upsert_of_findIdx {k : κ} {i : Nat} {ins : α} {upd : α → α} :
    ∀ {xs : List α}, (xs.findIdx? fun a => key a = k) = some i →
      Keyed.upsert key k ins upd xs = xs.modify i upd
  | [], h => by cases h
  | a :: xs, h => by
    rw [List.findIdx?_cons] at h
    by_cases ha : key a = k
    · rw [if_pos (by simpa using ha), Option.some.injEq] at h
      rw [← h, Keyed.upsert, if_pos ha]
      rfl
    · rw [if_neg (by simpa using ha), Option.map_eq_some_iff] at h
      obtain ⟨j, hj, rfl⟩ := h
      rw [Keyed.upsert, if_neg ha, upsert_of_findIdx hj]
      rfl

theorem upsert_of_findIdx_none {k : κ} {ins : α} {upd : α → α} :
    ∀ {xs : List α}, (xs.findIdx? fun a => key a = k) = none →
      Keyed.upsert key k ins upd xs = xs ++ [ins]
  | [], _ => rfl
  | a :: xs, h => by
    rw [List.findIdx?_cons] at h
    by_cases ha : key a = k
    · rw [if_pos (by simpa using ha)] at h
      cases h
    · rw [if_neg (by simpa using ha), Option.map_eq_none_iff] at h
      rw [Keyed.upsert, if_neg ha, upsert_of_findIdx_none h]
      rfl

theorem findIdx_key (key : α → κ) (k : κ) (xs : List α) :
    (xs.findIdx? fun a => key a = k) = (xs.map key).findIdx? fun n => n = k := by
  rw [List.findIdx?_map]
  rfl

end Index

/-- One report, upserted under its name. -/
def mergeOne (ps : List Permission) (p : Permission) : List Permission :=
  Keyed.upsert Permission.name p.name p (mergePermission · p) ps

theorem mergePermissions_loop (inn : List Permission) : ∀ (ps : List Permission)
    (at' : GoString → Option Nat), (∀ n, at' n = ps.findIdx? fun p => p.name = n) →
      (inn.foldl (fun (st : List Permission × (GoString → Option Nat)) p =>
        match st.2 p.name with
        | none => (st.1 ++ [p], Function.update st.2 p.name (some st.1.length))
        | some i => (st.1.modify i (mergePermission · p), st.2)) (ps, at')).1 =
      inn.foldl mergeOne ps := by
  induction inn with
  | nil => intro ps at' _; rfl
  | cons p inn ih =>
    intro ps at' hat
    rw [List.foldl_cons, List.foldl_cons]
    simp only [hat p.name]
    cases hp : ps.findIdx? fun q => q.name = p.name with
    | none =>
      rw [mergeOne, upsert_of_findIdx_none hp]
      refine ih _ _ fun n => ?_
      rw [List.findIdx?_append, ← hat]
      by_cases hn : n = p.name
      · subst hn
        rw [Function.update_self, hat, hp]
        simp
      · rw [Function.update_of_ne hn]
        simp [List.findIdx?_cons, Ne.symm hn]
    | some i =>
      have hm : mergeOne ps p = ps.modify i (mergePermission · p) := upsert_of_findIdx hp
      rw [hm]
      refine ih _ _ fun n => ?_
      have hmem : p.name ∈ ps.map Permission.name := by
        have := List.findIdx?_eq_some_iff_getElem.mp hp
        obtain ⟨hi, hname, _⟩ := this
        exact List.mem_map.mpr ⟨ps[i], List.getElem_mem hi, by simpa using hname⟩
      have hu : ∀ q, q.name = p.name → (mergePermission q p).name = p.name := fun _ h => h
      have hkeys : (mergeOne ps p).map Permission.name = ps.map Permission.name := by
        rw [mergeOne, Keyed.keys_upsert rfl hu, if_pos hmem]
      rw [hat, ← hm, findIdx_key Permission.name n ps, ← hkeys]
      exact (findIdx_key Permission.name n (mergeOne ps p)).symm

/-- **`mergePermissions` is a fold of upserts by name.** -/
theorem mergePermissions_eq (existing inn : List Permission) :
    mergePermissions existing inn = inn.foldl mergeOne existing := by
  unfold mergePermissions
  cases inn with
  | nil => rfl
  | cons p inn => exact mergePermissions_loop (p :: inn) existing _ fun _ => rfl

theorem exists_mergePermissions {P : Permission → Prop}
    (hP : ∀ d p : Permission, d.name = p.name → (P (mergePermission d p) ↔ P d ∨ P p))
    (existing inn : List Permission) : (∃ p ∈ mergePermissions existing inn, P p) ↔
      (∃ p ∈ existing, P p) ∨ ∃ p ∈ inn, P p := by
  have hone : ∀ (ps : List Permission) (p : Permission),
      (∃ q ∈ mergeOne ps p, P q) ↔ (∃ q ∈ ps, P q) ∨ P p := by
    intro ps p
    induction ps with
    | nil => simp [mergeOne, Keyed.upsert]
    | cons q ps ih =>
      unfold mergeOne at ih ⊢
      rw [Keyed.upsert]
      split_ifs with hq
      · simp only [List.mem_cons, exists_eq_or_imp, hP q p hq]
        grind
      · simp only [List.mem_cons, exists_eq_or_imp, ih, or_assoc]
  rw [mergePermissions_eq]
  exact Loop.foldl_iff (P := fun ps : List Permission => ∃ p ∈ ps, P p) hone inn existing

theorem nodup_mergePermissions {existing : List Permission}
    (hn : (existing.map Permission.name).Nodup) (inn : List Permission) :
    ((mergePermissions existing inn).map Permission.name).Nodup := by
  rw [mergePermissions_eq]
  refine List.foldlRecOn (motive := fun ps : List Permission => (ps.map Permission.name).Nodup) inn
    _ hn fun ps h p _ => ?_
  have hname : ∀ q, q.name = p.name → (mergePermission q p).name = p.name := fun _ h => h
  exact Keyed.nodup_upsert rfl hname h

/-! ## The store -/

/-- The graph: the privileged set, the identities by id, and the events seen. -/
structure Store where
  privileged : GoString → Bool
  nodes : List Identity
  seenEvents : List Event
  nodup : (nodes.map Identity.id).Nodup

/-- Merge a fully described identity into a node. -/
def mergeIdentity (id inn : Identity) : Identity :=
  { id with
    type := if inn.type ≠ identityHuman then inn.type else id.type
    source := if inn.source ≠ "" then inn.source else id.source
    owner := if inn.owner ≠ "" then inn.owner else id.owner
    created := if !inn.created.isZero then inn.created else id.created
    lastUsed := Time.latest id.lastUsed inn.lastUsed
    privileged := if inn.privileged then true else id.privileged
    runtime := if inn.runtime ≠ "" then inn.runtime else id.runtime
    onBehalfOf := if inn.onBehalfOf ≠ [] then inn.onBehalfOf else id.onBehalfOf
    parent := if inn.parent ≠ "" then inn.parent else id.parent
    attestation := if inn.attestation ≠ "" then inn.attestation else id.attestation
    declaredModels := if inn.declaredModels ≠ [] then inn.declaredModels else id.declaredModels
    shadow := if inn.shadow then true else id.shadow
    permissions := mergePermissions id.permissions inn.permissions
    events := id.events ++ inn.events }

@[simp] theorem mergeIdentity_id (i inn : Identity) : (mergeIdentity i inn).id = i.id := rfl

/-- The order of `sort.SliceStable` on events: not later. -/
def Event.notAfter (a b : Event) : Prop := a.time.instant ≤ b.time.instant

instance : DecidableRel Event.notAfter := fun _ _ => inferInstanceAs (Decidable (_ ≤ _))
instance : IsTrans Event Event.notAfter := ⟨fun _ _ _ => le_trans⟩
instance : Std.Total Event.notAfter := ⟨fun _ _ => le_total _ _⟩

/-- The identity with its events in chronological order, equal times in stored order. -/
def Identity.chronological (i : Identity) : Identity :=
  { i with events := i.events.insertionSort Event.notAfter }

@[simp] theorem Identity.chronological_id (i : Identity) : i.chronological.id = i.id := rfl

namespace Store

/-- The node of an id, if there is one. -/
def find (s : Store) (id : GoString) : Option Identity := Keyed.lookup Identity.id id s.nodes

/-- The node `ensure` creates for an absent id. -/
def fresh (s : Store) (id : GoString) : Identity :=
  { Identity.zero id with privileged := s.privileged id }

@[simp] theorem fresh_id (s : Store) (id : GoString) : (s.fresh id).id = id := rfl

/-- `New`. -/
def new (privileged : GoString → Bool) : Store := ⟨privileged, [], [], List.nodup_nil⟩

/-- `ensure`, and a write `f` through the pointer it returns. -/
def update (s : Store) (id : GoString) (f : Identity → Identity) (hf : ∀ i, (f i).id = i.id) :
    Store :=
  { s with
    nodes := Keyed.upsert Identity.id id (f (s.fresh id)) f s.nodes
    nodup := Keyed.nodup_upsert (hf _ : (f (s.fresh id)).id = id) (fun i hi => (hf i).trans hi)
      s.nodup }

/-- `ensure`, its pointer only read. -/
def ensure (s : Store) (id : GoString) : Store := s.update id (fun i => i) fun _ => rfl

/-- Record an event unless one equal in every field was recorded before. -/
def addEvent (s : Store) (e : Event) : Store :=
  if s.seenEvents.any (Event.goEq · e) then s
  else { s with seenEvents := s.seenEvents ++ [e] }.update e.identityID
    (fun i => { i with events := i.events ++ [e] }) fun _ => rfl

/-- Merge an identity into the graph. -/
def addIdentity (s : Store) (inn : Identity) : Store :=
  s.update inn.id (mergeIdentity · inn) fun i => mergeIdentity_id i inn

/-- Fold an operator-supplied privileged set into the graph. -/
def markPrivileged (s : Store) (privileged : GoString → Bool) : Store :=
  { s with
    privileged := fun id => s.privileged id || privileged id
    nodes := s.nodes.map fun i => { i with privileged := i.privileged || privileged i.id }
    nodup := by rw [List.map_map]; exact s.nodup }

/-- What `Identities` leaves of the store it reads: the events of each node are sorted in place. -/
def sortEvents (s : Store) : Store :=
  { s with
    nodes := s.nodes.map Identity.chronological
    nodup := by rw [List.map_map]; exact s.nodup }

/-- All identities in order of their ids, each with its events in chronological order. -/
def identities (s : Store) : List Identity :=
  (s.nodes.map Identity.chronological).insertionSort fun a b => a.id ≤ b.id

/-! ## What an operation leaves at one id -/

theorem find_update (s : Store) (id j : GoString) (f : Identity → Identity)
    (hf : ∀ i, (f i).id = i.id) : (s.update id f hf).find j =
      if j = id then some (f ((s.find id).getD (s.fresh id))) else s.find j := by
  have hi : (f (s.fresh id)).id = id := hf _
  have hu : ∀ i : Identity, i.id = id → (f i).id = id := fun i hi => (hf i).trans hi
  unfold find update
  split_ifs with h
  · subst h
    rw [Keyed.lookup_upsert_self hi hu]
    cases Keyed.lookup Identity.id j s.nodes <;> rfl
  · rw [Keyed.lookup_upsert_ne hi hu h]

theorem find_new (p : GoString → Bool) (id : GoString) : (new p).find id = none := rfl

theorem find_addIdentity (s : Store) (i : Identity) (id : GoString) :
    (s.addIdentity i).find id =
      if id = i.id then some (mergeIdentity ((s.find i.id).getD (s.fresh i.id)) i) else s.find id :=
  find_update s i.id id _ _

@[simp] theorem privileged_addIdentity (s : Store) (i : Identity) :
    (s.addIdentity i).privileged = s.privileged := rfl

@[simp] theorem privileged_addEvent (s : Store) (e : Event) :
    (s.addEvent e).privileged = s.privileged := by
  unfold addEvent
  split_ifs <;> rfl

@[simp] theorem seenEvents_addIdentity (s : Store) (i : Identity) :
    (s.addIdentity i).seenEvents = s.seenEvents := rfl

theorem seenEvents_addEvent (s : Store) (e : Event) :
    (s.addEvent e).seenEvents = KeepFirst.keepFirst Event.goEq s.seenEvents [e] := by
  unfold addEvent KeepFirst.keepFirst
  rw [List.foldl_cons, List.foldl_nil]
  split_ifs <;> rfl

theorem mem_identities {s : Store} {i : Identity} :
    i ∈ s.identities ↔ ∃ n ∈ s.nodes, n.chronological = i := by
  rw [identities, List.mem_insertionSort, List.mem_map]

theorem chronological_chronological (i : Identity) : i.chronological.chronological = i.chronological := by
  unfold Identity.chronological
  rw [List.Pairwise.insertionSort_eq (List.pairwise_insertionSort Event.notAfter i.events)]

theorem identities_sortEvents (s : Store) : s.sortEvents.identities = s.identities := by
  unfold identities sortEvents
  rw [List.map_map]
  congr 1
  exact List.map_congr_left fun i _ => chronological_chronological i

theorem find_sortEvents (s : Store) (id : GoString) :
    s.sortEvents.find id = (s.find id).map Identity.chronological := by
  unfold find Keyed.lookup sortEvents
  rw [List.find?_map]
  rfl

theorem nodup_identities (s : Store) : (s.identities.map Identity.id).Nodup := by
  have hperm := (List.perm_insertionSort (fun a b : Identity => a.id ≤ b.id)
    (s.nodes.map Identity.chronological)).map Identity.id
  refine hperm.nodup_iff.mpr ?_
  rw [List.map_map]
  exact s.nodup

end Store

end Idryx
