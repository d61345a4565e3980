import Idryx.Graph.Reorder
import Idryx.Graph.Shared

/-!
# Runs over shared arrays

`internal/graph/store.go`: whole runs of calls, the action lists of the grants being slices over a heap.

* `SReport`, `SOp`, `SGraph`; `SGraph.view`: the graph of lists that is read off the slices;
* `ClearRun`: what a call appends in place is out of the sight of the other grants and of the reports;
* **`run_spec`**: a clear run is that of the lists;
* `Allows`, `clearRun_of_allows`: a pass over reports whose actions are held is clear;
* **`identities_run_run_of_clear`**: a clear run can be repeated;
* `SReordering`; **`identities_run_reordering_of_clear`**: clear runs do not depend on the order of loading;
* `deploy_replayed`, `deploy_reordered`: two roles of one policy, for which both fail.
-/

namespace Idryx

open Slices

/-! ## Reports and calls -/

/-- An identity as it is reported: its grants with slices, and `rest` is everything else it says. -/
structure SReport where
  rest : Identity
  grants : List SPermission

namespace SReport

/-- The slices of its grants. -/
def slices (i : SReport) : List Slice := i.grants.map SPermission.actions

/-- The identity with the actions its slices show. -/
def read (h : Heap GoString) (i : SReport) : Identity :=
  { i.rest with permissions := i.grants.map (SPermission.read h) }

/-- What the heap is told of it. -/
def shared (i : SReport) : SIdentity := ⟨i.rest.id, i.grants⟩

end SReport

/-- A call on the graph. -/
inductive SOp where
  | event (e : Event)
  | identity (i : SReport)

namespace SOp

/-- The call with the actions its slices show. -/
def read (h : Heap GoString) : SOp → Op
  | .event e => .event e
  | .identity i => .identity (i.read h)

/-- The slices the call hands in. -/
def slices : SOp → List Slice
  | .event _ => []
  | .identity i => i.slices

/-- The events and the reports of a run. -/
def events (xs : List SOp) : List Event :=
  xs.filterMap fun | .event e => some e | .identity _ => none

@[inherit_doc events]
def reports (xs : List SOp) : List SReport :=
  xs.filterMap fun | .event _ => none | .identity i => some i

/-- The slices a run hands in. -/
def handed (xs : List SOp) : List Slice := xs.flatMap slices

theorem read_congr {h h' : Heap GoString} {x : SOp}
    (hx : ∀ t ∈ x.slices, Slices.read h' t = Slices.read h t) : x.read h' = x.read h := by
  cases x with
  | event e => rfl
  | identity i =>
    have hps : i.grants.map (SPermission.read h') = i.grants.map (SPermission.read h) :=
      map_read_congr fun p hp => hx _ (List.mem_map_of_mem hp)
    show Op.identity _ = Op.identity _
    rw [SReport.read, SReport.read, hps]

theorem events_read (h : Heap GoString) (xs : List SOp) : Op.events (xs.map (SOp.read h)) = events xs := by
  unfold Op.events events
  rw [List.filterMap_map]
  refine List.filterMap_congr fun x _ => ?_
  cases x <;> rfl

theorem identities_read (h : Heap GoString) (xs : List SOp) :
    Op.identities (xs.map (SOp.read h)) = (reports xs).map (SReport.read h) := by
  unfold Op.identities reports
  rw [List.filterMap_map, List.map_filterMap]
  refine List.filterMap_congr fun x _ => ?_
  cases x <;> rfl

theorem slices_subset_handed {xs : List SOp} {x : SOp} (hx : x ∈ xs) : x.slices ⊆ handed xs :=
  fun _ ht => List.mem_flatMap.mpr ⟨x, hx, ht⟩

theorem mem_handed {xs : List SOp} {i : SReport} (hi : i ∈ reports xs) {p : SPermission} (hp : p ∈ i.grants) :
    p.actions ∈ handed xs := by
  obtain ⟨x, hx, hxi⟩ := List.mem_filterMap.mp hi
  refine slices_subset_handed hx ?_
  cases x with
  | event e => cases hxi
  | identity j =>
    obtain rfl := Option.some.inj hxi
    exact List.mem_map_of_mem hp

theorem map_read_congr {h h' : Heap GoString} {xs : List SOp}
    (hxs : ∀ t ∈ handed xs, Slices.read h' t = Slices.read h t) : xs.map (SOp.read h') = xs.map (SOp.read h) :=
  List.map_congr_left fun _ hx => read_congr fun t ht => hxs t (slices_subset_handed hx ht)

theorem handed_perm {xs ys : List SOp} (h : xs.Perm ys) : handed ys ⊆ handed xs := by
  intro t ht
  obtain ⟨x, hx, ht⟩ := List.mem_flatMap.mp ht
  exact List.mem_flatMap.mpr ⟨x, h.mem_iff.mpr hx, ht⟩

end SOp

/-! ## The graph -/

/-- The store: the grants over the heap of their action lists, and the rest of the nodes, whose own grants are
never read. An id without a node has no grants. -/
structure SGraph where
  rest : Store
  granted : SStore
  named : ∀ id, rest.find id = none → granted.permissions id = []

theorem Store.keys_update_congr {s t : Store} {id : GoString} {f f' : Identity → Identity}
    (hf : ∀ i, (f i).id = i.id) (hf' : ∀ i, (f' i).id = i.id)
    (h : s.nodes.map Identity.id = t.nodes.map Identity.id) :
    (s.update id f hf).nodes.map Identity.id = (t.update id f' hf').nodes.map Identity.id := by
  refine (Keyed.keys_upsert (hf (s.fresh id)) (fun i hi => (hf i).trans hi) s.nodes).trans ?_
  rw [h]
  exact (Keyed.keys_upsert (hf' (t.fresh id)) (fun i hi => (hf' i).trans hi) t.nodes).symm

namespace SGraph

/-- `New`, and the heap in which the reports lie. -/
def new (privileged : GoString → Bool) (h : Heap GoString) : SGraph where
  rest := Store.new privileged
  granted := ⟨h, [], List.nodup_nil⟩
  named _ _ := rfl

theorem find_none_of_apply {s : Store} {x : Op} {id : GoString} (h : (s.apply x).find id = none) :
    s.find id = none := by
  by_contra hne
  have hsome := Store.isSome_find_apply s x (Option.ne_none_iff_isSome.mp hne)
  rw [h] at hsome
  cases hsome

/-- `AddEvent`, which changes no grant. -/
def addEvent (g : SGraph) (e : Event) : SGraph where
  rest := g.rest.addEvent e
  granted := g.granted
  named _ hid := g.named _ (find_none_of_apply (x := .event e) hid)

/-- `AddIdentity`. -/
def addIdentity (grow : Nat → Nat → Nat) (g : SGraph) (inn : SReport) : SGraph where
  rest := g.rest.addIdentity inn.rest
  granted := g.granted.addIdentity grow inn.shared
  named id hid := by
    rw [Store.find_addIdentity] at hid
    by_cases hself : id = inn.rest.id
    · rw [if_pos hself] at hid
      cases hid
    · rw [if_neg hself] at hid
      have hother : (g.granted.addIdentity grow inn.shared).permissions id = g.granted.permissions id :=
        SStore.permissions_addIdentity.trans (if_neg hself)
      exact hother.trans (g.named id hid)

/-- What `Identities` leaves of the graph it reads. -/
def sortEvents (g : SGraph) : SGraph where
  rest := g.rest.sortEvents
  granted := g.granted
  named id hid := g.named id (by rwa [Store.find_sortEvents, Option.map_eq_none_iff] at hid)

/-- The node with the grants that its slices show. -/
def shown (g : SGraph) (n : Identity) : Identity := { n with permissions := g.granted.grants n.id }

/-- The graph of lists that is read off the slices. -/
def view (g : SGraph) : Store where
  privileged := g.rest.privileged
  nodes := g.rest.nodes.map g.shown
  seenEvents := g.rest.seenEvents
  nodup := by rw [List.map_map]; exact g.rest.nodup

/-- `Identities`, its action lists as they are shown at that time. -/
def identities (g : SGraph) : List Identity := g.view.identities

/-- What a call does. -/
def apply (grow : Nat → Nat → Nat) (g : SGraph) : SOp → SGraph
  | .event e => g.addEvent e
  | .identity i => g.addIdentity grow i

/-- A run of calls. -/
def run (grow : Nat → Nat → Nat) (g : SGraph) (xs : List SOp) : SGraph := xs.foldl (apply grow) g

/-- The slices of the graph, and these, are slices of its heap, as all slices of a program are. -/
def Proper (g : SGraph) (R : List Slice) : Prop := ∀ t ∈ g.granted.slices ++ R, WF g.granted.heap t

instance (g : SGraph) (R : List Slice) : Decidable (g.Proper R) :=
  inferInstanceAs (Decidable (∀ t ∈ g.granted.slices ++ R, WF g.granted.heap t))

/-- Where the call appends in place, none of the other grants of the graph, and none of the slices `R`, shows more of
the array. -/
def ClearStep (grow : Nat → Nat → Nat) (R : List Slice) (g : SGraph) : SOp → Prop
  | .event _ => True
  | .identity i => g.granted.ClearAmong grow R i.shared

instance (grow : Nat → Nat → Nat) (R : List Slice) (g : SGraph) : ∀ x, Decidable (g.ClearStep grow R x)
  | .event _ => isTrue trivial
  | .identity i => inferInstanceAs (Decidable (g.granted.ClearAmong grow R i.shared))

/-- Every call is clear, in the state it finds. -/
def ClearRun (grow : Nat → Nat → Nat) (R : List Slice) : SGraph → List SOp → Prop
  | _, [] => True
  | g, x :: xs => g.ClearStep grow R x ∧ ClearRun grow R (g.apply grow x) xs

instance decidableClearRun (grow : Nat → Nat → Nat) (R : List Slice) :
    ∀ (g : SGraph) (xs : List SOp), Decidable (g.ClearRun grow R xs)
  | _, [] => isTrue trivial
  | g, x :: xs =>
    have := decidableClearRun grow R (g.apply grow x) xs
    inferInstanceAs (Decidable (_ ∧ _))

/-! ## What is read off the slices -/

variable {grow : Nat → Nat → Nat} {g : SGraph} {R : List Slice}

theorem find_view (g : SGraph) (id : GoString) : g.view.find id = (g.rest.find id).map g.shown :=
  Keyed.lookup_map g.shown (fun _ => rfl) id g.rest.nodes

theorem grantsOf_view (g : SGraph) (id : GoString) : g.view.grantsOf id = g.granted.grants id := by
  unfold Store.grantsOf
  rw [find_view]
  cases hf : g.rest.find id with
  | none =>
    rw [SStore.grants, g.named id hf]
    rfl
  | some n =>
    have hid : n.id = id := Keyed.lookup_key hf
    rw [← hid]
    rfl

theorem view_sortEvents (g : SGraph) : g.sortEvents.view = g.view.sortEvents := by
  refine Store.ext rfl ?_ rfl
  show (g.rest.nodes.map Identity.chronological).map g.shown = (g.rest.nodes.map g.shown).map Identity.chronological
  rw [List.map_map, List.map_map]
  rfl

theorem keys_view (g : SGraph) : g.view.nodes.map Identity.id = g.rest.nodes.map Identity.id := by
  rw [view, List.map_map]
  rfl

/-- A node that is created has no grants to show. -/
theorem shown_getD (g : SGraph) (id : GoString) :
    g.shown ((g.rest.find id).getD (g.rest.fresh id)) = (g.view.find id).getD (g.view.fresh id) := by
  rw [find_view]
  cases hfind : g.rest.find id with
  | some n => rfl
  | none =>
    have hnone : g.granted.grants id = [] := by rw [SStore.grants, g.named id hfind, List.map_nil]
    show { g.rest.fresh id with permissions := g.granted.grants id } = _
    rw [hnone]
    rfl

/-- **A write to one node** is seen there alone, if the grants of the others are shown as before. -/
theorem view_update {g' : SGraph} {id : GoString} {f f' : Identity → Identity} (hf : ∀ i, (f i).id = i.id)
    (hf' : ∀ i, (f' i).id = i.id) (hrest : g'.rest = g.rest.update id f hf)
    (hothers : ∀ j, j ≠ id → g'.granted.grants j = g.granted.grants j)
    (hself : ∀ n : Identity, n.id = id → g'.shown (f n) = f' (g.shown n)) :
    g'.view = g.view.update id f' hf' := by
  have hprivileged : g'.rest.privileged = g.rest.privileged := by rw [hrest]; rfl
  have hseen : g'.rest.seenEvents = g.rest.seenEvents := by rw [hrest]; rfl
  refine Store.ext hprivileged ?_ hseen
  refine Keyed.ext_of_lookup g'.view.nodup ?_ fun j _ => ?_
  · rw [keys_view, hrest]
    exact Store.keys_update_congr hf hf' (keys_view g).symm
  · show g'.view.find j = (g.view.update id f' hf').find j
    rw [find_view, hrest, Store.find_update, Store.find_update]
    split_ifs with hj
    · subst hj
      have hid : ((g.rest.find j).getD (g.rest.fresh j)).id = j := by
        cases hfind : g.rest.find j with
        | some n => exact Keyed.lookup_key hfind
        | none => rfl
      rw [Option.map_some, hself _ hid, shown_getD]
    · rw [find_view]
      refine Option.map_congr fun n hn => ?_
      have hid : n.id = j := Keyed.lookup_key hn
      show { n with permissions := g'.granted.grants n.id } = { n with permissions := g.granted.grants n.id }
      rw [hid, hothers j hj]

theorem view_addEvent (g : SGraph) (e : Event) : (g.addEvent e).view = g.view.addEvent e := by
  by_cases hseen : g.rest.seenEvents.any (Event.goEq · e) = true
  · have hrest : g.rest.addEvent e = g.rest := if_pos hseen
    have hview : g.view.addEvent e = g.view := if_pos hseen
    have hsame : g.addEvent e = ⟨g.rest, g.granted, g.named⟩ := by
      unfold addEvent
      congr 1
    rw [hview, hsame]
  · have hrest : g.rest.addEvent e =
        { g.rest with seenEvents := g.rest.seenEvents ++ [e] }.update e.identityID
          (fun i => { i with events := i.events ++ [e] }) fun _ => rfl := if_neg hseen
    have hview : g.view.addEvent e =
        { g.view with seenEvents := g.view.seenEvents ++ [e] }.update e.identityID
          (fun i => { i with events := i.events ++ [e] }) fun _ => rfl := if_neg hseen
    rw [hview]
    let g₀ : SGraph := ⟨{ g.rest with seenEvents := g.rest.seenEvents ++ [e] }, g.granted, g.named⟩
    exact @view_update g₀ (g.addEvent e) _ _ _ _ _ hrest (fun _ _ => rfl) fun _ _ => rfl

/-- **One clear call** is that of the lists, and what the slices `R` show stays. -/
theorem apply_spec {x : SOp} (hwf : g.Proper R) (hin : x.slices ⊆ R) (hclear : g.ClearStep grow R x) :
    (g.apply grow x).Proper R ∧
      (∀ t ∈ R, Slices.read (g.apply grow x).granted.heap t = Slices.read g.granted.heap t) ∧
      (g.apply grow x).view = g.view.apply (x.read g.granted.heap) := by
  cases x with
  | event e => exact ⟨hwf, fun _ _ => rfl, view_addEvent g e⟩
  | identity i =>
    have hnone : ∀ {h : Heap GoString} {ss : List Slice}, (∀ t ∈ ss, WF h t) → Held h [] ss := fun hss =>
      ⟨hss, fun _ _ _ ht => absurd ht List.not_mem_nil⟩
    have hK : Known g.granted.slices g.granted.heap [] :=
      ⟨hnone fun _ ht => absurd ht List.not_mem_nil, hnone fun t ht => hwf t (List.mem_append_left _ ht)⟩
    have hR : Held g.granted.heap [] R := hnone fun t ht => hwf t (List.mem_append_right _ ht)
    have hin' : i.shared.slices ⊆ [] ++ R := hin
    obtain ⟨hK', hR', hread, hgrants⟩ := SStore.addIdentity_among hK hR hin' hclear
    refine ⟨fun t ht => ?_, hread, ?_⟩
    · rcases List.mem_append.mp ht with ht | ht
      · exact hK'.others.wf t ht
      · exact hR'.wf t ht
    · show (g.addIdentity grow i).view = g.view.addIdentity (i.read g.granted.heap)
      refine @view_update g (g.addIdentity grow i) _ _ _ (fun n => mergeIdentity_id n i.rest)
        (fun n => mergeIdentity_id n _) rfl (fun j hj => ?_) fun n hn => ?_
      · exact (hgrants j).trans (if_neg hj)
      · have hself := (hgrants n.id).trans (if_pos hn)
        show { mergeIdentity n i.rest with permissions := (g.addIdentity grow i).granted.grants n.id } = _
        have hid : i.shared.id = n.id := hn.symm
        rw [show (g.addIdentity grow i).granted.grants n.id = _ from hself, hid]
        rfl

/-- **A clear run** is that of the lists, and what the slices `R` show stays. -/
theorem run_spec {xs : List SOp} (hwf : g.Proper R) (hin : SOp.handed xs ⊆ R) (hclear : g.ClearRun grow R xs) :
    (g.run grow xs).Proper R ∧
      (∀ t ∈ R, Slices.read (g.run grow xs).granted.heap t = Slices.read g.granted.heap t) ∧
      (g.run grow xs).view = g.view.run (xs.map (SOp.read g.granted.heap)) := by
  induction xs generalizing g with
  | nil => exact ⟨hwf, fun _ _ => rfl, rfl⟩
  | cons x xs ih =>
    have hx : x.slices ⊆ R := List.Subset.trans (SOp.slices_subset_handed List.mem_cons_self) hin
    have hrest : SOp.handed xs ⊆ R := fun t ht => hin (List.mem_append_right x.slices ht)
    obtain ⟨hwf', hread, hview⟩ := apply_spec hwf hx hclear.1
    obtain ⟨hwf'', hread', hview'⟩ := ih hwf' hrest hclear.2
    refine ⟨hwf'', fun t ht => (hread' t ht).trans (hread t ht), hview'.trans ?_⟩
    have hops : xs.map (SOp.read (g.apply grow x).granted.heap) = xs.map (SOp.read g.granted.heap) :=
      SOp.map_read_congr fun t ht => hread t (hrest ht)
    rw [hops, hview, List.map_cons, Store.run_cons]

end SGraph

/-! ## Actions held -/

/-- The first grant of the name has the action. -/
def Allows (ps : List Permission) (name action : GoString) : Prop :=
  ∃ q ∈ Keyed.lookup Permission.name name ps, action ∈ q.actions

theorem allows_mergeOne {ps : List Permission} {p : Permission} {name action : GoString} :
    Allows (mergeOne ps p) name action ↔ Allows ps name action ∨ p.name = name ∧ action ∈ p.actions := by
  have hname : ∀ q : Permission, q.name = p.name → (mergePermission q p).name = p.name := fun _ h => h
  unfold Allows mergeOne
  by_cases hn : p.name = name
  · subst hn
    rw [Keyed.lookup_upsert_self rfl hname]
    cases Keyed.lookup Permission.name p.name ps with
    | none => simp
    | some q =>
      have hunion : (mergePermission q p).actions = unionActions q.actions p.actions := rfl
      simp [hunion, mem_unionActions]
  · rw [Keyed.lookup_upsert_ne rfl hname (Ne.symm hn)]
    simp [hn]

theorem allows_mergePermissions {ps inn : List Permission} {name action : GoString} :
    Allows (mergePermissions ps inn) name action ↔
      Allows ps name action ∨ ∃ p ∈ inn, p.name = name ∧ action ∈ p.actions := by
  rw [mergePermissions_eq]
  exact Loop.foldl_iff (P := fun ps => Allows ps name action)
    (Q := fun p : Permission => p.name = name ∧ action ∈ p.actions) (fun _ _ => allows_mergeOne) inn ps

namespace Store

theorem allows_apply {s : Store} {id name action : GoString} (x : Op)
    (h : Allows (s.grantsOf id) name action) : Allows ((s.apply x).grantsOf id) name action := by
  rcases find_apply s x id with hsame | ⟨j, hj, inn, hperms⟩
  · unfold grantsOf
    rw [hsame]
    exact h
  · have hold : ((s.find id).getD (s.fresh id)).permissions = s.grantsOf id := by
      unfold grantsOf
      cases s.find id <;> rfl
    unfold grantsOf
    rw [hj, Option.map_some, Option.getD_some, hperms, hold, allows_mergePermissions]
    exact Or.inl h

theorem allows_run {s : Store} {id name action : GoString} (xs : List Op)
    (h : Allows (s.grantsOf id) name action) : Allows ((s.run xs).grantsOf id) name action := by
  induction xs generalizing s with
  | nil => exact h
  | cons x xs ih => exact ih (allows_apply x h)

/-- **After a run** every action it reports is held. -/
theorem allows_of_reported (s : Store) {xs : List Op} {i : Identity} (hi : i ∈ Op.identities xs) {p : Permission}
    (hp : p ∈ i.permissions) {a : GoString} (ha : a ∈ p.actions) : Allows ((s.run xs).grantsOf i.id) p.name a := by
  induction xs generalizing s with
  | nil => cases hi
  | cons x xs ih =>
    cases x with
    | event e => exact ih _ hi
    | identity j =>
      rcases List.mem_cons.mp hi with rfl | hi
      · refine allows_run xs ?_
        change Allows ((s.addIdentity i).grantsOf i.id) p.name a
        rw [grantsOf_addIdentity, if_pos rfl, allows_mergePermissions]
        exact Or.inr ⟨p, hp, rfl, ha⟩
      · exact ih _ hi

end Store

/-! ## Two roles of one policy -/

/-- The array of a managed policy of three actions, with room for a fourth, and those of two inline policies. -/
def deployHeap : Heap GoString :=
  [["ecs:updateservice", "ecr:getimage", "s3:getobject", ""], ["iam:passrole"], ["logs:putlogevents"]]

/-- The actions of the managed policy, and others. -/
def deployActions (others : List GoString) : List GoString :=
  "ecs:updateservice" :: "ecr:getimage" :: "s3:getobject" :: others

/-- A grant by a policy named "deploy". -/
def deployGrant (actions : Slice) : SPermission := ⟨"deploy", false, false, actions, ""⟩

/-- A role that attaches the managed policy, with inline policies of that name. -/
def deployRole (name : GoString) (inline : List Slice) : SReport where
  rest := { Identity.zero name with type := identityServiceAccount, source := "aws_iam" }
  grants := (⟨0, 3, 4⟩ :: inline).map deployGrant

/-- Each of two roles has an inline policy of its own. -/
def deployCI : SOp := .identity (deployRole "ci" [⟨1, 1, 1⟩])

@[inherit_doc deployCI]
def deployWeb : SOp := .identity (deployRole "web" [⟨2, 1, 1⟩])

/-- The action lists that a run on a new graph leaves to read. -/
def deployed (xs : List SOp) : List (List (List GoString)) :=
  ((SGraph.new (fun _ => false) deployHeap).run doubling xs).identities.map fun i =>
    i.permissions.map Permission.actions

/-! ## A second pass -/

variable {grow : Nat → Nat → Nat} {h : Heap GoString}

theorem clearTurn_of_allows {others : List Slice} {ps : List SPermission} {p : SPermission}
    (hheld : ∀ a ∈ Slices.read h p.actions, Allows (ps.map (SPermission.read h)) p.name a) :
    ClearTurn h others ps p := by
  rintro ⟨before, q, after⟩ hr _ _ ⟨a, ha, hnot⟩
  obtain ⟨rfl, hname, hbefore⟩ := splitName_eq_some (Option.mem_def.mp hr)
  obtain ⟨q', hq', haq'⟩ := hheld a ha
  have hnone : (before.map (SPermission.read h)).find? (fun x => x.name = p.name) = none := by
    rw [List.find?_eq_none]
    exact List.forall_mem_map.mpr fun x hx heq => hbefore x hx (of_decide_eq_true heq)
  have hfirst : Keyed.lookup Permission.name p.name ((before ++ q :: after).map (SPermission.read h)) =
      some (q.read h) := by
    rw [Keyed.lookup, List.map_append, List.find?_append, hnone, List.map_cons, List.find?_cons_of_pos]
    · rfl
    · exact decide_eq_true hname
  rw [hfirst] at hq'
  obtain rfl := Option.some.inj (Option.mem_def.mp hq')
  exact absurd haq' hnot

theorem clearMerge_of_allows {others : List Slice} {inn : List SPermission} :
    ∀ {h : Heap GoString} {ps : List SPermission}, Held h [] others → Held h [] (ps.map SPermission.actions) →
      (∀ p ∈ inn, p.actions ∈ others) →
      (∀ p ∈ inn, ∀ a ∈ Slices.read h p.actions, Allows (ps.map (SPermission.read h)) p.name a) →
      ClearMerge grow others (h, ps) inn := by
  induction inn with
  | nil => exact fun _ _ _ _ => trivial
  | cons p inn ih =>
    intro h ps ho hps hin hheld
    rw [List.forall_mem_cons] at hin hheld
    have hnone : Held h [] [] := ho.subset (List.nil_subset others)
    have hturn : ClearTurn h others ps p := clearTurn_of_allows hheld.1
    have hp : p.actions ∈ [] ++ others := hin.1
    obtain ⟨-, ho', hps', hread, hmap⟩ := @mergeOneS_spec grow h _ _ _ _ hnone ho hps hp hturn
    refine ⟨hturn, ih ho' hps' hin.2 fun q hq a ha => ?_⟩
    change a ∈ Slices.read (mergeOneS grow (h, ps) p).1 q.actions at ha
    show Allows ((mergeOneS grow (h, ps) p).2.map (SPermission.read (mergeOneS grow (h, ps) p).1)) q.name a
    rw [hmap, allows_mergeOne]
    rw [hread q.actions (List.mem_append_right [] (hin.2 q hq))] at ha
    exact Or.inl (hheld.2 q hq a ha)

namespace SGraph

variable {g : SGraph} {R : List Slice}

/-- **A pass over reports that are held** is clear. -/
theorem clearRun_of_allows {xs : List SOp} (hwf : g.Proper R) (hin : SOp.handed xs ⊆ R)
    (hheld : ∀ i ∈ SOp.reports xs, ∀ p ∈ i.grants, ∀ a ∈ Slices.read g.granted.heap p.actions,
      Allows (g.view.grantsOf i.rest.id) p.name a) : g.ClearRun grow R xs := by
  induction xs generalizing g with
  | nil => trivial
  | cons x xs ih =>
    have hx : x.slices ⊆ R := List.Subset.trans (SOp.slices_subset_handed List.mem_cons_self) hin
    have hrest : SOp.handed xs ⊆ R := fun t ht => hin (List.mem_append_right x.slices ht)
    have hstep : g.ClearStep grow R x := by
      cases x with
      | event e => trivial
      | identity i =>
        have hnone : ∀ {ss : List Slice}, (∀ t ∈ ss, WF g.granted.heap t) → Held g.granted.heap [] ss := fun hss =>
          ⟨hss, fun _ _ _ ht => absurd ht List.not_mem_nil⟩
        refine clearMerge_of_allows (hnone fun t ht => hwf t ?_) (hnone fun t ht => hwf t ?_)
          (fun p hp => List.mem_append_right _ (hx (List.mem_map_of_mem hp))) fun p hp a ha => ?_
        · rcases List.mem_append.mp ht with ht | ht
          · exact List.mem_append_left _ (SStore.others_subset ht)
          · exact List.mem_append_right _ ht
        · obtain ⟨p, hp, rfl⟩ := List.mem_map.mp ht
          exact List.mem_append_left _ (SStore.slices_of_permissions hp).1
        · have hallows := hheld i List.mem_cons_self p hp a ha
          rw [grantsOf_view] at hallows
          exact hallows
    obtain ⟨hwf', hread, hview⟩ := apply_spec hwf hx hstep
    refine ⟨hstep, ih hwf' hrest fun i hi p hp a ha => ?_⟩
    have hi' : i ∈ SOp.reports (x :: xs) := by
      cases x with
      | event e => exact hi
      | identity j => exact List.mem_cons_of_mem j hi
    rw [hread _ (hrest (SOp.mem_handed hi hp))] at ha
    rw [hview]
    exact Store.allows_apply _ (hheld i hi' p hp a ha)

theorem run_of_allows {xs : List SOp} (hwf : g.Proper (SOp.handed xs))
    (hread : ∀ t ∈ SOp.handed xs, Slices.read g.granted.heap t = Slices.read h t)
    (hheld : ∀ i ∈ SOp.reports xs, ∀ p ∈ i.grants, ∀ a ∈ Slices.read h p.actions,
      Allows (g.granted.grants i.rest.id) p.name a) :
    (g.run grow xs).view = g.view.run (xs.map (SOp.read h)) := by
  have hclear : g.ClearRun grow (SOp.handed xs) xs := by
    refine clearRun_of_allows hwf (List.Subset.refl _) fun i hi p hp a ha => ?_
    rw [hread _ (SOp.mem_handed hi hp)] at ha
    rw [grantsOf_view]
    exact hheld i hi p hp a ha
  obtain ⟨-, -, hview⟩ := run_spec hwf (List.Subset.refl _) hclear
  rw [hview, SOp.map_read_congr hread]

/-- **Replay.** If a run is clear, repeating it leaves all identities as they are, whether or not they are read in
between. -/
theorem identities_run_run_of_clear (g : SGraph) (xs : List SOp) (hwf : g.Proper (SOp.handed xs))
    (hid : ∀ i ∈ SOp.reports xs, i.rest.events = []) (hnan : ∀ e ∈ SOp.events xs, e.noNaN = true)
    (hclear : g.ClearRun grow (SOp.handed xs) xs) :
    ((g.run grow xs).run grow xs).identities = (g.run grow xs).identities ∧
      ((g.run grow xs).sortEvents.run grow xs).identities = (g.run grow xs).identities := by
  obtain ⟨hwf', hread, hview⟩ := run_spec hwf (List.Subset.refl _) hclear
  have hheld : ∀ i ∈ SOp.reports xs, ∀ p ∈ i.grants, ∀ a ∈ Slices.read g.granted.heap p.actions,
      Allows ((g.run grow xs).granted.grants i.rest.id) p.name a := by
    intro i hi p hp a ha
    have hi' : i.read g.granted.heap ∈ Op.identities (xs.map (SOp.read g.granted.heap)) := by
      rw [SOp.identities_read]
      exact List.mem_map_of_mem hi
    rw [← grantsOf_view, hview]
    exact Store.allows_of_reported g.view hi' (p := p.read g.granted.heap) (List.mem_map_of_mem hp) ha
  have hid' : ∀ i ∈ Op.identities (xs.map (SOp.read g.granted.heap)), i.events = [] := by
    rw [SOp.identities_read]
    exact List.forall_mem_map.mpr hid
  have hnan' : ∀ e ∈ Op.events (xs.map (SOp.read g.granted.heap)), e.noNaN = true := by
    rwa [SOp.events_read]
  obtain ⟨hagain, hsorted⟩ := Store.identities_run_run g.view _ hid' hnan'
  rw [← hview] at hagain hsorted
  have hsecond := @run_of_allows grow g.granted.heap (g.run grow xs) xs hwf' hread hheld
  have hread' := @run_of_allows grow g.granted.heap (g.run grow xs).sortEvents xs hwf' hread hheld
  rw [view_sortEvents] at hread'
  exact ⟨(congrArg Store.identities hsecond).trans hagain, (congrArg Store.identities hread').trans hsorted⟩

/-- An event of the first role, seen with either zero as its longitude. -/
def ciSeen (negative : Bool) : SOp :=
  .event ⟨.seconds 7, "ci", eventEgress, "", "", "", "", ⟨0⟩, ⟨if negative then 1#64 <<< 63 else 0⟩, "", "", "", ""⟩

/-- Two reports of the first role that disagree, and one of the second with the managed policy alone. -/
def ciAlice : SOp :=
  let ci := deployRole "ci" [⟨1, 1, 1⟩]
  .identity { ci with rest := { ci.rest with lastUsed := .seconds 9, onBehalfOf := ["alice"] } }

@[inherit_doc ciAlice]
def ciBob : SOp :=
  let ci := (deployRole "ci" []).rest
  .identity ⟨{ ci with source := "gcp", lastUsed := .seconds 8, onBehalfOf := ["bob"], privileged := true },
    [⟨"deploy", true, true, ⟨2, 1, 1⟩, "arn:2"⟩]⟩

@[inherit_doc ciAlice]
def webManaged : SOp := .identity (deployRole "web" [])

/-- The first report is appended to in place, and the third in a new array. -/
theorem identities_run_run_of_clear_apart :
    let xs := [ciSeen true, ciAlice, ciSeen false, webManaged, ciBob]
    let g := (new (fun _ => false) deployHeap).run doubling xs
    (g.run doubling xs).identities = g.identities ∧ (g.sortEvents.run doubling xs).identities = g.identities :=
  identities_run_run_of_clear _ _ (by decide +kernel) (by decide +kernel) (by decide +kernel) (by decide +kernel)

/-- **A second pass shows an action that the first did not**: the second role writes over what is shown of the
first, and the second report of the first role finds it missing. -/
theorem deploy_replayed :
    (¬ ∀ (grow : Nat → Nat → Nat) (g : SGraph) (xs : List SOp), g.Proper (SOp.handed xs) →
        (∀ i ∈ SOp.reports xs, i.rest.events = []) → (∀ e ∈ SOp.events xs, e.noNaN = true) →
        ((g.run grow xs).run grow xs).identities = (g.run grow xs).identities) ∧
      deployed [deployCI, deployWeb] =
        [[deployActions ["logs:putlogevents"]], [deployActions ["logs:putlogevents"]]] ∧
      deployed [deployCI, deployWeb, deployCI, deployWeb] =
        [[deployActions ["logs:putlogevents", "iam:passrole"]], [deployActions ["logs:putlogevents"]]] := by
  have honce : deployed [deployCI, deployWeb] =
      [[deployActions ["logs:putlogevents"]], [deployActions ["logs:putlogevents"]]] := by decide +kernel
  have htwice : deployed [deployCI, deployWeb, deployCI, deployWeb] =
      [[deployActions ["logs:putlogevents", "iam:passrole"]], [deployActions ["logs:putlogevents"]]] := by
    decide +kernel
  refine ⟨fun hreplay => ?_, honce, htwice⟩
  have hsame := hreplay doubling (new (fun _ => false) deployHeap) [deployCI, deployWeb] (by decide +kernel)
    (by decide +kernel) (by decide +kernel)
  have hshown : deployed [deployCI, deployWeb, deployCI, deployWeb] = deployed [deployCI, deployWeb] :=
    congrArg (List.map fun i : Identity => i.permissions.map Permission.actions) hsame
  rw [honce, htwice] at hshown
  exact absurd hshown (by decide)

end SGraph

/-! ## The order of loading -/

/-- The same calls in another order, that of the reports of each id and of the events of each identity
at each instant apart. -/
structure SReordering (xs ys : List SOp) : Prop where
  perm : xs.Perm ys
  reports : ∀ id, (SOp.reports xs).filter (fun i => i.rest.id = id) =
    (SOp.reports ys).filter fun i => i.rest.id = id
  ties : ∀ id t, (SOp.events xs).filter (fun e => e.identityID = id ∧ e.time.instant = t) =
    (SOp.events ys).filter fun e => e.identityID = id ∧ e.time.instant = t

theorem SReordering.read {xs ys : List SOp} (hre : SReordering xs ys) (h : Heap GoString) :
    Reordering (xs.map (SOp.read h)) (ys.map (SOp.read h)) where
  perm := hre.perm.map _
  reports id := by
    have hreports : ∀ zs : List SOp, Keyed.reports Identity.id id (Op.identities (zs.map (SOp.read h))) =
        ((SOp.reports zs).filter fun i => i.rest.id = id).map (SReport.read h) := fun zs => by
      rw [SOp.identities_read, Keyed.reports, List.filter_map]
      rfl
    rw [hreports, hreports, hre.reports id]
  ties id t := by
    rw [SOp.events_read, SOp.events_read, hre.ties id t]

namespace SGraph

/-- **Load-order independence.** Clear runs of calls that are reordered, the reports of each id and the events of
each identity at one instant keeping their order, leave the same graph to read. -/
theorem identities_run_reordering_of_clear (privileged : GoString → Bool) (h : Heap GoString) {xs ys : List SOp}
    (hre : SReordering xs ys) (hid : ∀ i ∈ SOp.reports xs, i.rest.events = [])
    (hwf : (new privileged h).Proper (SOp.handed xs))
    (hxs : (new privileged h).ClearRun grow (SOp.handed xs) xs)
    (hys : (new privileged h).ClearRun grow (SOp.handed xs) ys) :
    ((new privileged h).run grow xs).identities = ((new privileged h).run grow ys).identities := by
  obtain ⟨-, -, hx⟩ := run_spec hwf (List.Subset.refl _) hxs
  obtain ⟨-, -, hy⟩ := run_spec hwf (SOp.handed_perm hre.perm) hys
  have hid' : ∀ i ∈ Op.identities (xs.map (SOp.read h)), i.events = [] := by
    rw [SOp.identities_read]
    exact List.forall_mem_map.mpr hid
  have hlists := Store.identities_run_reordering privileged (hre.read h) hid'
  exact (congrArg Store.identities hx).trans (hlists.trans (congrArg Store.identities hy).symm)

theorem filter_swap {i j : SReport} (hij : i.rest.id ≠ j.rest.id) (is : List SReport) (id : GoString) :
    (i :: j :: is).filter (fun i => i.rest.id = id) = (j :: i :: is).filter fun i => i.rest.id = id := by
  have hone : ¬ (i.rest.id = id ∧ j.rest.id = id) := fun h => hij (h.1.trans h.2.symm)
  simp only [List.filter_cons, decide_eq_true_eq]
  split_ifs with hi hj
  · exact absurd ⟨hi, hj⟩ hone
  all_goals rfl

/-- The second role is loaded first, and the event after the first report. -/
theorem identities_run_reordering_of_clear_apart :
    let g := new (fun id => id == "web") deployHeap
    (g.run doubling [ciSeen true, ciAlice, webManaged, ciSeen false, ciBob]).identities =
      (g.run doubling [webManaged, ciAlice, ciSeen true, ciSeen false, ciBob]).identities := by
  refine identities_run_reordering_of_clear _ deployHeap ⟨?_, filter_swap (by decide) _, fun _ _ => rfl⟩
    (by decide +kernel) (by decide +kernel) (by decide +kernel) (by decide +kernel)
  exact (List.reverse_perm [webManaged, ciAlice, ciSeen true]).append_right [ciSeen false, ciBob]

/-- **The order of two roles decides what the first of them is shown to allow.** -/
theorem deploy_reordered :
    (¬ ∀ (grow : Nat → Nat → Nat) (privileged : GoString → Bool) (h : Heap GoString) (xs ys : List SOp),
        SReordering xs ys → (∀ i ∈ SOp.reports xs, i.rest.events = []) →
        (new privileged h).Proper (SOp.handed xs) →
        ((new privileged h).run grow xs).identities = ((new privileged h).run grow ys).identities) ∧
      deployed [deployCI, deployWeb] =
        [[deployActions ["logs:putlogevents"]], [deployActions ["logs:putlogevents"]]] ∧
      deployed [deployWeb, deployCI] = [[deployActions ["iam:passrole"]], [deployActions ["iam:passrole"]]] := by
  have hxs : deployed [deployCI, deployWeb] =
      [[deployActions ["logs:putlogevents"]], [deployActions ["logs:putlogevents"]]] := by decide +kernel
  have hys : deployed [deployWeb, deployCI] = [[deployActions ["iam:passrole"]], [deployActions ["iam:passrole"]]] := by
    decide +kernel
  refine ⟨fun hany => ?_, hxs, hys⟩
  have hre : SReordering [deployCI, deployWeb] [deployWeb, deployCI] :=
    ⟨List.Perm.swap .., filter_swap (by decide) [], fun _ _ => rfl⟩
  have hsame := hany doubling (fun _ => false) deployHeap _ _ hre (by decide +kernel) (by decide +kernel)
  have hshown : deployed [deployCI, deployWeb] = deployed [deployWeb, deployCI] :=
    congrArg (List.map fun i : Identity => i.permissions.map Permission.actions) hsame
  rw [hxs, hys] at hshown
  exact absurd hshown (by decide)

end SGraph

end Idryx
