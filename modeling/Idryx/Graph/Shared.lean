import Idryx.Graph.Grants
import Idryx.Lib.Sharing

/-!
# Merging grants that share an array

`internal/graph/store.go`, the action lists of the grants being slices over a heap of arrays.

* `SPermission`, `unionActionsS`, `mergePermissionS`, `mergeOneS`, `mergePermissionsS`;
* `Clear`: what a merge appends in place is out of the sight of other slices;
* **`unionActionsS_spec`**; **`mergePermissionsS_spec`**: merges that are clear are those of lists, and
  keep what the other slices show;
* `SStore`, `SStore.addIdentity`; **`SStore.addIdentity_among`**, `SStore.addIdentity_spec`: a call that is
  clear merges the grants of its id as lists are, and leaves those of the other ids.
-/

namespace Idryx

open Slices

/-- A granted capability, its actions a slice. -/
structure SPermission where
  name : GoString
  admin : Bool
  used : Bool
  actions : Slice
  arn : GoString

/-- The capability with the actions its slice shows. -/
def SPermission.read (h : Heap GoString) (p : SPermission) : Permission :=
  ⟨p.name, p.admin, p.used, Slices.read h p.actions, p.arn⟩

theorem SPermission.read_congr {h h' : Heap GoString} {p : SPermission}
    (hp : Slices.read h' p.actions = Slices.read h p.actions) : p.read h' = p.read h :=
  congrArg (Permission.mk p.name p.admin p.used · p.arn) hp

theorem map_read_congr {h h' : Heap GoString} {ps : List SPermission}
    (hps : ∀ p ∈ ps, Slices.read h' p.actions = Slices.read h p.actions) :
    ps.map (SPermission.read h') = ps.map (SPermission.read h) :=
  List.map_congr_left fun p hp => SPermission.read_congr (hps p hp)

variable (grow : Nat → Nat → Nat)

/-- `unionActions`; the copy of a first list is one append to nil. -/
def unionActionsS (h : Heap GoString) (dst inn : Slice) : Heap GoString × Slice :=
  if inn.len = 0 then (h, dst)
  else if dst.len = 0 then alloc (grow 0 inn.len) h (Slices.read h inn)
  else appendNew grow h dst inn

/-- `mergePermission`. -/
def mergePermissionS (h : Heap GoString) (dst inn : SPermission) : Heap GoString × SPermission :=
  let r := unionActionsS grow h dst.actions inn.actions
  (r.1, { dst with
    admin := dst.admin || inn.admin
    used := dst.used || inn.used
    arn := if inn.arn ≠ "" then inn.arn else dst.arn
    actions := r.2 })

/-- The first entry of a name, and what stands around it. -/
def splitName (name : GoString) : List SPermission → Option (List SPermission × SPermission × List SPermission)
  | [] => none
  | q :: ps =>
    if q.name = name then some ([], q, ps)
    else (splitName name ps).map fun r => (q :: r.1, r.2)

/-- One turn of the loop of `mergePermissions`, its map being that of the first entry of each name. -/
def mergeOneS (st : Heap GoString × List SPermission) (p : SPermission) :
    Heap GoString × List SPermission :=
  match splitName p.name st.2 with
  | none => (st.1, st.2 ++ [p])
  | some (before, q, after) =>
    let r := mergePermissionS grow st.1 q p
    (r.1, before ++ r.2 :: after)

/-- `mergePermissions`. -/
def mergePermissionsS (h : Heap GoString) (existing inn : List SPermission) :
    Heap GoString × List SPermission := inn.foldl (mergeOneS grow) (h, existing)

/-! ## One union -/

/-- If the union appends to `dst` in place, none of the other slices of its array shows more of it. -/
def Clear (h : Heap GoString) (dst inn : Slice) (others : List Slice) : Prop :=
  0 < dst.len → dst.len < dst.cap → (∃ a ∈ Slices.read h inn, a ∉ Slices.read h dst) →
    ∀ t ∈ others, t.arr = dst.arr → t.len ≤ dst.len

instance (h : Heap GoString) (dst inn : Slice) (others : List Slice) :
    Decidable (Clear h dst inn others) := inferInstanceAs (Decidable (_ → _ → _ → _))

variable {grow} {h : Heap GoString}

theorem unionActions_eq_foldl (dst inn : List GoString) (hi : inn ≠ []) (hd : dst ≠ []) :
    unionActions dst inn = inn.foldl Groups.insertMember dst := by
  have hstep : (fun (dst : List GoString) a => if dst.contains a then dst else dst ++ [a]) =
      Groups.insertMember := by
    funext dst a
    simp [Groups.insertMember]
  unfold unionActions
  rw [if_neg (by simpa using hi), if_neg (by simpa using hd), hstep]

/-- **One union.** It is that of the lists; it keeps what a slice shows that was safe, or clear of it. -/
theorem unionActionsS_spec {dst inn : Slice} (hd : WF h dst) (hi : WF h inn)
    (hsafe : Safe dst inn ∨ Clear h dst inn [inn]) :
    WF (unionActionsS grow h dst inn).1 (unionActionsS grow h dst inn).2 ∧
      Slices.read (unionActionsS grow h dst inn).1 (unionActionsS grow h dst inn).2 =
        unionActions (Slices.read h dst) (Slices.read h inn) ∧
      (∀ t, WF h t → Safe dst t ∨ Clear h dst inn [t] →
        WF (unionActionsS grow h dst inn).1 t ∧
          Slices.read (unionActionsS grow h dst inn).1 t = Slices.read h t) ∧
      ∀ t, WF h t → Safe dst t → Safe (unionActionsS grow h dst inn).2 t := by
  have hlen_inn := length_read hi
  have hlen_dst := length_read hd
  unfold unionActionsS
  split_ifs with hin hdst
  · refine ⟨hd, ?_, fun t ht _ => ⟨ht, rfl⟩, fun t _ hs => hs⟩
    have hnil : Slices.read h inn = [] := List.length_eq_zero_iff.mp (hlen_inn.trans hin)
    rw [hnil]
    rfl
  · have hnil : Slices.read h dst = [] := List.length_eq_zero_iff.mp (hlen_dst.trans hdst)
    have hgrown := alloc_grown dst (grow 0 inn.len) h (Slices.read h inn)
    refine ⟨hgrown.wf, ?_, fun t ht _ => ?_, fun t ht hs => (hgrown.keeps t ht hs).2.2⟩
    · rw [read_alloc, hnil, unionActions_nil_left]
    · -- the new array is out of sight of every slice, safe or not
      have hp : h <+: (alloc (grow 0 inn.len) h (Slices.read h inn)).1 := List.prefix_append h _
      exact ht.of_longer hp
  · have hinne : Slices.read h inn ≠ [] := fun hnil => hin (by rw [← hlen_inn, hnil]; rfl)
    have hdne : Slices.read h dst ≠ [] := fun hnil => hdst (by rw [← hlen_dst, hnil]; rfl)
    by_cases hnew : ∃ a ∈ Slices.read h inn, a ∉ Slices.read h dst
    · have hsafe' : ∀ t, Safe dst t ∨ Clear h dst inn [t] → Safe dst t := by
        rintro t (hs | hclear)
        · exact hs
        · exact fun hroom harr =>
            hclear (Nat.pos_of_ne_zero hdst) hroom hnew t (List.mem_singleton.mpr rfl) harr
      have hspec : Grown h dst (appendNew grow h dst inn).1 (appendNew grow h dst inn).2 ∧
          Slices.read (appendNew grow h dst inn).1 (appendNew grow h dst inn).2 =
            (Slices.read h inn).foldl Groups.insertMember (Slices.read h dst) :=
        appendNew_spec hd hi (hsafe' inn hsafe)
      obtain ⟨hgrown, hread⟩ := hspec
      refine ⟨hgrown.wf, ?_, fun t ht hclear => ?_, fun t ht hs => (hgrown.keeps t ht hs).2.2⟩
      · rw [hread, unionActions_eq_foldl _ _ hinne hdne]
      · have hs := hsafe' t hclear
        exact ⟨(hgrown.keeps t ht hs).1, (hgrown.keeps t ht hs).2.1⟩
    · push Not at hnew
      rw [appendNew_eq_self hi hnew]
      exact ⟨hd, (unionActions_of_subset hnew).symm, fun t ht _ => ⟨ht, rfl⟩, fun t _ hs => hs⟩

/-! ## One turn -/

theorem splitName_eq_some {name : GoString} {ps before after : List SPermission} {q : SPermission}
    (hs : splitName name ps = some (before, q, after)) : ps = before ++ q :: after ∧ q.name = name ∧
      ∀ x ∈ before, x.name ≠ name := by
  induction ps generalizing before with
  | nil => cases hs
  | cons x ps ih =>
    rw [splitName] at hs
    split_ifs at hs with hx
    · cases hs
      exact ⟨rfl, hx, fun y hy => absurd hy List.not_mem_nil⟩
    · obtain ⟨r, hr, heq⟩ := Option.map_eq_some_iff.mp hs
      obtain ⟨b, q', a⟩ := r
      cases heq
      obtain ⟨rfl, hq, hb⟩ := ih hr
      exact ⟨rfl, hq, List.forall_mem_cons.mpr ⟨hx, hb⟩⟩

theorem splitName_eq_none {name : GoString} {ps : List SPermission}
    (hs : splitName name ps = none) : ∀ x ∈ ps, x.name ≠ name := by
  induction ps with
  | nil => exact fun x hx => absurd hx List.not_mem_nil
  | cons x ps ih =>
    rw [splitName] at hs
    split_ifs at hs with hx
    exact List.forall_mem_cons.mpr ⟨hx, ih (Option.map_eq_none_iff.mp hs)⟩

/-- The merge of one report is clear of the other grants of the identity, and of those of others. -/
def ClearTurn (h : Heap GoString) (others : List Slice) (ps : List SPermission) (p : SPermission) :
    Prop :=
  ∀ r ∈ splitName p.name ps,
    Clear h r.2.1.actions p.actions (others ++ (r.1 ++ r.2.2).map SPermission.actions)

instance (h : Heap GoString) (others : List Slice) (ps : List SPermission) (p : SPermission) :
    Decidable (ClearTurn h others ps p) := inferInstanceAs (Decidable (∀ r ∈ _, _))

theorem mergePermissionS_spec {reported : List Slice} {q p : SPermission}
    (hr : Held h reported reported) (hq : Held h reported [q.actions]) (hp : WF h p.actions)
    (hsafe : Safe q.actions p.actions ∨ Clear h q.actions p.actions [p.actions]) :
    Held (mergePermissionS grow h q p).1 reported [(mergePermissionS grow h q p).2.actions] ∧
      (mergePermissionS grow h q p).2.read (mergePermissionS grow h q p).1 =
        mergePermission (q.read h) (p.read h) ∧
      ∀ ss, Held h reported ss → (∀ t ∈ ss, t ∈ reported ∨ Clear h q.actions p.actions [t]) →
        Held (mergePermissionS grow h q p).1 reported ss ∧
          ∀ t ∈ ss, Slices.read (mergePermissionS grow h q p).1 t = Slices.read h t := by
  have hwfq := hq.wf _ List.mem_cons_self
  have hsafeq := hq.safe _ List.mem_cons_self
  obtain ⟨hwf, hread, hkeep, hsafe'⟩ :=
    @unionActionsS_spec grow h q.actions p.actions hwfq hp hsafe
  have hheap : (mergePermissionS grow h q p).1 = (unionActionsS grow h q.actions p.actions).1 := rfl
  have hactions : (mergePermissionS grow h q p).2.actions =
      (unionActionsS grow h q.actions p.actions).2 := rfl
  refine ⟨⟨?_, ?_⟩, ?_, fun ss hss hclear => ?_⟩
  · rw [List.forall_mem_singleton]
    exact hwf
  · rw [List.forall_mem_singleton]
    exact fun t ht => hsafe' t (hr.wf t ht) (hsafeq t ht)
  · unfold SPermission.read
    rw [hactions, hheap, hread]
    rfl
  · have hkept : ∀ t ∈ ss, WF (mergePermissionS grow h q p).1 t ∧
        Slices.read (mergePermissionS grow h q p).1 t = Slices.read h t := fun t ht =>
      hkeep t (hss.wf t ht) ((hclear t ht).imp_left (hsafeq t))
    exact ⟨⟨fun t ht => (hkept t ht).1, hss.safe⟩, fun t ht => (hkept t ht).2⟩

/-- **One turn.** If it is clear, it is that of the lists, and what the other slices show stays. -/
theorem mergeOneS_spec {reported others : List Slice} {ps : List SPermission} {p : SPermission}
    (hr : Held h reported reported) (ho : Held h reported others)
    (hps : Held h reported (ps.map SPermission.actions)) (hp : p.actions ∈ reported ++ others)
    (hclear : ClearTurn h others ps p) :
    Held (mergeOneS grow (h, ps) p).1 reported reported ∧
      Held (mergeOneS grow (h, ps) p).1 reported others ∧
      Held (mergeOneS grow (h, ps) p).1 reported
        ((mergeOneS grow (h, ps) p).2.map SPermission.actions) ∧
      (∀ t ∈ reported ++ others, Slices.read (mergeOneS grow (h, ps) p).1 t = Slices.read h t) ∧
      (mergeOneS grow (h, ps) p).2.map (SPermission.read (mergeOneS grow (h, ps) p).1) =
        mergeOne (ps.map (SPermission.read h)) (p.read h) := by
  have hin : Held h reported [p.actions] := by
    refine (held_append.mpr ⟨hr, ho⟩).subset ?_
    exact List.cons_subset.mpr ⟨hp, List.nil_subset _⟩
  unfold mergeOneS ClearTurn at *
  cases hs : splitName p.name ps with
  | none =>
    have hnew : ∀ q ∈ ps.map (SPermission.read h), q.name ≠ (p.read h).name :=
      List.forall_mem_map.mpr (splitName_eq_none hs)
    refine ⟨hr, ho, ?_, fun t _ => rfl, ?_⟩
    · rw [List.map_append, held_append]
      exact ⟨hps, hin⟩
    · rw [mergeOne, Keyed.upsert_of_not_mem hnew, List.map_append]
      rfl
  | some r =>
    obtain ⟨before, q, after⟩ := r
    obtain ⟨rfl, hname, hbefore⟩ := splitName_eq_some hs
    have hclear' := hclear _ (Option.mem_def.mpr hs)
    rw [List.map_append, List.map_cons, held_append, held_cons] at hps
    obtain ⟨hb, hq, ha⟩ := hps
    have hsafe : Safe q.actions p.actions ∨ Clear h q.actions p.actions [p.actions] := by
      rcases List.mem_append.mp hp with hp | hp
      · exact Or.inl (hq.safe _ List.mem_cons_self _ hp)
      · refine Or.inr fun hpos hroom hnew t ht => hclear' hpos hroom hnew t ?_
        exact List.mem_append_left _ (List.mem_singleton.mp ht ▸ hp)
    obtain ⟨hq', hmerged, hkeep⟩ :=
      @mergePermissionS_spec grow h reported q p hr hq (hin.wf _ List.mem_cons_self) hsafe
    -- what stands around the grant that is merged
    have haround : Held h reported (others ++ (before ++ after).map SPermission.actions) := by
      rw [List.map_append, held_append, held_append]
      exact ⟨ho, hb, ha⟩
    obtain ⟨haround', hread⟩ := hkeep _ haround fun t ht =>
      Or.inr fun hpos hroom hnew u hu => hclear' hpos hroom hnew u (List.mem_singleton.mp hu ▸ ht)
    obtain ⟨hr', hreadr⟩ := hkeep _ hr fun t ht => Or.inl ht
    rw [List.map_append, held_append, held_append] at haround'
    rw [List.map_append, List.forall_mem_append, List.forall_mem_append] at hread
    obtain ⟨ho', hb', ha'⟩ := haround'
    obtain ⟨hreado, hreadb, hreada⟩ := hread
    dsimp only
    refine ⟨hr', ho', ?_, List.forall_mem_append.mpr ⟨hreadr, hreado⟩, ?_⟩
    · rw [List.map_append, List.map_cons, held_append, held_cons]
      exact ⟨hb', hq', ha'⟩
    · have hnew : ∀ x ∈ before.map (SPermission.read h), x.name ≠ (p.read h).name :=
        List.forall_mem_map.mpr hbefore
      have hqname : (q.read h).name = (p.read h).name := hname
      have hsplit : (before ++ q :: after).map (SPermission.read h) =
          before.map (SPermission.read h) ++ q.read h :: after.map (SPermission.read h) := by
        rw [List.map_append, List.map_cons]
      rw [mergeOne, hsplit, Keyed.upsert_append hnew hqname, List.map_append, List.map_cons, hmerged,
        map_read_congr (List.forall_mem_map.mp hreadb), map_read_congr (List.forall_mem_map.mp hreada)]

/-! ## One call -/

/-- Each merge of a call is clear, in the state it finds. -/
def ClearMerge (grow : Nat → Nat → Nat) (others : List Slice) :
    Heap GoString × List SPermission → List SPermission → Prop
  | _, [] => True
  | st, p :: inn => ClearTurn st.1 others st.2 p ∧ ClearMerge grow others (mergeOneS grow st p) inn

instance decidableClearMerge (grow : Nat → Nat → Nat) (others : List Slice) :
    ∀ (st : Heap GoString × List SPermission) (inn : List SPermission),
      Decidable (ClearMerge grow others st inn)
  | _, [] => isTrue trivial
  | st, p :: inn =>
    have := decidableClearMerge grow others (mergeOneS grow st p) inn
    inferInstanceAs (Decidable (_ ∧ _))

/-- **One call.** If its merges are clear, it is that of the lists, and what the other slices show
stays. -/
theorem mergePermissionsS_spec {reported others : List Slice} {inn : List SPermission} :
    ∀ {h : Heap GoString} {ps : List SPermission}, Held h reported reported → Held h reported others →
      Held h reported (ps.map SPermission.actions) → (∀ p ∈ inn, p.actions ∈ reported ++ others) →
      ClearMerge grow others (h, ps) inn →
      Held (mergePermissionsS grow h ps inn).1 reported reported ∧
        Held (mergePermissionsS grow h ps inn).1 reported others ∧
        Held (mergePermissionsS grow h ps inn).1 reported
          ((mergePermissionsS grow h ps inn).2.map SPermission.actions) ∧
        (∀ t ∈ reported ++ others, Slices.read (mergePermissionsS grow h ps inn).1 t =
          Slices.read h t) ∧
        (mergePermissionsS grow h ps inn).2.map (SPermission.read (mergePermissionsS grow h ps inn).1) =
          mergePermissions (ps.map (SPermission.read h)) (inn.map (SPermission.read h)) := by
  induction inn with
  | nil => exact fun hr ho hps _ _ => ⟨hr, ho, hps, fun _ _ => rfl, rfl⟩
  | cons p inn ih =>
    intro h ps hr ho hps hp hclear
    rw [List.forall_mem_cons] at hp
    obtain ⟨hr', ho', hps', hread, hmap⟩ := @mergeOneS_spec grow h _ _ _ _ hr ho hps hp.1 hclear.1
    obtain ⟨hr'', ho'', hps'', hread', hmap'⟩ := ih hr' ho' hps' hp.2 hclear.2
    refine ⟨hr'', ho'', hps'', fun t ht => (hread' t ht).trans (hread t ht), hmap'.trans ?_⟩
    have hinn : inn.map (SPermission.read (mergeOneS grow (h, ps) p).1) =
        inn.map (SPermission.read h) :=
      map_read_congr fun x hx => hread _ (hp.2 x hx)
    rw [hmap, hinn, mergePermissions_eq, mergePermissions_eq, List.map_cons, List.foldl_cons]

/-! ## The store -/

/-- An identity, of which the id and the grants are kept. -/
structure SIdentity where
  id : GoString
  permissions : List SPermission

/-- The slices of its grants. -/
def SIdentity.slices (i : SIdentity) : List Slice := i.permissions.map SPermission.actions

/-- The nodes of a graph, over the heap of their action lists. -/
structure SStore where
  heap : Heap GoString
  nodes : List SIdentity
  nodup : (nodes.map SIdentity.id).Nodup

namespace SStore

/-- The slices of all nodes. -/
def slices (s : SStore) : List Slice := s.nodes.flatMap SIdentity.slices

/-- The slices of the nodes of other ids. -/
def others (s : SStore) (id : GoString) : List Slice :=
  (s.nodes.filter fun n => n.id ≠ id).flatMap SIdentity.slices

/-- The grants of an id, as they are stored. -/
def permissions (s : SStore) (id : GoString) : List SPermission :=
  ((Keyed.lookup SIdentity.id id s.nodes).map SIdentity.permissions).getD []

/-- The grants of an id, as they are read. -/
def grants (s : SStore) (id : GoString) : List Permission :=
  (s.permissions id).map (SPermission.read s.heap)

/-- `AddIdentity`: what it does to the grants. -/
def addIdentity (grow : Nat → Nat → Nat) (s : SStore) (inn : SIdentity) : SStore :=
  let r := mergePermissionsS grow s.heap (s.permissions inn.id) inn.permissions
  { heap := r.1
    nodes := Keyed.upsert SIdentity.id inn.id ⟨inn.id, r.2⟩ (fun _ => ⟨inn.id, r.2⟩) s.nodes
    nodup := Keyed.nodup_upsert (by rfl) (by exact fun _ _ => rfl) s.nodup }

/-- The merges of the call are clear of the other grants of the identity, and of those of others. -/
def ClearAdd (grow : Nat → Nat → Nat) (s : SStore) (inn : SIdentity) : Prop :=
  ClearMerge grow (s.others inn.id) (s.heap, s.permissions inn.id) inn.permissions

instance (grow : Nat → Nat → Nat) (s : SStore) (inn : SIdentity) : Decidable (ClearAdd grow s inn) :=
  decidableClearMerge grow _ _ _

/-- The merges of the call are clear of these slices too. -/
def ClearAmong (grow : Nat → Nat → Nat) (R : List Slice) (s : SStore) (inn : SIdentity) : Prop :=
  ClearMerge grow (s.others inn.id ++ R) (s.heap, s.permissions inn.id) inn.permissions

instance (grow : Nat → Nat → Nat) (R : List Slice) (s : SStore) (inn : SIdentity) :
    Decidable (ClearAmong grow R s inn) := decidableClearMerge grow _ _ _

theorem clearAdd_iff (grow : Nat → Nat → Nat) (s : SStore) (inn : SIdentity) :
    s.ClearAdd grow inn ↔ s.ClearAmong grow [] inn := by
  rw [ClearAdd, ClearAmong, List.append_nil]

variable {s : SStore} {inn : SIdentity} {K : List Slice} {id : GoString}

theorem permissions_addIdentity : (s.addIdentity grow inn).permissions id =
    if id = inn.id then (mergePermissionsS grow s.heap (s.permissions inn.id) inn.permissions).2
    else s.permissions id := by
  unfold permissions addIdentity
  split_ifs with hid
  · subst hid
    rw [Keyed.lookup_put (by rfl)]
    rfl
  · rw [Keyed.lookup_upsert_ne (by rfl) (by exact fun _ _ => rfl) hid]

theorem slices_of_permissions {p : SPermission} (hp : p ∈ s.permissions id) :
    p.actions ∈ s.slices ∧ ∀ x, id ≠ x → p.actions ∈ s.others x := by
  unfold permissions at hp
  cases hl : Keyed.lookup SIdentity.id id s.nodes with
  | none =>
    rw [hl] at hp
    cases hp
  | some n =>
    rw [hl] at hp
    have hn := Keyed.mem_of_lookup hl
    have hslice : p.actions ∈ n.slices := List.mem_map_of_mem hp
    refine ⟨List.mem_flatMap.mpr ⟨n, hn, hslice⟩, fun x hx => ?_⟩
    have hid : n.id = id := Keyed.lookup_key hl
    exact List.mem_flatMap.mpr ⟨n, List.mem_filter.mpr ⟨hn, by simpa [hid] using hx⟩, hslice⟩

theorem others_subset : s.others id ⊆ s.slices := by
  intro t ht
  obtain ⟨n, hn, ht⟩ := List.mem_flatMap.mp ht
  exact List.mem_flatMap.mpr ⟨n, (List.mem_filter.mp hn).1, ht⟩

theorem slices_addIdentity {t : Slice} (ht : t ∈ (s.addIdentity grow inn).slices) :
    t ∈ (mergePermissionsS grow s.heap (s.permissions inn.id) inn.permissions).2.map
      SPermission.actions ∨ t ∈ s.others inn.id := by
  obtain ⟨n, hn, ht⟩ := List.mem_flatMap.mp ht
  have hl := Keyed.lookup_of_mem (s.addIdentity grow inn).nodup hn
  unfold addIdentity at hl
  by_cases hid : n.id = inn.id
  · rw [hid, Keyed.lookup_put (by rfl)] at hl
    cases hl
    exact Or.inl ht
  · rw [Keyed.lookup_upsert_ne (by rfl) (by exact fun _ _ => rfl) hid] at hl
    refine Or.inr (List.mem_flatMap.mpr ⟨n, ?_, ht⟩)
    exact List.mem_filter.mpr ⟨Keyed.mem_of_lookup hl, by simpa using hid⟩

/-- **One call.** If it is clear, also of the slices `R`, the grants of the id are merged as lists are, and those of
the other ids stay, as do the slices handed out and those of `R`. -/
theorem addIdentity_among {R : List Slice} (hK : Known s.slices s.heap K) (hR : Held s.heap K R)
    (hin : inn.slices ⊆ K ++ R) (hclear : s.ClearAmong grow R inn) :
    Known (s.addIdentity grow inn).slices (s.addIdentity grow inn).heap K ∧
      Held (s.addIdentity grow inn).heap K R ∧
      (∀ t ∈ K ++ R, Slices.read (s.addIdentity grow inn).heap t = Slices.read s.heap t) ∧
      ∀ id, (s.addIdentity grow inn).grants id =
        if id = inn.id then
          mergePermissions (s.grants inn.id) (inn.permissions.map (SPermission.read s.heap))
        else s.grants id := by
  have hothers : Held s.heap K (s.others inn.id ++ R) :=
    held_append.mpr ⟨hK.others.subset others_subset, hR⟩
  have hperms : (s.permissions inn.id).map SPermission.actions ⊆ s.slices :=
    List.forall_mem_map.mpr fun p hp => (slices_of_permissions hp).1
  have hps : Held s.heap K ((s.permissions inn.id).map SPermission.actions) :=
    hK.others.subset hperms
  have hreported : ∀ p ∈ inn.permissions, p.actions ∈ K ++ (s.others inn.id ++ R) := by
    intro p hp
    rcases List.mem_append.mp (hin (List.mem_map_of_mem hp)) with hk | hr
    · exact List.mem_append_left _ hk
    · exact List.mem_append_right _ (List.mem_append_right _ hr)
  obtain ⟨hK', ho', hps', hread, hmap⟩ :=
    mergePermissionsS_spec hK.handed hothers hps hreported hclear
  obtain ⟨ho', hR'⟩ := held_append.mp ho'
  refine ⟨⟨hK', ⟨fun t ht => ?_, fun t ht => ?_⟩⟩, hR', fun t ht => hread t ?_, fun id => ?_⟩
  · rcases slices_addIdentity ht with ht | ht
    · exact hps'.wf t ht
    · exact ho'.wf t ht
  · rcases slices_addIdentity ht with ht | ht
    · exact hps'.safe t ht
    · exact ho'.safe t ht
  · rcases List.mem_append.mp ht with hk | hr
    · exact List.mem_append_left _ hk
    · exact List.mem_append_right _ (List.mem_append_right _ hr)
  · unfold grants
    rw [permissions_addIdentity]
    split_ifs with hid
    · exact hmap
    · refine map_read_congr fun p hp => hread _ (List.mem_append_right K (List.mem_append_left R ?_))
      exact (slices_of_permissions hp).2 _ hid

theorem addIdentity_spec (hK : Known s.slices s.heap K) (hin : inn.slices ⊆ K)
    (hclear : s.ClearAdd grow inn) :
    Known (s.addIdentity grow inn).slices (s.addIdentity grow inn).heap K ∧
      (∀ t ∈ K, Slices.read (s.addIdentity grow inn).heap t = Slices.read s.heap t) ∧
      ∀ id, (s.addIdentity grow inn).grants id =
        if id = inn.id then
          mergePermissions (s.grants inn.id) (inn.permissions.map (SPermission.read s.heap))
        else s.grants id := by
  have hnone : Held s.heap K [] :=
    ⟨fun _ ht => absurd ht List.not_mem_nil, fun _ ht => absurd ht List.not_mem_nil⟩
  rw [clearAdd_iff] at hclear
  rw [← List.append_nil K] at hin
  obtain ⟨hknown, -, hread, hgrants⟩ := addIdentity_among hK hnone hin hclear
  exact ⟨hknown, fun t ht => hread t (List.mem_append_left _ ht), hgrants⟩

end SStore

end Idryx
