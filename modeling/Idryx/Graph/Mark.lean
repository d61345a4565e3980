import Idryx.Graph.Replay

/-!
# Marking identities privileged

`MarkPrivileged`, `internal/graph/store.go`: the operator's set folded into a graph that exists already.

* `PrivilegedSet`: a Go map of flags, in the order it is ranged over; `markEntry`, `markSet`: the loop;
* `markSet_eq`: it marks what the map holds, in whatever order;
* `apply_markPrivileged`, `run_markPrivileged`: a mark before a call is a mark after it;
* **`markSet_commutes`**: a set given at the start is a set folded in anywhere.
-/

namespace Idryx

/-- A map of flags: its entries, in the order they are ranged over. -/
structure PrivilegedSet where
  rows : List (GoString × Bool)
  nodup : (rows.map Prod.fst).Nodup

namespace PrivilegedSet

/-- What the map holds at an id, `false` where it holds nothing. -/
def get (P : PrivilegedSet) (id : GoString) : Bool :=
  ((Keyed.lookup Prod.fst id P.rows).map Prod.snd).getD false

theorem get_eq_true {P : PrivilegedSet} {id : GoString} : P.get id = true ↔ (id, true) ∈ P.rows := by
  unfold get
  constructor
  · intro h
    cases hl : Keyed.lookup Prod.fst id P.rows with
    | none =>
      rw [hl] at h
      cases h
    | some row =>
      rw [hl] at h
      have hrow : row = (id, true) := Prod.ext (Keyed.lookup_key hl) h
      exact hrow ▸ Keyed.mem_of_lookup hl
  · intro h
    have hl : Keyed.lookup Prod.fst id P.rows = some (id, true) := Keyed.lookup_of_mem P.nodup h
    rw [hl]
    rfl

end PrivilegedSet

namespace Store

/-- One turn of the loop over the set. -/
def markEntry (s : Store) (row : GoString × Bool) : Store :=
  if !row.2 then s
  else
    { s with
      privileged := Function.update s.privileged row.1 true
      nodes := s.nodes.map fun i =>
        { i with privileged := if i.id = row.1 then true else i.privileged }
      nodup := by rw [List.map_map]; exact s.nodup }

/-- `MarkPrivileged`, over the entries of the set. -/
def markSet (s : Store) (P : PrivilegedSet) : Store :=
  if P.rows.isEmpty then s else P.rows.foldl markEntry s

/-! ## The loop -/

theorem markPrivileged_false (s : Store) : (s.markPrivileged fun _ => false) = s := by
  ext1
  · funext id
    exact Bool.or_false _
  · change s.nodes.map _ = s.nodes
    simp
  · rfl

theorem markPrivileged_markPrivileged (s : Store) (p q : GoString → Bool) :
    (s.markPrivileged p).markPrivileged q = s.markPrivileged fun id => p id || q id := by
  ext1
  · funext id
    exact Bool.or_assoc _ _ _
  · change (s.nodes.map _).map _ = s.nodes.map _
    rw [List.map_map]
    refine List.map_congr_left fun i _ => ?_
    simp [Bool.or_assoc]
  · rfl

theorem markEntry_eq (s : Store) (row : GoString × Bool) :
    s.markEntry row = s.markPrivileged fun id => decide (id = row.1) && row.2 := by
  unfold markEntry
  cases hrow : row.2 with
  | false =>
    simp only [Bool.and_false]
    exact (markPrivileged_false s).symm
  | true =>
    ext1
    · funext id
      by_cases h : id = row.1
      · subst h
        simp [markPrivileged]
      · simp [markPrivileged, h]
    · refine List.map_congr_left fun i _ => ?_
      by_cases h : i.id = row.1 <;> simp [h]
    · rfl

/-- **The loop marks what the map holds**, in whatever order it is ranged over. -/
theorem markSet_eq (s : Store) (P : PrivilegedSet) : s.markSet P = s.markPrivileged P.get := by
  have hloop : ∀ (rows : List (GoString × Bool)) (s : Store), rows.foldl markEntry s =
      s.markPrivileged fun id => rows.any fun row => decide (id = row.1) && row.2 := by
    intro rows
    induction rows with
    | nil => exact fun s => (markPrivileged_false s).symm
    | cons row rows ih =>
      intro s
      rw [List.foldl_cons, ih, markEntry_eq, markPrivileged_markPrivileged]
      rfl
  have hget : (fun id => P.rows.any fun row => decide (id = row.1) && row.2) = P.get := by
    funext id
    rw [Bool.eq_iff_iff, PrivilegedSet.get_eq_true, List.any_eq_true]
    constructor
    · rintro ⟨row, hrow, h⟩
      rw [Bool.and_eq_true, decide_eq_true_eq] at h
      have heq : row = (id, true) := Prod.ext h.1.symm h.2
      exact heq ▸ hrow
    · intro h
      exact ⟨_, h, by simp⟩
  have hset : s.markSet P = P.rows.foldl markEntry s := by
    unfold markSet
    cases P.rows <;> rfl
  rw [hset, hloop, hget]

/-! ## Marks and calls -/

theorem update_markPrivileged (s : Store) (p : GoString → Bool) (id : GoString)
    (f : Identity → Identity) (hf : ∀ i, (f i).id = i.id)
    (hflag : ∀ (i : Identity) (b : Bool), f { i with privileged := i.privileged || b } =
      { f i with privileged := (f i).privileged || b }) :
    (s.markPrivileged p).update id f hf = (s.update id f hf).markPrivileged p := by
  have hmark : ∀ i : Identity, { f i with privileged := (f i).privileged || p (f i).id } =
      f { i with privileged := i.privileged || p i.id } := by
    intro i
    rw [hflag, hf]
  ext1
  · rfl
  · have hid : ∀ i : Identity, Identity.id { i with privileged := i.privileged || p i.id } = i.id :=
      fun _ => rfl
    exact (Keyed.map_upsert hid (hmark (s.fresh id)) hmark s.nodes).symm
  · rfl

/-- **A mark before a call is a mark after it.** -/
theorem apply_markPrivileged (s : Store) (p : GoString → Bool) (x : Op) :
    (s.markPrivileged p).apply x = (s.apply x).markPrivileged p := by
  cases x with
  | event e =>
    change (s.markPrivileged p).addEvent e = (s.addEvent e).markPrivileged p
    unfold addEvent
    by_cases h : s.seenEvents.any (Event.goEq · e) = true
    · rw [if_pos h, if_pos (show (s.markPrivileged p).seenEvents.any (Event.goEq · e) = true from h)]
    · rw [if_neg h, if_neg (show ¬ (s.markPrivileged p).seenEvents.any (Event.goEq · e) = true from h)]
      exact update_markPrivileged { s with seenEvents := s.seenEvents ++ [e] } p e.identityID _ _
        fun _ _ => rfl
  | identity i =>
    refine update_markPrivileged s p i.id (mergeIdentity · i) (fun _ => rfl) fun j b => ?_
    unfold mergeIdentity
    cases i.privileged <;> rfl

theorem run_markPrivileged (s : Store) (p : GoString → Bool) (xs : List Op) :
    (s.markPrivileged p).run xs = (s.run xs).markPrivileged p := by
  induction xs generalizing s with
  | nil => rfl
  | cons x xs ih => rw [run_cons, apply_markPrivileged, ih, run_cons]

theorem new_eq_markPrivileged (p : GoString → Bool) : new p = (new fun _ => false).markPrivileged p := by
  ext1
  · funext id
    exact (Bool.false_or _).symm
  · rfl
  · rfl

/-- **The privileged set may come at any time.** A set given when the graph is made leaves what the set
folded in leaves, wherever among the calls it is; folding it in flags the identities it names that are
in the graph, makes none, clears no flag and changes nothing else; and twice is once. -/
theorem markSet_commutes (P : PrivilegedSet) :
    (∀ xs ys, (new P.get).run (xs ++ ys) = (((new fun _ => false).run xs).markSet P).run ys) ∧
    (∀ s : Store, (s.markSet P).nodes =
      s.nodes.map fun i => { i with privileged := i.privileged || P.get i.id }) ∧
    (∀ s : Store, (s.markSet P).seenEvents = s.seenEvents) ∧
    ∀ s : Store, (s.markSet P).markSet P = s.markSet P := by
  refine ⟨?_, ?_, ?_, ?_⟩
  · intro xs ys
    rw [markSet_eq, run_markPrivileged, new_eq_markPrivileged, run_markPrivileged]
    exact congrArg (fun s : Store => s.markPrivileged P.get) List.foldl_append
  · intro s
    rw [markSet_eq]
    rfl
  · intro s
    rw [markSet_eq]
    rfl
  · intro s
    rw [markSet_eq, markSet_eq, markPrivileged_markPrivileged]
    simp only [Bool.or_self]

end Store

end Idryx
