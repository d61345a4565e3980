import Mathlib.Data.List.Basic

/-!
# A ring buffer of many writers

A writer reserves a slot, and fills it or gives it up in its own time. One reader takes the slots off in
the order in which they were reserved, and waits at one that is still being written.

* `Slot`, `Ring`, `reserve`, `settle`, `take`: the buffer and what is done to it;
* `Follows`: what was taken, and what stands in the slots, is what the writers put, in the order of their
  reservations; every operation keeps it (`follows_empty`, `Follows.reserve`, `Follows.settle`,
  `Follows.take`);
* **`Follows.taken_prefix`**, **`Follows.taken_of_empty`**: nothing is lost, doubled or overtaken.
-/

namespace RingBuffer

variable {ι α : Type*}

/-- A slot while it is written, once it is submitted, and once it is given up. -/
inductive Slot (α : Type*) where
  | busy
  | ready (v : α)
  | discarded

/-- The slots from the next one to read on, each with its writer, and what was read so far. -/
structure Ring (ι α : Type*) where
  slots : List (ι × Slot α)
  taken : List α

/-- Nothing is reserved and nothing taken. -/
def empty : Ring ι α := ⟨[], []⟩

/-- A writer takes the next slot. -/
def Ring.reserve (i : ι) (r : Ring ι α) : Ring ι α := { r with slots := r.slots ++ [(i, .busy)] }

/-- What a writer leaves in its slot; it gives the slot up if it has nothing to put. -/
def settled : Option α → Slot α
  | some v => .ready v
  | none => .discarded

/-- A writer submits its slot or gives it up. -/
def Ring.settle [DecidableEq ι] (i : ι) (v : Option α) (r : Ring ι α) : Ring ι α :=
  { r with slots := r.slots.map fun p => if p.1 = i then (i, settled v) else p }

/-- The reader takes the next slot off, if it is not being written; there is nothing in a slot given up. -/
def Ring.take (r : Ring ι α) : Option (Option α × Ring ι α) :=
  match r.slots with
  | (_, .ready v) :: rest => some (some v, ⟨rest, r.taken ++ [v]⟩)
  | (_, .discarded) :: rest => some (none, ⟨rest, r.taken⟩)
  | _ => none

/-- Writer `i` puts `put i`, and `order` is the order of the reservations. -/
structure Follows (put : ι → Option α) (order : List ι) (r : Ring ι α) : Prop where
  split : ∃ gone, order = gone ++ r.slots.map Prod.fst ∧ r.taken = gone.filterMap put
  slot : ∀ p ∈ r.slots, p.2 = .busy ∨ p.2 = settled (put p.1)

variable {put put' : ι → Option α} {order : List ι} {r r' : Ring ι α} {i : ι} {v : Option α}

theorem follows_empty (put : ι → Option α) : Follows put [] (empty : Ring ι α) :=
  ⟨⟨[], rfl, rfl⟩, fun _ hp => absurd hp List.not_mem_nil⟩

theorem Follows.congr (h : Follows put order r) (heq : ∀ i ∈ order, put i = put' i) : Follows put' order r := by
  obtain ⟨⟨gone, horder, htaken⟩, hslot⟩ := h
  rw [horder, List.forall_mem_append] at heq
  refine ⟨⟨gone, horder, htaken.trans (List.filterMap_congr heq.1)⟩, fun p hp => ?_⟩
  rw [← heq.2 p.1 (List.mem_map_of_mem hp)]
  exact hslot p hp

theorem Follows.reserve (h : Follows put order r) (i : ι) : Follows put (order ++ [i]) (r.reserve i) := by
  obtain ⟨⟨gone, horder, htaken⟩, hslot⟩ := h
  refine ⟨⟨gone, ?_, htaken⟩, List.forall_mem_append.mpr ⟨hslot, ?_⟩⟩
  · rw [horder, Ring.reserve, List.map_append, List.append_assoc]
    rfl
  · rw [List.forall_mem_singleton]
    exact Or.inl rfl

theorem Follows.settle [DecidableEq ι] (h : Follows put order r) (hv : put i = v) :
    Follows put order (r.settle i v) := by
  obtain ⟨⟨gone, horder, htaken⟩, hslot⟩ := h
  refine ⟨⟨gone, ?_, htaken⟩, List.forall_mem_map.mpr fun p hp => ?_⟩
  · rw [horder, Ring.settle, List.map_map]
    refine congrArg (gone ++ ·) (List.map_congr_left fun p _ => ?_)
    dsimp only [Function.comp_apply]
    split_ifs with hi
    · exact hi
    · rfl
  · split_ifs with hi
    · rw [← hv]
      exact Or.inr rfl
    · exact hslot p hp

theorem taken_take (htake : r.take = some (v, r')) : r'.taken = r.taken ++ v.toList := by
  unfold Ring.take at htake
  split at htake
  case h_1 =>
    obtain ⟨rfl, rfl⟩ := Prod.mk.inj (Option.some.inj htake)
    rfl
  case h_2 =>
    obtain ⟨rfl, rfl⟩ := Prod.mk.inj (Option.some.inj htake)
    exact (List.append_nil _).symm
  case h_3 => cases htake

theorem slots_take (htake : r.take = some (v, r')) : ∃ slot, r.slots = slot :: r'.slots := by
  unfold Ring.take at htake
  split at htake
  case h_1 hslots =>
    obtain ⟨rfl, rfl⟩ := Prod.mk.inj (Option.some.inj htake)
    exact ⟨_, hslots⟩
  case h_2 hslots =>
    obtain ⟨rfl, rfl⟩ := Prod.mk.inj (Option.some.inj htake)
    exact ⟨_, hslots⟩
  case h_3 => cases htake

theorem take_eq_none (hnone : r.take = none) (hne : r.slots ≠ []) : ∃ p ∈ r.slots, p.2 = .busy := by
  unfold Ring.take at hnone
  split at hnone
  case h_1 => cases hnone
  case h_2 => cases hnone
  case h_3 hready hdiscarded =>
    obtain ⟨⟨i, slot⟩, rest, hslots⟩ := List.exists_cons_of_ne_nil hne
    cases slot with
    | busy => exact ⟨_, hslots ▸ List.mem_cons_self, rfl⟩
    | ready v => exact absurd hslots (hready i v rest)
    | discarded => exact absurd hslots (hdiscarded i rest)

theorem mem_settle [DecidableEq ι] {p : ι × Slot α} (hp : p ∈ (r.settle i v).slots) (hbusy : p.2 = .busy) :
    p ∈ r.slots ∧ p.1 ≠ i := by
  obtain ⟨q, hq, rfl⟩ := List.mem_map.mp hp
  split_ifs at hbusy ⊢ with hi
  · cases v <;> cases hbusy
  · exact ⟨hq, hi⟩

theorem Follows.take (h : Follows put order r) (htake : r.take = some (v, r')) : Follows put order r' := by
  obtain ⟨⟨gone, horder, htaken⟩, hslot⟩ := h
  unfold Ring.take at htake
  split at htake
  case h_1 i x rest hslots =>
    rw [Option.some.injEq, Prod.mk.injEq] at htake
    rw [hslots] at horder hslot
    obtain ⟨hhead, hrest⟩ := List.forall_mem_cons.mp hslot
    have hput : put i = some x := by
      cases hi : put i with
      | none => simp [hi, settled] at hhead
      | some y => simpa [hi, settled, eq_comm] using hhead
    rw [← htake.2]
    refine ⟨⟨gone ++ [i], ?_, ?_⟩, hrest⟩
    · rw [horder, List.append_assoc]
      rfl
    · rw [List.filterMap_append, ← htaken, List.filterMap_cons_some hput, List.filterMap_nil]
  case h_2 i rest hslots =>
    rw [Option.some.injEq, Prod.mk.injEq] at htake
    rw [hslots] at horder hslot
    obtain ⟨hhead, hrest⟩ := List.forall_mem_cons.mp hslot
    have hput : put i = none := by
      cases hi : put i with
      | none => rfl
      | some y => simp [hi, settled] at hhead
    rw [← htake.2]
    refine ⟨⟨gone ++ [i], ?_, ?_⟩, hrest⟩
    · rw [horder, List.append_assoc]
      rfl
    · rw [List.filterMap_append, List.filterMap_cons_none hput, List.filterMap_nil, List.append_nil, htaken]
  case h_3 => cases htake

/-- **What was taken** is what was put, from the start on and in the order of the reservations. -/
theorem Follows.taken_prefix (h : Follows put order r) : r.taken <+: order.filterMap put := by
  obtain ⟨gone, horder, htaken⟩ := h.split
  rw [horder, htaken, List.filterMap_append]
  exact List.prefix_append _ _

/-- **All that was put** is taken once the buffer is empty. -/
theorem Follows.taken_of_empty (h : Follows put order r) (hempty : r.slots = []) :
    r.taken = order.filterMap put := by
  obtain ⟨gone, horder, htaken⟩ := h.split
  rw [horder, htaken, hempty, List.map_nil, List.append_nil]

end RingBuffer
