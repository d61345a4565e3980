import Idryx.Lib.Slices

/-!
# Slices that share arrays

What is known of the slices a program has handed out, while the heap under them grows.

* `Held`: slices of a heap to which appending in place is out of the sight of other slices;
* `Fresh`: a slice in an array of its own;
* `Known`, `Later`: the slices handed out so far, and the heap some steps on; `Known.insert`,
  `Later.trans`, **`Later.read`**;
* `mapHeap`: a loop that makes a value of each element; **`mapHeap_spec`**.
-/

namespace Slices

variable {α : Type*}

/-- The slices are those of a heap, and what is appended to one in place is out of the sight of the
slices reported. -/
structure Held (h : Heap α) (reported : List Slice) (ss : List Slice) : Prop where
  wf : ∀ s ∈ ss, WF h s
  safe : ∀ s ∈ ss, ∀ t ∈ reported, Safe s t

/-- The slice lies in no array of the heap. -/
def Fresh (h : Heap α) (s : Slice) : Prop := 0 < s.cap → h.length ≤ s.arr

/-- What is known of a heap: `K` are slices handed out, `N` others of it. -/
structure Known (N : List Slice) (h : Heap α) (K : List Slice) : Prop where
  handed : Held h K K
  others : Held h K N

/-- The heap some steps on: no array of it was written to, and more slices are handed out. -/
structure Later (N : List Slice) (h : Heap α) (K : List Slice) (h' : Heap α) (K' : List Slice) :
    Prop where
  heap : h <+: h'
  subset : K ⊆ K'
  known : Known N h' K'

variable {N K K' K'' : List Slice} {h h' h'' : Heap α} {s t : Slice}

theorem fresh_nil (h : Heap α) : Fresh h nil := fun hpos => absurd hpos (Nat.lt_irrefl 0)

theorem WF.apart_fresh (ht : WF h t) (hs : WF h' s) (hf : Fresh h s) : Safe s t ∧ Safe t s := by
  have hlt := ht.len_le
  have hls := hs.len_le
  constructor
  · intro hroom harr
    by_cases hpos : 0 < t.cap
    · have hin := ht.arr_lt hpos
      have hout := hf (by omega)
      omega
    · omega
  · intro hroom harr
    by_cases hpos : 0 < s.cap
    · have hin := ht.arr_lt (by omega)
      have hout := hf hpos
      omega
    · omega

theorem Held.of_longer {R ss : List Slice} (hs : Held h R ss) (hp : h <+: h') : Held h' R ss :=
  ⟨fun s hss => ((hs.wf s hss).of_longer hp).1, hs.safe⟩

theorem Held.subset {R ss ss' : List Slice} (hs : Held h R ss) (hsub : ss' ⊆ ss) : Held h R ss' :=
  ⟨fun s hss => hs.wf s (hsub hss), fun s hss => hs.safe s (hsub hss)⟩

theorem held_append {R ss ss' : List Slice} :
    Held h R (ss ++ ss') ↔ Held h R ss ∧ Held h R ss' := by
  constructor
  · intro hs
    exact ⟨hs.subset (List.subset_append_left ss ss'), hs.subset (List.subset_append_right ss ss')⟩
  · rintro ⟨hs, hs'⟩
    exact ⟨List.forall_mem_append.mpr ⟨hs.wf, hs'.wf⟩, List.forall_mem_append.mpr ⟨hs.safe, hs'.safe⟩⟩

theorem held_cons {R ss : List Slice} : Held h R (s :: ss) ↔ Held h R [s] ∧ Held h R ss :=
  @held_append α h R [s] ss

theorem Held.insert {R ss : List Slice} (hs : Held h R ss) (hp : h <+: h') (ht : WF h' t)
    (hf : Fresh h t) : Held h' (t :: R) ss := by
  refine ⟨(hs.of_longer hp).wf, fun s hss => ?_⟩
  rw [List.forall_mem_cons]
  exact ⟨((hs.wf s hss).apart_fresh ht hf).2, hs.safe s hss⟩

/-- **A slice in an array of its own is handed out.** -/
theorem Known.insert (hK : Known N h K) (hp : h <+: h') (ht : WF h' t) (hf : Fresh h t) :
    Later N h K h' (t :: K) := by
  refine ⟨hp, List.subset_cons_self t K, ⟨⟨?_, ?_⟩, hK.others.insert hp ht hf⟩⟩
  · rw [List.forall_mem_cons]
    exact ⟨ht, (hK.handed.of_longer hp).wf⟩
  · rw [List.forall_mem_cons]
    refine ⟨?_, (hK.handed.insert hp ht hf).safe⟩
    rw [List.forall_mem_cons]
    exact ⟨fun _ _ => le_rfl, fun s hs => ((hK.handed.wf s hs).apart_fresh ht hf).1⟩

theorem Known.later (hK : Known N h K) : Later N h K h K :=
  ⟨List.prefix_rfl, List.Subset.refl K, hK⟩

theorem Later.trans (h₁ : Later N h K h' K') (h₂ : Later N h' K' h'' K'') : Later N h K h'' K'' :=
  ⟨h₁.heap.trans h₂.heap, List.Subset.trans h₁.subset h₂.subset, h₂.known⟩

/-- **Slices handed out before show what they showed.** -/
theorem Later.read (hl : Later N h K h' K') (hK : Known N h K) (hs : s ∈ K) :
    read h' s = read h s := ((hK.handed.wf s hs).of_longer hl.heap).2

section Fresh

variable [Inhabited α]

theorem fresh_append {grow : Nat → Nat → Nat} (hp : h <+: h') (hf : Fresh h s) (x : α) :
    Fresh h (append grow h' s x).2 := by
  unfold append
  split_ifs with hroom
  · exact fun _ => hf (by omega)
  · exact fun _ => hp.length_le

end Fresh

/-! ## A loop that makes values -/

section Map

variable {β γ δ : Type*}

/-- One value of each element, the heap threaded through. -/
def mapHeap (f : Heap α → β → Heap α × γ) : Heap α → List β → Heap α × List γ
  | h, [] => (h, [])
  | h, x :: xs =>
    let r := f h x
    let rs := mapHeap f r.1 xs
    (rs.1, r.2 :: rs.2)

/-- What a value stands for in a heap does not change while the heap grows. -/
def Stable (N : List Slice) (S : Heap α → List Slice → γ → δ → Prop) : Prop :=
  ∀ ⦃h K h' K'⦄, Known N h K → Later N h K h' K' → ∀ ⦃c d⦄, S h K c d → S h' K' c d

theorem Stable.forall₂ {S : Heap α → List Slice → γ → δ → Prop} (hS : Stable N S) :
    Stable N fun h K => List.Forall₂ (S h K) := fun _ _ _ _ hK hl _ _ hcd => hcd.imp (hS hK hl)

/-- **The loop**, by what one turn makes some steps on. -/
theorem mapHeap_spec {f : Heap α → β → Heap α × γ} {S : Heap α → List Slice → γ → δ → Prop}
    {w : β → δ} (hS : Stable N S) (hK : Known N h K)
    (hf : ∀ ⦃h₁ K₁⦄, Later N h K h₁ K₁ → ∀ x, ∃ K₂, Later N h₁ K₁ (f h₁ x).1 K₂ ∧
      S (f h₁ x).1 K₂ (f h₁ x).2 (w x)) (xs : List β) :
    ∃ K', Later N h K (mapHeap f h xs).1 K' ∧
      List.Forall₂ (S (mapHeap f h xs).1 K') (mapHeap f h xs).2 (xs.map w) := by
  induction xs generalizing h K with
  | nil => exact ⟨K, hK.later, List.Forall₂.nil⟩
  | cons x xs ih =>
    obtain ⟨K₁, hl₁, hx⟩ := hf hK.later x
    obtain ⟨K₂, hl₂, hxs⟩ := ih hl₁.known fun h₁ K₃ hl => hf (hl₁.trans hl)
    exact ⟨K₂, hl₁.trans hl₂, List.Forall₂.cons (hS hl₁.known hl₂ hx) hxs⟩

end Map

end Slices
