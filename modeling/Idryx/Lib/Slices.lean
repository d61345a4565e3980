import Idryx.Lib.Groups
import Mathlib.Data.List.GetD
import Mathlib.Data.List.Infix

/-!
# Slices

Go's slices over a heap of arrays: a slice is an array, a length and a capacity, and appending to it
writes into the array while there is room.

* `Slice`, `read`, `alloc`, `append`; `WF`: a slice of the heap;
* `Safe s t`: what is appended to `s` in place is out of the sight of `t`;
* `Grown`: appending to a slice keeps what every safe slice shows; **`append_grown`**, `alloc_grown`;
* `appendNew`: the elements of a slice that another lacks, appended to it; **`appendNew_spec`**.
-/

namespace Slices

/-- The arrays by address. -/
abbrev Heap (α : Type*) : Type _ := List (List α)

/-- An array, how much of it is shown, and how much may be used. -/
structure Slice where
  arr : Nat
  len : Nat
  cap : Nat
  deriving DecidableEq

/-- The nil slice. -/
def nil : Slice := ⟨0, 0, 0⟩

variable {α : Type*}

/-- The array at an address. -/
def array (h : Heap α) (a : Nat) : List α := h.getD a []

/-- The elements of a slice. -/
def read (h : Heap α) (s : Slice) : List α := (array h s.arr).take s.len

variable [Inhabited α]

/-- A new array of capacity `c`, or of a larger one if the elements need it. -/
def alloc (c : Nat) (h : Heap α) (xs : List α) : Heap α × Slice :=
  (h ++ [xs ++ List.replicate (c - xs.length) default], ⟨h.length, xs.length, max c xs.length⟩)

/-- `append` of one element: in place while there is room, or else in a new array whose capacity `grow`
chooses by the old capacity and the length needed. -/
def append (grow : Nat → Nat → Nat) (h : Heap α) (s : Slice) (x : α) : Heap α × Slice :=
  if s.len < s.cap then (h.modify s.arr (·.set s.len x), { s with len := s.len + 1 })
  else alloc (grow s.cap (s.len + 1)) h (read h s ++ [x])

/-- A growth that doubles the capacity, as Go's does for short slices. -/
def doubling (cap _needed : Nat) : Nat := 2 * cap

/-- The slice lies within its array. -/
structure WF (h : Heap α) (s : Slice) : Prop where
  len_le : s.len ≤ s.cap
  cap_le : s.cap ≤ (array h s.arr).length

omit [Inhabited α] in
theorem wf_iff {h : Heap α} {s : Slice} : WF h s ↔ s.len ≤ s.cap ∧ s.cap ≤ (array h s.arr).length :=
  ⟨fun hs => ⟨hs.len_le, hs.cap_le⟩, fun hs => ⟨hs.1, hs.2⟩⟩

instance (h : Heap α) (s : Slice) : Decidable (WF h s) := decidable_of_iff _ wf_iff.symm

/-- What is appended to `s` in place is not shown by `t`. -/
def Safe (s t : Slice) : Prop := s.len < s.cap → t.arr = s.arr → t.len ≤ s.len

/-- `s'` in `h'` comes of appending to `s` in `h`: what other slices show stays, if that was safe. -/
structure Grown (h : Heap α) (s : Slice) (h' : Heap α) (s' : Slice) : Prop where
  wf : WF h' s'
  keeps : ∀ t, WF h t → Safe s t → WF h' t ∧ read h' t = read h t ∧ Safe s' t

section Lemmas

omit [Inhabited α]

variable {h h' : Heap α} {s s' t : Slice}

theorem wf_nil (h : Heap α) : WF h nil := ⟨le_rfl, Nat.zero_le _⟩

theorem WF.arr_lt (hs : WF h s) (hpos : 0 < s.cap) : s.arr < h.length := by
  by_contra hge
  have hcap := hs.cap_le
  rw [array, List.getD_eq_default _ _ (by omega), List.length_nil] at hcap
  omega

theorem length_read (hs : WF h s) : (read h s).length = s.len := by
  have hlen := hs.len_le
  have hcap := hs.cap_le
  rw [read, List.length_take]
  omega

theorem Grown.refl (hs : WF h s) : Grown h s h s := ⟨hs, fun _ ht hsafe => ⟨ht, rfl, hsafe⟩⟩

theorem Grown.trans {h'' : Heap α} {s'' : Slice} (h₁ : Grown h s h' s') (h₂ : Grown h' s' h'' s'') :
    Grown h s h'' s'' where
  wf := h₂.wf
  keeps t ht hsafe := by
    obtain ⟨ht', hread, hsafe'⟩ := h₁.keeps t ht hsafe
    obtain ⟨ht'', hread', hsafe''⟩ := h₂.keeps t ht' hsafe'
    exact ⟨ht'', hread'.trans hread, hsafe''⟩

/-! ## Longer heaps -/

theorem array_of_longer (hp : h <+: h') {a : Nat} (ha : a < h.length) : array h' a = array h a := by
  obtain ⟨r, rfl⟩ := hp
  unfold array
  rw [List.getD_append _ _ _ _ ha]

theorem WF.of_longer (hs : WF h s) (hp : h <+: h') : WF h' s ∧ read h' s = read h s := by
  by_cases hpos : 0 < s.cap
  · have harr := array_of_longer hp (hs.arr_lt hpos)
    refine ⟨⟨hs.len_le, ?_⟩, ?_⟩
    · rw [harr]
      exact hs.cap_le
    · rw [read, read, harr]
  · have hlen := hs.len_le
    have hzero : s.len = 0 := by omega
    exact ⟨⟨by omega, by omega⟩, by rw [read, read, hzero, List.take_zero, List.take_zero]⟩

end Lemmas

/-! ## Appending -/

variable {h : Heap α} {s t : Slice} {grow : Nat → Nat → Nat}

theorem array_alloc (c : Nat) (h : Heap α) (xs : List α) :
    array (alloc c h xs).1 h.length = xs ++ List.replicate (c - xs.length) default := by
  simp [array, alloc]

theorem read_alloc (c : Nat) (h : Heap α) (xs : List α) :
    read (alloc c h xs).1 (alloc c h xs).2 = xs := by
  have harr : (alloc c h xs).2 = ⟨h.length, xs.length, max c xs.length⟩ := rfl
  rw [harr, read, array_alloc, List.take_left]

/-- **A new array keeps what every slice shows**, whatever slice it takes the place of. -/
theorem alloc_grown (s : Slice) (c : Nat) (h : Heap α) (xs : List α) :
    Grown h s (alloc c h xs).1 (alloc c h xs).2 := by
  refine ⟨⟨Nat.le_max_right c xs.length, ?_⟩, fun t ht _ => ?_⟩
  · show max c xs.length ≤ (array (alloc c h xs).1 h.length).length
    rw [array_alloc, List.length_append, List.length_replicate]
    omega
  · obtain ⟨ht', hread⟩ := ht.of_longer (List.prefix_append h _ : h <+: (alloc c h xs).1)
    refine ⟨ht', hread, fun _ harr => ?_⟩
    -- no slice of the old heap lies in the new array
    have hlen := ht.len_le
    by_cases hpos : 0 < t.cap
    · have hlt := ht.arr_lt hpos
      have harr' : t.arr = h.length := harr
      omega
    · omega

omit [Inhabited α] in
theorem array_modify (h : Heap α) (a b : Nat) (f : List α → List α) (hf : f [] = []) :
    array (h.modify a f) b = if a = b then f (array h b) else array h b := by
  unfold array
  rw [List.getD_eq_getElem?_getD, List.getElem?_modify, List.getD_eq_getElem?_getD]
  cases h[b]? with
  | none => simp [hf]
  | some xs => split_ifs <;> simp

omit [Inhabited α] in
theorem array_set (h : Heap α) (a b n : Nat) (x : α) :
    array (h.modify a (·.set n x)) b = if a = b then (array h b).set n x else array h b :=
  array_modify h a b (·.set n x) rfl

/-- **Appending keeps what every safe slice shows.** -/
theorem append_grown (hs : WF h s) (x : α) :
    Grown h s (append grow h s x).1 (append grow h s x).2 := by
  unfold append
  split_ifs with hroom
  · have hlength : ∀ a, (array (h.modify s.arr (·.set s.len x)) a).length = (array h a).length := by
      intro a
      rw [array_set]
      split_ifs
      · exact List.length_set
      · rfl
    refine ⟨⟨hroom, ?_⟩, fun t ht hsafe => ⟨⟨ht.len_le, ?_⟩, ?_, fun _ harr => ?_⟩⟩
    · show s.cap ≤ (array (h.modify s.arr (·.set s.len x)) s.arr).length
      rw [hlength]
      exact hs.cap_le
    · show t.cap ≤ (array (h.modify s.arr (·.set s.len x)) t.arr).length
      rw [hlength]
      exact ht.cap_le
    · show (array (h.modify s.arr (·.set s.len x)) t.arr).take t.len = (array h t.arr).take t.len
      rw [array_set]
      split_ifs with harr
      · exact List.take_set_of_le (hsafe hroom harr.symm)
      · rfl
    · exact Nat.le_succ_of_le (hsafe hroom harr)
  · exact alloc_grown s _ h _

/-- **Appending appends.** -/
theorem read_append (hs : WF h s) (x : α) :
    read (append grow h s x).1 (append grow h s x).2 = read h s ++ [x] := by
  unfold append
  split_ifs with hroom
  · have hcap := hs.cap_le
    show (array (h.modify s.arr (·.set s.len x)) s.arr).take (s.len + 1) = _
    rw [array_set, if_pos rfl, List.take_add_one, List.take_set_of_le le_rfl, List.getElem?_set_self (by omega)]
    rfl
  · exact read_alloc _ h _

theorem append_longer {h₀ : Heap α} (hp : h₀ <+: h) (hnew : 0 < s.cap → h₀.length ≤ s.arr) (x : α) :
    h₀ <+: (append grow h s x).1 := by
  unfold append
  split_ifs with hroom
  · rw [List.prefix_iff_getElem?] at hp ⊢
    intro i hi
    have hne : s.arr ≠ i := by
      have hle := hnew (by omega)
      omega
    show (h.modify s.arr (·.set s.len x))[i]? = _
    rw [List.getElem?_modify, hp i hi]
    simp [hne]
  · exact hp.trans (List.prefix_append h _)

/-! ## Appending what is new -/

variable [DecidableEq α]

/-- An element of a slice, as it is read by its index. -/
def elem (h : Heap α) (s : Slice) (i : Nat) : α := (array h s.arr).getD i default

/-- One turn of the loop over `inn`: what was not seen is appended to `dst`. -/
def appendNewStep (grow : Nat → Nat → Nat) (inn : Slice) (st : Heap α × Slice × List α) (i : Nat) :
    Heap α × Slice × List α :=
  let a := elem st.1 inn i
  if a ∈ st.2.2 then st
  else ((append grow st.1 st.2.1 a).1, (append grow st.1 st.2.1 a).2, st.2.2 ++ [a])

/-- The elements of `inn` that `dst` lacks, appended to it one by one. -/
def appendNew (grow : Nat → Nat → Nat) (h : Heap α) (dst inn : Slice) : Heap α × Slice :=
  let st := (List.range inn.len).foldl (appendNewStep grow inn) (h, dst, read h dst)
  (st.1, st.2.1)

omit [DecidableEq α] in
theorem read_eq_map_elem (hs : WF h s) : read h s = (List.range s.len).map (elem h s) := by
  have hlen := length_read hs
  have hcap := hs.cap_le
  have hle := hs.len_le
  refine List.ext_getElem (by simp [hlen]) fun i hi hi' => ?_
  rw [List.getElem_map, List.getElem_range, elem, List.getD_eq_getElem _ _ (by omega)]
  simp [read]

/-- **The loop**: it appends to `dst` what it lacks of `inn`, and keeps what every safe slice shows. -/
theorem appendNew_spec {dst inn : Slice} (hd : WF h dst) (hi : WF h inn) (hsafe : Safe dst inn) :
    Grown h dst (appendNew grow h dst inn).1 (appendNew grow h dst inn).2 ∧
      read (appendNew grow h dst inn).1 (appendNew grow h dst inn).2 =
        (read h inn).foldl Groups.insertMember (read h dst) := by
  have hrun : ∀ (is : List Nat) (h' : Heap α) (dst' : Slice), (∀ i ∈ is, i < inn.len) →
      Grown h dst h' dst' →
      Grown h dst (is.foldl (appendNewStep grow inn) (h', dst', read h' dst')).1
          (is.foldl (appendNewStep grow inn) (h', dst', read h' dst')).2.1 ∧
        read (is.foldl (appendNewStep grow inn) (h', dst', read h' dst')).1
            (is.foldl (appendNewStep grow inn) (h', dst', read h' dst')).2.1 =
          (is.map (elem h inn)).foldl Groups.insertMember (read h' dst') := by
    intro is
    induction is with
    | nil => exact fun h' dst' _ hg => ⟨hg, rfl⟩
    | cons i is ih =>
      intro h' dst' hlt hg
      rw [List.forall_mem_cons] at hlt
      -- the slice ranged over still shows what it showed
      have helem : elem h' inn i = elem h inn i := by
        obtain ⟨hi', hread, -⟩ := hg.keeps inn hi hsafe
        rw [read_eq_map_elem hi, read_eq_map_elem hi', List.map_inj_left] at hread
        exact hread i (List.mem_range.mpr hlt.1)
      rw [List.foldl_cons, List.map_cons, List.foldl_cons]
      unfold appendNewStep Groups.insertMember
      dsimp only
      rw [helem]
      split_ifs with hseen
      · exact ih h' dst' hlt.2 hg
      · have happ : read (append grow h' dst' (elem h inn i)).1 (append grow h' dst' (elem h inn i)).2 =
            read h' dst' ++ [elem h inn i] := read_append hg.wf _
        rw [← happ]
        exact ih _ _ hlt.2 (hg.trans (append_grown hg.wf _))
  have hall := hrun (List.range inn.len) h dst (fun i hi => List.mem_range.mp hi) (Grown.refl hd)
  rw [read_eq_map_elem hi]
  exact hall

theorem appendNew_eq_self {dst inn : Slice} (hi : WF h inn) (hsub : ∀ a ∈ read h inn, a ∈ read h dst) :
    appendNew grow h dst inn = (h, dst) := by
  have hrun : ∀ is : List Nat, (∀ i ∈ is, i < inn.len) →
      is.foldl (appendNewStep grow inn) (h, dst, read h dst) = (h, dst, read h dst) := by
    intro is
    induction is with
    | nil => exact fun _ => rfl
    | cons i is ih =>
      intro hlt
      rw [List.forall_mem_cons] at hlt
      have hmem : elem h inn i ∈ read h dst := by
        refine hsub _ ?_
        rw [read_eq_map_elem hi]
        exact List.mem_map_of_mem (List.mem_range.mpr hlt.1)
      have hstep : appendNewStep grow inn (h, dst, read h dst) i = (h, dst, read h dst) := if_pos hmem
      rw [List.foldl_cons, hstep]
      exact ih hlt.2
  unfold appendNew
  rw [hrun _ fun i hi => List.mem_range.mp hi]

end Slices
