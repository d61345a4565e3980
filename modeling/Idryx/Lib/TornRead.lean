import Mathlib.Data.List.Basic

/-!
# Reading a state part by part

A reader reads the parts of a state one after another, each as it is when its turn comes, while
others write. `same k` says that two states have the same part `k`.

* `Act`, `step`, `run`: the interleavings of writes and reads;
* `Writes`: what every write of a run does in the state it finds;
* **`same_of_quiet`**: if up to some moment no write changes a part already read, and after it none
  changes a part still to be read, then all parts read are those of that moment.
-/

namespace TornRead

variable {δ ω : Type*} (write : δ → ω → δ) (same : Nat → δ → δ → Prop)

/-- A write commits, or the next part is read. -/
inductive Act (ω : Type*) where
  | write (w : ω)
  | read

/-- The state now, the states that were read, in order, and all states so far. -/
structure State (δ : Type*) where
  now : δ
  seen : List δ
  past : List δ

/-- Nothing is read yet. -/
def State.start (d : δ) : State δ := ⟨d, [], [d]⟩

/-- What an act does. -/
def step (s : State δ) : Act ω → State δ
  | .write w => ⟨write s.now w, s.seen, s.past ++ [write s.now w]⟩
  | .read => ⟨s.now, s.seen ++ [s.now], s.past⟩

/-- A sequence of acts. -/
def run (s : State δ) (acts : List (Act ω)) : State δ := acts.foldl (step write) s

theorem run_append (s : State δ) (xs ys : List (Act ω)) :
    run write s (xs ++ ys) = run write (run write s xs) ys := List.foldl_append ..

theorem now_mem_past {s : State δ} (h : s.now ∈ s.past) (acts : List (Act ω)) :
    (run write s acts).now ∈ (run write s acts).past := by
  induction acts generalizing s with
  | nil => exact h
  | cons a acts ih =>
    refine ih ?_
    cases a with
    | write w => exact List.mem_append_right _ (List.mem_singleton_self _)
    | read => exact h

theorem past_subset_run (s : State δ) (acts : List (Act ω)) :
    s.past ⊆ (run write s acts).past := by
  induction acts generalizing s with
  | nil => exact List.Subset.refl _
  | cons a acts ih =>
    refine List.Subset.trans ?_ (ih _)
    cases a with
    | write w => exact List.subset_append_left _ _
    | read => exact List.Subset.refl _

/-- Every write of a run meets `P` in the state that it finds. -/
def Writes (P : State δ → ω → Prop) : State δ → List (Act ω) → Prop
  | _, [] => True
  | s, .write w :: acts => P s w ∧ Writes P (step write s (.write w)) acts
  | s, .read :: acts => Writes P (step write s .read) acts

/-- A write that changes no part already read. -/
def SparesRead (s : State δ) (w : ω) : Prop := ∀ k < s.seen.length, same k s.now (write s.now w)

/-- A write that changes no part still to be read. -/
def SparesUnread (s : State δ) (w : ω) : Prop :=
  ∀ k, s.seen.length ≤ k → same k s.now (write s.now w)

/-- What was read is still there. -/
def Fresh (d : δ) (s : State δ) : Prop := ∀ k e, s.seen[k]? = some e → same k e d

variable {write same}

theorem fresh_read {s : State δ} {d : δ} (h : Fresh same d s)
    (hd : same s.seen.length s.now d) : Fresh same d (step write s .read) := by
  intro k e he
  change (s.seen ++ [s.now])[k]? = some e at he
  by_cases hk : k < s.seen.length
  · rw [List.getElem?_append_left hk] at he
    exact h k e he
  · rw [List.getElem?_append_right (Nat.not_lt.mp hk), List.getElem?_singleton] at he
    split_ifs at he with hz
    rw [Option.some.injEq] at he
    have hlen : k = s.seen.length := by omega
    rw [hlen, ← he]
    exact hd

variable (heq : ∀ k, Equivalence (same k))

include heq in
theorem fresh_before {s : State δ} (h : Fresh same s.now s) {acts : List (Act ω)}
    (hw : Writes write (SparesRead write same) s acts) :
    Fresh same (run write s acts).now (run write s acts) := by
  induction acts generalizing s with
  | nil => exact h
  | cons a acts ih =>
    cases a with
    | write w =>
      refine ih (fun k e he => ?_) hw.2
      have hk : k < s.seen.length := (List.getElem?_eq_some_iff.mp he).1
      exact (heq k).trans (h k e he) (hw.1 k hk)
    | read => exact ih (fresh_read h ((heq _).refl _)) hw

include heq in
theorem fresh_after {s : State δ} {d : δ} (h : Fresh same d s)
    (hrest : ∀ k, s.seen.length ≤ k → same k s.now d) {acts : List (Act ω)}
    (hw : Writes write (SparesUnread write same) s acts) :
    Fresh same d (run write s acts) := by
  induction acts generalizing s with
  | nil => exact h
  | cons a acts ih =>
    cases a with
    | write w =>
      refine ih h (fun k hk => ?_) hw.2
      exact (heq k).trans ((heq k).symm (hw.1 k hk)) (hrest k hk)
    | read =>
      refine ih (fresh_read h (hrest _ (Nat.le_refl _))) (fun k hk => hrest k ?_) hw
      change (s.seen ++ [s.now]).length ≤ k at hk
      rw [List.length_append] at hk
      omega

include heq in
/-- **Parts read around a moment that no write straddles are the parts of that moment.** -/
theorem same_of_quiet (d : δ) {before after : List (Act ω)}
    (hb : Writes write (SparesRead write same) (State.start d) before)
    (ha : Writes write (SparesUnread write same) (run write (State.start d) before) after) :
    Fresh same (run write (State.start d) before).now
      (run write (State.start d) (before ++ after)) := by
  rw [run_append]
  refine fresh_after heq (fresh_before heq ?_ hb) (fun k _ => (heq k).refl _) ha
  intro k e he
  cases he

end TornRead
