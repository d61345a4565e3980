import Mathlib.Data.List.Basic
import Mathlib.Data.List.Infix
import Mathlib.Data.List.Forall2

/-!
# Glob patterns

A pattern is a list of tokens: a star, which matches any list, or one letter out of a set.

* `Matches`, and `isMatch`, which decides it;
* `matches_append`, `matches_ones`, **`matches_ones_star`**: a pattern that ends in its only star
  matches the lists with a prefix of its letters.
-/

namespace Glob

variable {α : Type*}

/-- A token: any list of letters, or one letter that passes a test. -/
inductive Token (α : Type*) where
  | star
  | one (p : α → Bool)

/-- The whole of `xs` matches the pattern. -/
def Matches : List (Token α) → List α → Prop
  | [], xs => xs = []
  | .star :: ts, xs => ∃ ys zs, xs = ys ++ zs ∧ Matches ts zs
  | .one p :: ts, xs => ∃ x zs, xs = x :: zs ∧ p x = true ∧ Matches ts zs

/-- A match, by trying every tail at a star. -/
def isMatch : List (Token α) → List α → Bool
  | [], xs => xs.isEmpty
  | .star :: ts, xs => xs.tails.any (isMatch ts)
  | .one _ :: _, [] => false
  | .one p :: ts, x :: xs => p x && isMatch ts xs

theorem isMatch_iff : ∀ (ts : List (Token α)) (xs : List α), isMatch ts xs = true ↔ Matches ts xs
  | [], xs => by simp [isMatch, Matches]
  | .star :: ts, xs => by
    simp only [isMatch, Matches, List.any_eq_true, List.mem_tails, isMatch_iff ts]
    constructor
    · rintro ⟨zs, ⟨ys, rfl⟩, h⟩
      exact ⟨ys, zs, rfl, h⟩
    · rintro ⟨ys, zs, rfl, h⟩
      exact ⟨zs, ⟨ys, rfl⟩, h⟩
  | .one p :: ts, [] => by simp [isMatch, Matches]
  | .one p :: ts, x :: xs => by
    simp only [isMatch, Matches, Bool.and_eq_true, isMatch_iff ts]
    constructor
    · rintro ⟨hx, h⟩
      exact ⟨x, xs, rfl, hx, h⟩
    · rintro ⟨y, ys, h, hy, hys⟩
      obtain ⟨rfl, rfl⟩ := List.cons.inj h
      exact ⟨hy, hys⟩

instance (ts : List (Token α)) (xs : List α) : Decidable (Matches ts xs) :=
  decidable_of_iff _ (isMatch_iff ts xs)

theorem matches_append {ts us : List (Token α)} {xs : List α} :
    Matches (ts ++ us) xs ↔ ∃ ys zs, xs = ys ++ zs ∧ Matches ts ys ∧ Matches us zs := by
  induction ts generalizing xs with
  | nil => simp [Matches]
  | cons t ts ih =>
    cases t with
    | star =>
      simp only [List.cons_append, Matches, ih]
      constructor
      · rintro ⟨ws, -, rfl, ys, zs, rfl, hys, hzs⟩
        exact ⟨ws ++ ys, zs, by simp, ⟨ws, ys, rfl, hys⟩, hzs⟩
      · rintro ⟨-, zs, rfl, ⟨ws, ys, rfl, hys⟩, hzs⟩
        exact ⟨ws, ys ++ zs, by simp, ys, zs, rfl, hys, hzs⟩
    | one p =>
      simp only [List.cons_append, Matches, ih]
      constructor
      · rintro ⟨x, -, rfl, hx, ys, zs, rfl, hys, hzs⟩
        exact ⟨x :: ys, zs, rfl, ⟨x, ys, rfl, hx, hys⟩, hzs⟩
      · rintro ⟨-, zs, rfl, ⟨x, ys, rfl, hx, hys⟩, hzs⟩
        exact ⟨x, ys ++ zs, rfl, hx, ys, zs, rfl, hys, hzs⟩

theorem matches_ones {ps : List (α → Bool)} {xs : List α} :
    Matches (ps.map .one) xs ↔ List.Forall₂ (fun p x => p x = true) ps xs := by
  induction ps generalizing xs with
  | nil => simp [Matches]
  | cons p ps ih =>
    simp only [List.map_cons, Matches, ih, List.forall₂_cons_left_iff]
    constructor
    · rintro ⟨x, zs, rfl, hx, h⟩
      exact ⟨x, zs, hx, h, rfl⟩
    · rintro ⟨x, zs, hx, h, rfl⟩
      exact ⟨x, zs, rfl, hx, h⟩

/-- **A pattern that ends in its only star** matches the lists its letters are a prefix of. -/
theorem matches_ones_star {ps : List (α → Bool)} {xs : List α} :
    Matches (ps.map .one ++ [.star]) xs ↔
      ∃ ys, ys <+: xs ∧ List.Forall₂ (fun p x => p x = true) ps ys := by
  rw [matches_append]
  constructor
  · rintro ⟨ys, zs, rfl, hys, -⟩
    exact ⟨ys, List.prefix_append ys zs, matches_ones.mp hys⟩
  · rintro ⟨ys, ⟨zs, rfl⟩, hys⟩
    exact ⟨ys, zs, rfl, matches_ones.mpr hys, zs, [], by simp, rfl⟩

end Glob
