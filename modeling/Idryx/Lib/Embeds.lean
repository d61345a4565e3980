import Mathlib.Data.List.Flatten
import Mathlib.Data.List.Forall2
import Mathlib.Data.List.Perm.Subperm

/-!
# Lists inside lists

`Embeds R xs ys`: every entry of `xs` has one of its own in `ys` that it is related to, whatever the order.

* `Embeds.append`, `embeds_flatMap`, `embeds_filterMap`: what is made of related lists piece by piece;
* `Embeds.perm`: sorting either list.
-/

namespace Embedding

variable {α β γ δ : Type*} {R : γ → δ → Prop} {S : α → β → Prop} {as : List α} {bs : List β}
  {xs xs' : List γ} {ys ys' : List δ}

/-- Some of `ys`, each taken once, are related to the entries of `xs` in turn. -/
def Embeds (R : γ → δ → Prop) (xs : List γ) (ys : List δ) : Prop := ∃ zs, zs.Subperm ys ∧ List.Forall₂ R xs zs

theorem embeds_of_forall₂ (h : List.Forall₂ R xs ys) : Embeds R xs ys := ⟨ys, List.Subperm.refl ys, h⟩

theorem embeds_refl {R : γ → γ → Prop} (hR : ∀ x, R x x) (xs : List γ) : Embeds R xs xs :=
  embeds_of_forall₂ (List.forall₂_same.mpr fun x _ => hR x)

theorem Embeds.append (h : Embeds R xs ys) (h' : Embeds R xs' ys') : Embeds R (xs ++ xs') (ys ++ ys') := by
  obtain ⟨zs, hsub, hzs⟩ := h
  obtain ⟨zs', hsub', hzs'⟩ := h'
  exact ⟨zs ++ zs', hsub.append hsub', List.rel_append hzs hzs'⟩

theorem Embeds.perm (h : Embeds R xs ys) (hx : xs'.Perm xs) (hy : ys.Perm ys') : Embeds R xs' ys' := by
  obtain ⟨zs, hsub, hzs⟩ := h
  obtain ⟨zs', hzs', hperm⟩ := List.perm_comp_forall₂ hx hzs
  exact ⟨zs', hperm.subperm.trans (hsub.trans hy.subperm), hzs'⟩

theorem embeds_flatMap_of_forall₂ (h : List.Forall₂ S as bs) {f : α → List γ} {g : β → List δ}
    (hfg : ∀ a b, S a b → Embeds R (f a) (g b)) : Embeds R (as.flatMap f) (bs.flatMap g) := by
  induction h with
  | nil => exact ⟨[], List.Subperm.refl [], List.Forall₂.nil⟩
  | @cons a b as bs hab _ ih =>
    rw [List.flatMap_cons, List.flatMap_cons]
    exact (hfg a b hab).append ih

theorem embeds_flatMap (h : Embeds S as bs) {f : α → List γ} {g : β → List δ}
    (hfg : ∀ a b, S a b → Embeds R (f a) (g b)) : Embeds R (as.flatMap f) (bs.flatMap g) := by
  obtain ⟨zs, ⟨l, hl, hsub⟩, hzs⟩ := h
  obtain ⟨ws, hws, hR⟩ := embeds_flatMap_of_forall₂ hzs hfg
  have hpieces : (zs.flatMap g).Subperm (bs.flatMap g) := ⟨l.flatMap g, hl.flatMap_right g, hsub.flatMap g⟩
  exact ⟨ws, hws.trans hpieces, hR⟩

theorem embeds_filterMap (h : Embeds S as bs) {f : α → Option γ} {g : β → Option δ}
    (hfg : ∀ a b, S a b → ∀ x, f a = some x → ∃ y, g b = some y ∧ R x y) :
    Embeds R (as.filterMap f) (bs.filterMap g) := by
  have hone : ∀ a b, S a b → Embeds R (f a).toList (g b).toList := by
    intro a b hab
    cases hfa : f a with
    | none => exact ⟨[], List.nil_subperm, List.Forall₂.nil⟩
    | some x =>
      obtain ⟨y, hy, hxy⟩ := hfg a b hab x hfa
      rw [hy]
      exact embeds_of_forall₂ (List.Forall₂.cons hxy List.Forall₂.nil)
  rw [List.filterMap_eq_flatMap_toList, List.filterMap_eq_flatMap_toList]
  exact embeds_flatMap h hone

theorem embeds_map {as : List γ} {f : γ → δ} (h : ∀ a, R a (f a)) : Embeds R as (as.map f) :=
  embeds_of_forall₂ (List.forall₂_map_right_iff.mpr (List.forall₂_same.mpr fun a _ => h a))

end Embedding
