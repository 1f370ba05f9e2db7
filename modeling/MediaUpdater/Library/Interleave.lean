import Mathlib.Tactic.Common

/-!
# Interleavings

Two sequences of events of which nobody says how they are mixed.

## Main result

* `Interleave.reaches` — what the next event of either sequence preserves, whatever is left of the
  other one, holds after every interleaving.
-/

namespace Library

universe u v

variable {α : Type u} {σ : Type v}

/-- The third list mixes the first two, each in its own order. -/
inductive Interleave : List α → List α → List α → Prop
  | nil : Interleave [] [] []
  | left (a : α) {xs ys zs : List α} (rest : Interleave xs ys zs) :
      Interleave (a :: xs) ys (a :: zs)
  | right (a : α) {xs ys zs : List α} (rest : Interleave xs ys zs) :
      Interleave xs (a :: ys) (a :: zs)

namespace Interleave

variable {xs ys zs : List α}

theorem append (xs ys : List α) : Interleave xs ys (xs ++ ys) := by
  induction xs with
  | nil =>
      induction ys with
      | nil => exact .nil
      | cons y ys ih => exact .right y ih
  | cons x xs ih => exact .left x ih

/-- **The rule of interleaving.**  `Inv xs ys` speaks of the states in which `xs` and `ys` are still
to come, `Path s es t` says that the events `es` lead from `s` to `t`. -/
theorem reaches (Path : σ → List α → σ → Prop) (Inv : List α → List α → σ → Prop)
    (refl : ∀ s, Path s [] s)
    (cons : ∀ {s a t es u}, Path s [a] t → Path t es u → Path s (a :: es) u)
    (left : ∀ a xs ys s, Inv (a :: xs) ys s → ∃ t, Path s [a] t ∧ Inv xs ys t)
    (right : ∀ a xs ys s, Inv xs (a :: ys) s → ∃ t, Path s [a] t ∧ Inv xs ys t)
    (mixed : Interleave xs ys zs) {s : σ} (start : Inv xs ys s) :
    ∃ t, Path s zs t ∧ Inv [] [] t := by
  induction mixed generalizing s with
  | nil => exact ⟨s, refl s, start⟩
  | left a _ ih =>
      obtain ⟨u, first, kept⟩ := left _ _ _ _ start
      obtain ⟨t, later, done⟩ := ih kept
      exact ⟨t, cons first later, done⟩
  | right a _ ih =>
      obtain ⟨u, first, kept⟩ := right _ _ _ _ start
      obtain ⟨t, later, done⟩ := ih kept
      exact ⟨t, cons first later, done⟩

end Interleave

end Library
