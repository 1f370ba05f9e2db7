import Mathlib.Data.List.Basic

/-!
# Ciphers with feedback

A stream is encoded letter by letter; the code of a letter depends on its position
and on the code of the letter before it.  The decoder sees the same code, so it
undoes the encoder as soon as it undoes one letter.
-/

namespace Library

universe u

variable {α : Type u}

/-- Encode from position `i`, where `last` is the code before. -/
def feedbackEncode (f : ℕ → α → α → α) : ℕ → α → List α → List α
  | _, _, [] => []
  | i, last, x :: xs => f i last x :: feedbackEncode f (i + 1) (f i last x) xs

/-- Decode from position `i`, where `last` is the code before. -/
def feedbackDecode (g : ℕ → α → α → α) : ℕ → α → List α → List α
  | _, _, [] => []
  | i, last, y :: ys => g i last y :: feedbackDecode g (i + 1) y ys

variable {f g : ℕ → α → α → α}

/-- **A cipher that can be undone letter by letter can be undone.** -/
theorem feedbackDecode_encode (undo : ∀ i last x, g i last (f i last x) = x) (i : ℕ) (last : α)
    (xs : List α) : feedbackDecode g i last (feedbackEncode f i last xs) = xs := by
  induction xs generalizing i last with
  | nil => rfl
  | cons x xs ih => rw [feedbackEncode, feedbackDecode, undo, ih]

end Library
