import Mathlib.Data.List.Nodup
import Mathlib.Data.List.Sort

/-!
# The newest entries of a list

A retention rule keeps the `k` newest entries of a list, whatever else it does with
the rest.  `NewestFirst` is the sort that decides which entries these are: it need not be
stable, so entries of one age are told apart by the sort alone.
-/

namespace Library

universe u v

/-- A sort by descending `key`. -/
structure NewestFirst {α : Type u} {T : Type v} [LinearOrder T] (key : α → T) where
  sort : List α → List α
  perm (l : List α) : (sort l).Perm l
  sorted (l : List α) : (sort l).Pairwise fun a b => key b ≤ key a

namespace NewestFirst

variable {α : Type u} {T : Type v} [LinearOrder T] {key : α → T}

/-- The stable sort. -/
def stable (key : α → T) : NewestFirst key where
  sort l := l.insertionSort fun a b => key b ≤ key a
  perm l := List.perm_insertionSort _ l
  sorted l := by
    have total : Std.Total fun a b : α => key b ≤ key a := ⟨fun a b => le_total _ _⟩
    have trans : IsTrans α fun a b => key b ≤ key a := ⟨fun _ _ _ ab bc => bc.trans ab⟩
    exact List.pairwise_insertionSort _ l

variable (order : NewestFirst key) (k : ℕ) (l : List α)

/-- The `k` newest entries. -/
def newest : List α := (order.sort l).take k

/-- The other entries, newest first. -/
def older : List α := (order.sort l).drop k

variable {k l} {a b : α}

theorem newest_append_older : (order.newest k l ++ order.older k l).Perm l := by
  rw [newest, older, List.take_append_drop]
  exact order.perm l

theorem length_newest : (order.newest k l).length = min k l.length := by
  rw [newest, List.length_take, (order.perm l).length_eq]

theorem mem_of_mem_newest (mem : a ∈ order.newest k l) : a ∈ l :=
  (order.perm l).mem_iff.mp (List.mem_of_mem_take mem)

theorem newest_nodup (nodup : l.Nodup) : (order.newest k l).Nodup :=
  ((order.perm l).nodup_iff.mpr nodup).sublist (List.take_sublist _ _)

/-- Without repetition an entry is either one of the newest or one of the others. -/
theorem mem_older (nodup : l.Nodup) : a ∈ order.older k l ↔ a ∈ l ∧ a ∉ order.newest k l := by
  have split : (order.newest k l ++ order.older k l).Nodup :=
    order.newest_append_older.nodup_iff.mpr nodup
  have members : a ∈ l ↔ a ∈ order.newest k l ∨ a ∈ order.older k l := by
    rw [← List.mem_append, order.newest_append_older.mem_iff]
  rw [members]
  constructor
  · intro mem
    exact ⟨.inr mem, fun mem' => List.disjoint_of_nodup_append split mem' mem⟩
  · rintro ⟨either, notNewest⟩
    exact either.resolve_left notNewest

/-- **No other entry is newer than one of the newest.** -/
theorem key_le (mem : a ∈ order.newest k l) (mem' : b ∈ order.older k l) : key b ≤ key a := by
  have sorted := order.sorted l
  rw [← List.take_append_drop k (order.sort l)] at sorted
  exact (List.pairwise_append.mp sorted).2.2 a mem b mem'

end NewestFirst

end Library
