import Mathlib.Data.List.Basic
import Mathlib.Tactic.Common

/-!
# Streams of lines

A stream arrives in packets that know nothing of its lines.  `complete` divides what has
arrived into the lines that have their end and the rest.  A reader takes one complete line
after another and may stop at a line; `feed` is what it does when a packet arrives.

## Main results

* `complete_append` — what a packet completes depends on the rest alone.
* `foldl_feed` — as long as the reader does not stop, the packets do not matter.
-/

namespace Library.Lines

universe u v

variable {α : Type u} {σ : Type v}

/-! ### Lines and packets -/

section Packets

variable [DecidableEq α] {stop : α}

/-- The complete lines, each with its end, and the rest. -/
def complete (stop : α) : List α → List (List α) × List α
  | [] => ([], [])
  | c :: s =>
      if c = stop then ([c] :: (complete stop s).1, (complete stop s).2)
      else
        match complete stop s with
        | ([], rest) => ([], c :: rest)
        | (line :: lines, rest) => ((c :: line) :: lines, rest)

variable {s t line body : List α} {lines : List (List α)}

theorem complete_nil : complete stop [] = ([], []) := rfl

theorem complete_stop : complete stop (stop :: s) =
    ([stop] :: (complete stop s).1, (complete stop s).2) := by
  rw [complete, if_pos rfl]

/-- Nothing is complete without an end. -/
theorem complete_of_notMem (noStop : stop ∉ s) : complete stop s = ([], s) := by
  induction s with
  | nil => rfl
  | cons c s ih =>
      rw [List.mem_cons, not_or] at noStop
      rw [complete, if_neg (Ne.symm noStop.1), ih noStop.2]

/-- A line comes first. -/
theorem complete_line (noStop : stop ∉ body) :
    complete stop (body ++ stop :: s) =
      ((body ++ [stop]) :: (complete stop s).1, (complete stop s).2) := by
  induction body with
  | nil => exact complete_stop
  | cons c body ih =>
      rw [List.mem_cons, not_or] at noStop
      rw [List.cons_append, complete, if_neg (Ne.symm noStop.1), ih noStop.2]
      rfl

/-- What follows the last line is no line. -/
theorem notMem_rest : stop ∉ (complete stop s).2 := by
  induction s with
  | nil => exact List.not_mem_nil
  | cons c s ih =>
      rw [complete]
      split
      · exact ih
      · rename_i other
        split
        · rename_i rest found
          rw [found] at ih
          exact List.not_mem_cons_of_ne_of_not_mem (Ne.symm other) ih
        · rename_i line lines rest found
          rw [found] at ih
          exact ih

/-- Nothing is lost. -/
theorem flatten_complete : (complete stop s).1.flatten ++ (complete stop s).2 = s := by
  induction s with
  | nil => rfl
  | cons c s ih =>
      rw [complete]
      split
      · rw [List.flatten_cons, List.append_assoc, ih]
        rfl
      · split
        all_goals
          rename_i found
          rw [found] at ih
          rw [← ih]
          rfl

/-- A line has its end and no other. -/
theorem ends_of_complete (mem : line ∈ (complete stop s).1) :
    ∃ body, stop ∉ body ∧ line = body ++ [stop] := by
  induction s generalizing line with
  | nil => exact absurd mem List.not_mem_nil
  | cons c s ih =>
      rw [complete] at mem
      split at mem
      · rename_i isStop
        rcases List.mem_cons.mp mem with rfl | mem
        · exact ⟨[], List.not_mem_nil, by rw [isStop, List.nil_append]⟩
        · exact ih mem
      · rename_i other
        split at mem
        · exact absurd mem List.not_mem_nil
        · rename_i first lines rest found
          rw [found] at ih
          rcases List.mem_cons.mp mem with rfl | mem
          · obtain ⟨body, inside, rfl⟩ := ih List.mem_cons_self
            exact ⟨c :: body, List.not_mem_cons_of_ne_of_not_mem (Ne.symm other) inside, rfl⟩
          · exact ih (List.mem_cons_of_mem _ mem)

/-- The lines of two pieces: those of the first, then those of its rest with the second. -/
theorem complete_append : complete stop (s ++ t) =
    ((complete stop s).1 ++ (complete stop ((complete stop s).2 ++ t)).1,
      (complete stop ((complete stop s).2 ++ t)).2) := by
  induction s with
  | nil => rfl
  | cons c s ih =>
      rw [List.cons_append, complete, complete]
      split
      · rw [ih]
        rfl
      · rename_i other
        rcases found : complete stop s with ⟨_ | ⟨line, lines⟩, rest⟩
        · rw [ih, found]
          simp only [List.nil_append]
          rw [List.cons_append, complete, if_neg other]
        · rw [ih, found]
          rfl

/-- Lines with their ends come first. -/
theorem complete_flatten (ends : ∀ line ∈ lines, ∃ body, stop ∉ body ∧ line = body ++ [stop]) :
    complete stop (lines.flatten ++ t) = (lines ++ (complete stop t).1, (complete stop t).2) := by
  induction lines with
  | nil => rfl
  | cons line lines ih =>
      obtain ⟨body, inside, rfl⟩ := ends line List.mem_cons_self
      rw [List.flatten_cons, List.append_assoc, List.append_assoc, List.singleton_append,
        complete_line inside, ih fun other mem => ends other (List.mem_cons_of_mem _ mem)]
      rfl

/-- What has not wholly arrived has not all its lines complete. -/
theorem complete_of_prefix (ends : ∀ line ∈ lines, ∃ body, stop ∉ body ∧ line = body ++ [stop])
    (cut : s <+: lines.flatten) (short : s ≠ lines.flatten) :
    (complete stop s).1 <+: lines ∧ (complete stop s).1 ≠ lines := by
  obtain ⟨rest, eq⟩ := cut
  have whole := complete_flatten (t := []) ends
  rw [List.append_nil, ← eq, complete_append, complete_nil, List.append_nil, Prod.mk.injEq] at whole
  refine ⟨⟨_, whole.1⟩, fun all => ?_⟩
  have parts : (complete stop s).1.flatten ++ (complete stop s).2 = s := flatten_complete
  have length := congrArg List.length parts
  have total := congrArg List.length eq
  rw [all, List.length_append] at length
  rw [List.length_append] at total
  have nothing : rest = [] := List.length_eq_zero_iff.mp (by omega)
  rw [nothing, List.append_nil] at eq
  exact short eq

end Packets

/-! ### Readers -/

section Reader

variable (take : σ → List α → σ × Bool)

/-- Read the lines up to the first at which the reader stops; what it leaves. -/
def drain : σ → List (List α) → σ × List (List α)
  | state, [] => (state, [])
  | state, line :: lines =>
      if (take state line).2 then drain (take state line).1 lines else ((take state line).1, lines)

/-- A packet arrives at a reader with some unread characters. -/
def feed [DecidableEq α] (stop : α) (reader : σ × List α) (packet : List α) : σ × List α :=
  let text := complete stop (reader.2 ++ packet)
  let left := drain take reader.1 text.1
  (left.1, left.2.flatten ++ text.2)

/-- The reader stops at none of the lines. -/
def GoesOn : σ → List (List α) → Prop
  | _, [] => True
  | state, line :: lines => (take state line).2 = true ∧ GoesOn (take state line).1 lines

/-- The state after all the lines. -/
def after (state : σ) (lines : List (List α)) : σ :=
  lines.foldl (fun state line => (take state line).1) state

variable {take} {state : σ} {line : List α} {lines lines' : List (List α)}

theorem drain_of_goesOn (on : GoesOn take state lines) :
    drain take state lines = (after take state lines, []) := by
  induction lines generalizing state with
  | nil => rfl
  | cons line lines ih => rw [drain, if_pos on.1, ih on.2, after, after, List.foldl_cons]

@[simp] theorem after_nil : after take state [] = state := rfl

@[simp] theorem after_cons : after take state (line :: lines) =
    after take (take state line).1 lines :=
  rfl

@[simp] theorem goesOn_nil : GoesOn take state [] := trivial

@[simp] theorem goesOn_cons : GoesOn take state (line :: lines) ↔
    (take state line).2 = true ∧ GoesOn take (take state line).1 lines :=
  Iff.rfl

theorem after_append : after take state (lines ++ lines') =
    after take (after take state lines) lines' :=
  List.foldl_append

theorem goesOn_append : GoesOn take state (lines ++ lines') ↔
    GoesOn take state lines ∧ GoesOn take (after take state lines) lines' := by
  induction lines generalizing state with
  | nil => exact (iff_of_eq (true_and _)).symm
  | cons line lines ih =>
      rw [List.cons_append, GoesOn, GoesOn, ih, and_assoc, after, after, List.foldl_cons]

/-- **Packets do not matter** to a reader that stops at no line. -/
theorem foldl_feed [DecidableEq α] {stop : α} {packets : List (List α)} {rest : List α}
    (open_ : stop ∉ rest)
    (on : GoesOn take state (complete stop (rest ++ packets.flatten)).1) :
    packets.foldl (feed take stop) (state, rest) =
      (after take state (complete stop (rest ++ packets.flatten)).1,
        (complete stop (rest ++ packets.flatten)).2) := by
  induction packets generalizing state rest with
  | nil =>
      rw [List.flatten_nil, List.append_nil, complete_of_notMem open_]
      rfl
  | cons packet packets ih =>
      rw [List.flatten_cons, ← List.append_assoc, complete_append] at on ⊢
      obtain ⟨here, later⟩ := goesOn_append.mp on
      rw [after_append, List.foldl_cons, feed, drain_of_goesOn here, List.flatten_nil,
        List.nil_append, ih notMem_rest later]

end Reader

end Library.Lines
