import Mathlib.Data.List.Forall2
import Mathlib.Data.List.Infix
import Mathlib.Data.List.TakeDrop
import Mathlib.Data.List.TakeWhile
import Mathlib.Tactic.Common

/-!
# Greedy patterns with captures

A `Pattern` is a regular expression whose repetitions repeat one class of characters.
`Matches` says which texts a pattern takes and what its groups capture.  `run` is the
backtracking matcher: it tries the longest repetition first and the left alternative
first, and hands what is left of the text to a continuation that may refuse.

## Main results

* `run_sound` — what the matcher takes, the pattern matches.
* `search_append` — a search passes over a text in which no match begins.
* `run_many` — a repetition stops at the first character outside its class, when that
  leads to a match.
-/

namespace Library

universe u v

variable {α : Type u} {β : Type v}

/-- Patterns. -/
inductive Pattern (α : Type u) where
  | text (literal : List α)
  | one (p : α → Bool)
  /-- At least `least` characters of a class. -/
  | many (least : ℕ) (p : α → Bool)
  | seq (a b : Pattern α)
  | alt (a b : Pattern α)
  /-- A capturing group. -/
  | group (a : Pattern α)

namespace Pattern

/-- One of the two, or nothing: `a?`. -/
def opt (a : Pattern α) : Pattern α := .alt a (.text [])

/-- `n` copies of a pattern: `a{n,n}`. -/
def exactly (a : Pattern α) : ℕ → Pattern α
  | 0 => .text []
  | n + 1 => .seq a (exactly a n)

/-- One pattern after the other. -/
def inOrder (as : List (Pattern α)) : Pattern α := as.foldr .seq (.text [])

/-- What stands in the groups, in the order of the captures. -/
def groups : Pattern α → List (Pattern α)
  | .seq a b => groups a ++ groups b
  | .group a => a :: groups a
  | .text _ | .one _ | .many _ _ | .alt _ _ => []

/-- No group stands in an alternative, so that every match has all captures. -/
def Straight : Pattern α → Prop
  | .seq a b => Straight a ∧ Straight b
  | .group a => Straight a
  | .alt a b => (Straight a ∧ groups a = []) ∧ Straight b ∧ groups b = []
  | .text _ | .one _ | .many _ _ => True

/-- The texts that a pattern matches, with the captures in the order of the groups. -/
inductive Matches : Pattern α → List α → List (List α) → Prop
  | text (literal : List α) : Matches (.text literal) literal []
  | one {p : α → Bool} {c : α} (holds : p c = true) : Matches (.one p) [c] []
  | many {least : ℕ} {p : α → Bool} {xs : List α} (enough : least ≤ xs.length)
      (holds : ∀ c ∈ xs, p c = true) : Matches (.many least p) xs []
  | seq {a b : Pattern α} {xs ys : List α} {cs ds : List (List α)} (first : Matches a xs cs)
      (second : Matches b ys ds) : Matches (.seq a b) (xs ++ ys) (cs ++ ds)
  | left {a b : Pattern α} {xs : List α} {cs : List (List α)} (first : Matches a xs cs) :
      Matches (.alt a b) xs cs
  | right {a b : Pattern α} {xs : List α} {cs : List (List α)} (second : Matches b xs cs) :
      Matches (.alt a b) xs cs
  | group {a : Pattern α} {xs : List α} {cs : List (List α)} (inside : Matches a xs cs) :
      Matches (.group a) xs (xs :: cs)

section Inversion

variable {a b : Pattern α} {p : α → Bool} {least n : ℕ} {xs literal : List α} {cs : List (List α)}

theorem matches_text : Matches (.text literal) xs cs ↔ xs = literal ∧ cs = [] := by
  constructor
  · rintro ⟨⟩
    exact ⟨rfl, rfl⟩
  · rintro ⟨rfl, rfl⟩
    exact .text _

theorem matches_one : Matches (.one p) xs cs ↔ (∃ c, p c = true ∧ xs = [c]) ∧ cs = [] := by
  constructor
  · rintro (_ | ⟨holds⟩)
    exact ⟨⟨_, holds, rfl⟩, rfl⟩
  · rintro ⟨⟨c, holds, rfl⟩, rfl⟩
    exact .one holds

theorem matches_many : Matches (.many least p) xs cs ↔
    (least ≤ xs.length ∧ ∀ c ∈ xs, p c = true) ∧ cs = [] := by
  constructor
  · rintro (_ | _ | ⟨enough, holds⟩)
    exact ⟨⟨enough, holds⟩, rfl⟩
  · rintro ⟨⟨enough, holds⟩, rfl⟩
    exact .many enough holds

theorem matches_seq : Matches (.seq a b) xs cs ↔
    ∃ ys ds, Matches a ys ds ∧ ∃ zs es, Matches b zs es ∧ xs = ys ++ zs ∧ cs = ds ++ es := by
  constructor
  · rintro (_ | _ | _ | ⟨first, second⟩)
    exact ⟨_, _, first, _, _, second, rfl, rfl⟩
  · rintro ⟨ys, ds, first, zs, es, second, rfl, rfl⟩
    exact .seq first second

theorem matches_alt : Matches (.alt a b) xs cs ↔ Matches a xs cs ∨ Matches b xs cs := by
  constructor
  · intro matched
    cases matched with
    | left first => exact .inl first
    | right second => exact .inr second
  · exact fun matched => matched.elim .left .right

theorem matches_group : Matches (.group a) xs cs ↔ ∃ ds, Matches a xs ds ∧ cs = xs :: ds := by
  constructor
  · rintro (_ | _ | _ | _ | _ | _ | ⟨inside⟩)
    exact ⟨_, inside, rfl⟩
  · rintro ⟨ds, inside, rfl⟩
    exact .group inside

/-- What a group captures lies in the text. -/
theorem Matches.captures_infix (matched : Matches a xs cs) : ∀ c ∈ cs, c <:+: xs := by
  induction matched with
  | text | one | many => simp
  | @seq a b xs ys cs ds first second ihFirst ihSecond =>
      intro c mem
      rcases List.mem_append.mp mem with mem | mem
      · exact (ihFirst c mem).trans (List.prefix_append xs ys).isInfix
      · exact (ihSecond c mem).trans (List.suffix_append xs ys).isInfix
  | left first ih => exact ih
  | right second ih => exact ih
  | @group a xs cs inside ih =>
      intro c mem
      rcases List.mem_cons.mp mem with rfl | mem
      · exact List.infix_rfl
      · exact ih c mem

/-- The captures match what stands in the groups. -/
theorem Matches.captures (matched : Matches a xs cs) (straight : a.Straight) :
    List.Forall₂ (fun g c => ∃ ds, Matches g c ds) a.groups cs := by
  induction matched with
  | text | one | many => exact .nil
  | seq first second ihFirst ihSecond =>
      exact List.rel_append (ihFirst straight.1) (ihSecond straight.2)
  | left first ih =>
      have captures := ih straight.1.1
      rwa [straight.1.2] at captures
  | right second ih =>
      have captures := ih straight.2.1
      rwa [straight.2.2] at captures
  | group inside ih => exact .cons ⟨_, inside⟩ (ih straight)

end Inversion

/-- What is done with a match: the text taken, the captures and the rest of the text. -/
abbrev Continuation (α : Type u) (β : Type v) := List α → List (List α) → List α → Option β

/-- The longest of the first `n` characters or fewer, and at least `least`, with which the
continuation is content. -/
def longest (least : ℕ) (s : List α) (k : Continuation α β) : ℕ → Option β
  | 0 => if least = 0 then k [] [] s else none
  | n + 1 =>
      if n + 1 < least then none
      else (k (s.take (n + 1)) [] (s.drop (n + 1))).or (longest least s k n)

/-- The matcher. -/
def run [DecidableEq α] : Pattern α → List α → Continuation α β → Option β
  | .text literal, s, k =>
      if literal <+: s then k literal [] (s.drop literal.length) else none
  | .one _, [], _ => none
  | .one p, c :: s, k => if p c then k [c] [] s else none
  | .many least p, s, k => longest least s k (s.takeWhile p).length
  | .seq a b, s, k =>
      run a s fun xs cs rest => run b rest fun ys ds rest' => k (xs ++ ys) (cs ++ ds) rest'
  | .alt a b, s, k => (run a s k).or (run b s k)
  | .group a, s, k => run a s fun xs cs rest => k xs (xs :: cs) rest

section Longest

variable {least n : ℕ} {s : List α} {k : Continuation α β} {r : β}

theorem longest_sound (found : longest least s k n = some r) :
    ∃ m, m ≤ n ∧ least ≤ m ∧ k (s.take m) [] (s.drop m) = some r := by
  induction n with
  | zero =>
      simp only [longest, Option.ite_none_right_eq_some] at found
      exact ⟨0, le_rfl, found.1.le, found.2⟩
  | succ n ih =>
      simp only [longest, Option.ite_none_left_eq_some, not_lt, Option.or_eq_some_iff] at found
      obtain ⟨enough, found | ⟨-, found⟩⟩ := found
      · exact ⟨n + 1, le_rfl, enough, found⟩
      · obtain ⟨m, shorter, rest⟩ := ih found
        exact ⟨m, shorter.trans n.le_succ, rest⟩

theorem longest_eq (enough : least ≤ n) (accepts : k (s.take n) [] (s.drop n) = some r) :
    longest least s k n = some r := by
  cases n with
  | zero => rw [longest, if_pos (Nat.le_zero.mp enough), ← accepts, List.take_zero, List.drop_zero]
  | succ n => rw [longest, if_neg (by omega), accepts, Option.some_or]

end Longest

variable [DecidableEq α] {a b : Pattern α} {p : α → Bool} {s xs rest : List α} {cs : List (List α)}
variable {least n : ℕ} {k : Continuation α β} {r : β}

theorem run_text (literal : List α) :
    run (.text literal) (literal ++ rest) k = k literal [] rest := by
  rw [run, if_pos (List.prefix_append _ _), List.drop_left]

theorem run_text_nil : run (.text []) s k = k [] [] s := run_text []

theorem run_one {c : α} (holds : p c = true) : run (.one p) (c :: rest) k = k [c] [] rest :=
  if_pos holds

theorem run_seq : run (.seq a b) s k =
    run a s fun xs cs rest => run b rest fun ys ds rest' => k (xs ++ ys) (cs ++ ds) rest' := by
  rw [run]

theorem run_group : run (.group a) s k = run a s fun xs cs rest => k xs (xs :: cs) rest := by
  rw [run]

/-- A class repeated a fixed number of times. -/
theorem run_exactly (often : xs.length = n) (inside : ∀ c ∈ xs, p c = true) :
    run (.exactly (.one p) n) (xs ++ rest) k = k xs [] rest := by
  subst often
  induction xs generalizing k with
  | nil => exact run_text []
  | cons c xs ih =>
      obtain ⟨holds, inside⟩ := List.forall_mem_cons.mp inside
      rw [List.length_cons, exactly, run_seq, List.cons_append, run_one holds, ih inside]
      rfl

/-- **A repetition stops at the first character outside its class**, when the
continuation is content with that. -/
theorem run_many (enough : least ≤ xs.length) (inside : ∀ c ∈ xs, p c = true)
    (outside : ∀ c ∈ rest.head?, p c = false) (accepts : k xs [] rest = some r) :
    run (.many least p) (xs ++ rest) k = some r := by
  have taken : (xs ++ rest).takeWhile p = xs := by
    rw [List.takeWhile_append_of_pos inside]
    cases rest with
    | nil => simp
    | cons c rest => simp [outside c rfl]
  rw [run, taken]
  exact longest_eq enough (by rw [List.take_left, List.drop_left, accepts])

/-- The right alternative, where the left one cannot begin. -/
theorem run_right (fails : run a s k = none) : run (.alt a b) s k = run b s k := by
  rw [run, fails, Option.none_or]

theorem run_left (found : run a s k = some r) : run (.alt a b) s k = some r := by
  rw [run, found, Option.some_or]

/-- **Soundness.** -/
theorem run_sound (found : run a s k = some r) :
    ∃ xs cs rest, s = xs ++ rest ∧ Matches a xs cs ∧ k xs cs rest = some r := by
  induction a generalizing s k with
  | text literal =>
      simp only [run, Option.ite_none_right_eq_some] at found
      obtain ⟨⟨rest, rfl⟩, found⟩ := found
      rw [List.drop_left] at found
      exact ⟨literal, [], rest, rfl, .text literal, found⟩
  | one p =>
      cases s with
      | nil => cases found
      | cons c s =>
          simp only [run, Option.ite_none_right_eq_some] at found
          exact ⟨[c], [], s, rfl, .one found.1, found.2⟩
  | many least p =>
      obtain ⟨m, shorter, enough, found⟩ := longest_sound found
      have taken : s.take m = (s.takeWhile p).take m := by
        rw [List.prefix_iff_eq_take.mp (List.takeWhile_prefix p (l := s)), List.take_take,
          Nat.min_eq_left shorter]
      refine ⟨s.take m, [], s.drop m, (List.take_append_drop m s).symm, .many ?_ ?_, found⟩
      · have := (List.takeWhile_prefix p (l := s)).length_le
        rw [List.length_take, Nat.min_eq_left (shorter.trans this)]
        exact enough
      · intro c mem
        rw [taken] at mem
        exact List.mem_takeWhile_imp (List.mem_of_mem_take mem)
  | seq a b iha ihb =>
      obtain ⟨xs, cs, rest, rfl, first, found⟩ := iha found
      obtain ⟨ys, ds, rest', rfl, second, found⟩ := ihb found
      exact ⟨xs ++ ys, cs ++ ds, rest', (List.append_assoc _ _ _).symm, .seq first second, found⟩
  | alt a b iha ihb =>
      simp only [run, Option.or_eq_some_iff] at found
      rcases found with found | ⟨-, found⟩
      · obtain ⟨xs, cs, rest, split, first, found⟩ := iha found
        exact ⟨xs, cs, rest, split, .left first, found⟩
      · obtain ⟨xs, cs, rest, split, second, found⟩ := ihb found
        exact ⟨xs, cs, rest, split, .right second, found⟩
  | group a ih =>
      obtain ⟨xs, cs, rest, split, inside, found⟩ := ih found
      exact ⟨xs, xs :: cs, rest, split, .group inside, found⟩

/-- The match that begins first. -/
def search (a : Pattern α) (s : List α) (k : Continuation α β) : Option β :=
  s.tails.findSome? fun rest => run a rest k

/-- A text in which no match begins is passed over. -/
theorem search_append {pre : List α} (found : run a s k = some r)
    (none : ∀ rest, rest ≠ [] → rest <:+ pre → run a (rest ++ s) k = none) :
    search a (pre ++ s) k = some r := by
  induction pre with
  | nil =>
      rw [search, List.nil_append]
      cases s with
      | nil =>
          show ([[]] : List (List α)).findSome? (fun rest => run a rest k) = some r
          rw [List.findSome?_cons, found]
      | cons c s => rw [List.tails, List.findSome?_cons, found]
  | cons c pre ih =>
      rw [search, List.cons_append, List.tails, List.findSome?_cons, ← List.cons_append,
        none (c :: pre) (List.cons_ne_nil _ _) List.suffix_rfl]
      exact ih fun rest nonempty suffix =>
        none rest nonempty (suffix.trans (List.suffix_cons c pre))

end Pattern

end Library
