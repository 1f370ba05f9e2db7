import Mathlib.Data.List.Basic
import Mathlib.Data.List.Nodup
import Mathlib.Tactic.Common

/-!
# Pipelined enquiries

Items are enquired about one after the other.  The next enquiry is sent as soon
as the first answer to the previous one arrives, and answers are *collected*
under the item that was enquired about last.  They come in the order of the
enquiries, though, so an answer that arrives while a later enquiry is already
waiting belongs to another item than the one it is collected under.

`Enquiry` is the state of such a protocol and `Enquiry.Next` its moves.  When nothing is
left to enquire about, answers may still come: they are collected under the item that was
enquired about last, or under something that is no item.  An answer is *attributed* when
it is the first one about its item and is collected under it.

## Main results

* `Enquiry.Right.next` — as long as every answer is attributed, what is collected
  is what was answered, each item at most once and in order.
* `Enquiry.Wrong.of_next`, `Enquiry.Wrong.next` — one answer that is not attributed
  leaves, whatever follows, some item with two values or something with a value
  although nothing was answered about it.
-/

namespace Library

universe u v

/-- The state of a sequence of enquiries. -/
structure Enquiry (α : Type u) (β : Type v) where
  /-- The enquiries that wait for answers, the one being answered first. -/
  pending : List α := []
  /-- The items that have not been enquired about. -/
  left : List α
  /-- The answers, under the item they were taken to be about. -/
  collected : List (α × β) := []
  /-- The answers, under the item they were about. -/
  answered : List (α × β) := []
  /-- No item was left when the last answer arrived. -/
  ended : Bool := false

namespace Enquiry

variable {α : Type u} {β : Type v} (l : Enquiry α β)

/-- Enquire about the next item. -/
def advance : Enquiry α β :=
  match l.left with
  | [] => { l with ended := true }
  | x :: rest => { l with pending := l.pending ++ [x], left := rest }

/-- The answer `b` to the enquiry about `a` is collected under `last`. -/
def record (a last : α) (b : β) : Enquiry α β :=
  { l with collected := l.collected ++ [(last, b)], answered := l.answered ++ [(a, b)] }

/-- The moves, with the flag whether the answer is attributed. -/
inductive Next (items : List α) : Bool → Enquiry α β → Enquiry α β → Prop
  | stay (l : Enquiry α β) : Next items true l l
  /-- An answer without a value. -/
  | silent {l : Enquiry α β} {a : α} {queued : List α} (running : l.pending = a :: queued) :
      Next items true l l.advance
  | answer {l : Enquiry α β} {a : α} {queued : List α} {flag : Bool} (b : β)
      (running : l.pending = a :: queued)
      (attributed : flag = true ↔ queued = [] ∧ a ∉ l.collected.map Prod.fst) :
      Next items flag l (l.record a (queued.getLastD a) b).advance
  /-- An answer that is collected under what is no item. -/
  | stray {l : Enquiry α β} {a x : α} {queued : List α} (b : β) (exhausted : l.ended = true)
      (running : l.pending = a :: queued) (foreign : x ∉ items) :
      Next items false l (l.record a x b)
  /-- The end of the answers to one enquiry. -/
  | finish (l : Enquiry α β) : Next items true l { l with pending := l.pending.tail }
  /-- The enquiries in progress are given up. -/
  | drop (l : Enquiry α β) : Next items true l { l with pending := [] }.advance

variable {l} {l' : Enquiry α β} {flag : Bool} {items taken : List α}

/-! ### The order of the enquiries -/

/-- The items are enquired about in order: `taken` are those that have been.  An
enquiry behind the first has no answer yet. -/
structure Ordered (items taken : List α) (l : Enquiry α β) : Prop where
  nodup : items.Nodup
  split : items = taken ++ l.left
  pending : l.pending.Sublist taken
  last : l.pending ≠ [] → l.pending.getLast? = taken.getLast?
  exhausted : l.ended = true → l.left = []
  answered : ∀ p ∈ l.answered, p.1 ∈ taken
  behind : ∀ p ∈ l.answered, p.1 ∉ l.pending.tail

/-- What one advance makes of the items taken. -/
def takenAfter (taken : List α) (l : Enquiry α β) : List α := taken ++ l.left.head?.toList

namespace Ordered

theorem taken_nodup (ordered : Ordered items taken l) : taken.Nodup := by
  have nodup := ordered.nodup
  rw [ordered.split] at nodup
  exact nodup.of_append_left

theorem init (nodup : items.Nodup) : Ordered items [] ({ left := items } : Enquiry α β) :=
  ⟨nodup, rfl, .slnil, fun empty => absurd rfl empty, nofun, by simp, by simp⟩

/-- An advance keeps the order, whatever has been recorded about the items taken. -/
theorem advance (ordered : Ordered items taken l) :
    Ordered items (takenAfter taken l) l.advance := by
  obtain ⟨nodup, split, pending, last, exhausted, answered, behind⟩ := ordered
  cases left : l.left with
  | nil =>
      have ends : l.advance = { l with ended := true } := by simp [Enquiry.advance, left]
      rw [ends]
      have same : takenAfter taken l = taken := by simp [takenAfter, left]
      rw [same]
      exact ⟨nodup, split, pending, last, fun _ => left, answered, behind⟩
  | cons x rest =>
      have sent : l.advance = { l with pending := l.pending ++ [x], left := rest } := by
        simp [Enquiry.advance, left]
      have grown : takenAfter taken l = taken ++ [x] := by simp [takenAfter, left]
      rw [sent, grown]
      have fresh : x ∉ taken := by
        rw [split, left] at nodup
        intro mem
        exact (List.nodup_append.mp nodup).2.2 x mem x (by simp) rfl
      refine ⟨nodup, by simp [split, left], pending.append_right [x], ?_, ?_, ?_, ?_⟩
      · intro _
        simp
      · intro ended
        exact absurd (left.symm.trans (exhausted ended)) (List.cons_ne_nil x rest)
      · intro p mem
        exact List.mem_append_left _ (answered p mem)
      · intro p mem later
        cases queue : l.pending with
        | nil => simp [queue] at later
        | cons a queued =>
            have tailed : p.1 ∈ queued ++ [x] := by simpa [queue] using later
            rcases List.mem_append.mp tailed with waiting | new
            · exact behind p mem (by simpa [queue] using waiting)
            · exact fresh (List.mem_singleton.mp new ▸ answered p mem)

/-- Recording an answer to the running enquiry. -/
theorem record (ordered : Ordered items taken l) {a : α} {queued : List α}
    (running : l.pending = a :: queued) (last : α) (b : β) :
    Ordered items taken (l.record a last b) := by
  obtain ⟨nodup, split, pending, atLast, exhausted, answered, behind⟩ := ordered
  have distinct : (a :: queued).Nodup := by
    rw [split] at nodup
    exact running ▸ nodup.of_append_left.sublist pending
  refine ⟨nodup, split, pending, atLast, exhausted, ?_, ?_⟩
  · intro p mem
    rcases List.mem_append.mp mem with before | new
    · exact answered p before
    · rw [List.mem_singleton.mp new]
      exact pending.subset (by simp [running])
  · intro p mem
    rcases List.mem_append.mp mem with before | new
    · exact behind p before
    · rw [List.mem_singleton.mp new]
      simpa [Enquiry.record, running] using (List.nodup_cons.mp distinct).1

theorem finish (ordered : Ordered items taken l) :
    Ordered items taken { l with pending := l.pending.tail } := by
  obtain ⟨nodup, split, pending, last, exhausted, answered, behind⟩ := ordered
  refine ⟨nodup, split, (List.tail_sublist _).trans pending, fun nonempty => ?_, exhausted,
    answered, ?_⟩
  · cases queue : l.pending with
    | nil => simp [queue] at nonempty
    | cons a queued =>
        rw [← last (by simp [queue]), queue]
        cases queued with
        | nil => simp [queue] at nonempty
        | cons b rest => simp
  · intro p mem later
    exact behind p mem (List.mem_of_mem_tail later)

theorem drop (ordered : Ordered items taken l) : Ordered items taken { l with pending := [] } :=
  ⟨ordered.nodup, ordered.split, List.nil_sublist _, fun empty => absurd rfl empty,
    ordered.exhausted, ordered.answered, by simp⟩

/-- Every answer is about an item. -/
theorem answered_items (ordered : Ordered items taken l) : ∀ p ∈ l.answered, p.1 ∈ items := by
  intro p mem
  rw [ordered.split]
  exact List.mem_append_left _ (ordered.answered p mem)

/-- The item of the running enquiry is one of the items. -/
theorem running_mem (ordered : Ordered items taken l) {a : α} {queued : List α}
    (running : l.pending = a :: queued) : a ∈ items := by
  rw [ordered.split]
  exact List.mem_append_left _ (ordered.pending.subset (by simp [running]))

/-- The last enquiry that waits is about the item taken last. -/
theorem getLast? (ordered : Ordered items taken l) {a : α} {queued : List α}
    (running : l.pending = a :: queued) : taken.getLast? = some (queued.getLastD a) := by
  rw [← ordered.last (by simp [running]), running, List.getLast?_cons, List.getLastD_eq_getLast?]

/-- Nothing waits behind an enquiry about the item taken last. -/
theorem queued_eq_nil (ordered : Ordered items taken l) {a : α} {queued : List α}
    (running : l.pending = a :: queued) (last : queued.getLastD a = a) : queued = [] := by
  rcases List.eq_nil_or_concat' queued with empty | ⟨rest, x, rfl⟩
  · exact empty
  · have distinct : (a :: (rest ++ [x])).Nodup :=
      running ▸ ordered.taken_nodup.sublist ordered.pending
    rw [List.getLastD_eq_getLast?, List.getLast?_concat, Option.getD_some] at last
    subst last
    simp at distinct

end Ordered

/-! ### Attributed answers -/

/-- What is collected is what was answered, in the order of the items; the item
enquired about last has no answer while the enquiries go on. -/
structure Right (items taken : List α) (l : Enquiry α β) : Prop where
  ordered : Ordered items taken l
  same : l.collected = l.answered
  collected : (l.collected.map Prod.fst).Sublist (if l.ended then taken else taken.dropLast)

namespace Right

theorem init (nodup : items.Nodup) : Right items [] ({ left := items } : Enquiry α β) :=
  ⟨.init nodup, rfl, List.nil_sublist _⟩

theorem sublist_taken (right : Right items taken l) :
    (l.collected.map Prod.fst).Sublist taken := by
  have collected := right.collected
  split at collected
  · exact collected
  · exact collected.trans (List.dropLast_sublist taken)

theorem sublist_items (right : Right items taken l) :
    (l.collected.map Prod.fst).Sublist items := by
  rw [right.ordered.split]
  exact right.sublist_taken.trans (List.sublist_append_left taken l.left)

/-- While the enquiries go on, the item taken last has no value yet. -/
theorem last_notMem (right : Right items taken l) (going : l.ended = false) {a : α}
    (last : taken.getLast? = some a) : a ∉ l.collected.map Prod.fst := by
  have nodup := right.ordered.taken_nodup
  have collected := right.collected
  rw [if_neg (by simp [going])] at collected
  rw [← List.dropLast_append_getLast? a last] at nodup
  intro mem
  exact (List.nodup_append.mp nodup).2.2 a (collected.subset mem) a (by simp) rfl

theorem advance (ordered : Ordered items taken l) (same : l.collected = l.answered)
    (sublist : (l.collected.map Prod.fst).Sublist taken) :
    Right items (takenAfter taken l) l.advance := by
  refine ⟨ordered.advance, ?_, ?_⟩
  · unfold Enquiry.advance
    split <;> exact same
  · cases left : l.left with
    | nil => simpa [Enquiry.advance, takenAfter, left] using sublist
    | cons x rest =>
        have going : l.ended = false := by
          refine eq_false_of_ne_true fun ended => ?_
          exact absurd (left.symm.trans (ordered.exhausted ended)) (List.cons_ne_nil x rest)
        simpa [Enquiry.advance, takenAfter, left, going] using sublist

/-- **Attributed answers are collected rightly.** -/
theorem next (right : Right items taken l) (move : Next items true l l') :
    ∃ taken, Right items taken l' := by
  generalize isTrue : true = flag at move
  cases move with
  | stay => exact ⟨taken, right⟩
  | silent running => exact ⟨_, advance right.ordered right.same right.sublist_taken⟩
  | @answer _ a queued _ b running attributed =>
      obtain ⟨rfl, fresh⟩ := attributed.mp isTrue.symm
      refine ⟨_, advance (right.ordered.record running a b) ?_ ?_⟩
      · simp [record, right.same]
      · -- without the item taken last, what is collected comes before it
        have split := List.dropLast_append_getLast? a (right.ordered.getLast? running)
        have sublist := right.sublist_taken
        rw [← split] at sublist
        obtain ⟨before, last, collected, here, there⟩ := List.sublist_append_iff.mp sublist
        have empty : last = [] := by
          rcases List.sublist_singleton.mp there with empty | found
          · exact empty
          · refine absurd ?_ fresh
            rw [collected, found]
            exact List.mem_append_right _ (List.mem_singleton_self a)
        rw [empty, List.append_nil] at collected
        have joined := here.append_right [a]
        rw [split, ← collected] at joined
        simpa [record] using joined
  | stray b exhausted running foreign => cases isTrue
  | finish => exact ⟨taken, right.ordered.finish, right.same, right.collected⟩
  | drop => exact ⟨_, advance right.ordered.drop right.same right.sublist_taken⟩

end Right

/-! ### An answer that is not attributed -/

/-- Some item has two values, or something has a value although nothing was answered
about it. -/
structure Wrong (items taken : List α) (l : Enquiry α β) : Prop where
  ordered : Ordered items taken l
  wrong : ¬ (l.collected.map Prod.fst).Nodup ∨
    ∃ x, (∃ b, (x, b) ∈ l.collected) ∧ ∀ b, (x, b) ∉ l.answered

namespace Wrong

/-- An advance leaves the values as they are. -/
theorem advance (wrong : Wrong items taken l) : Wrong items (takenAfter taken l) l.advance := by
  refine ⟨wrong.ordered.advance, ?_⟩
  unfold Enquiry.advance
  split <;> exact wrong.wrong

/-- **One answer that is not attributed** makes the collection wrong. -/
theorem of_misattributed (ordered : Ordered items taken l) {a : α} {queued : List α}
    (running : l.pending = a :: queued) (b : β)
    (misattributed : ¬ (queued = [] ∧ a ∉ l.collected.map Prod.fst)) :
    Wrong items taken (l.record a (queued.getLastD a) b) := by
  refine ⟨ordered.record running _ b, ?_⟩
  by_cases waiting : queued = []
  · -- the second value of the item
    subst waiting
    left
    have mem : a ∈ l.collected.map Prod.fst := by simpa using misattributed
    intro nodup
    rw [record, List.map_append] at nodup
    exact (List.nodup_append.mp nodup).2.2 a mem a (by simp) rfl
  · right
    obtain ⟨rest, last, rfl⟩ := (List.eq_nil_or_concat' queued).resolve_left waiting
    have atLast : (rest ++ [last]).getLastD a = last := by
      rw [List.getLastD_eq_getLast?]
      simp
    have other : last ≠ a := by
      rintro rfl
      exact waiting (ordered.queued_eq_nil running atLast)
    rw [atLast]
    refine ⟨last, ⟨b, by simp [record]⟩, fun b' mem => ?_⟩
    rcases List.mem_append.mp mem with before | new
    · exact ordered.behind (last, b') before (by simp [running])
    · exact other (by simpa using congrArg Prod.fst (List.mem_singleton.mp new))

/-- What is no item never gets an answer. -/
theorem of_stray (ordered : Ordered items taken l) {a x : α} {queued : List α}
    (running : l.pending = a :: queued) (foreign : x ∉ items) (b : β) :
    Wrong items taken (l.record a x b) := by
  have recorded := ordered.record running x b
  exact ⟨recorded, .inr ⟨x, ⟨b, by simp [record]⟩, fun b' mem =>
    foreign (recorded.answered_items _ mem)⟩⟩

theorem of_next (ordered : Ordered items taken l) (move : Next items false l l') :
    ∃ taken, Wrong items taken l' := by
  generalize isFalse : false = flag at move
  cases move with
  | answer b running attributed =>
      refine ⟨_, advance (of_misattributed ordered running b fun meets => ?_)⟩
      exact Bool.false_ne_true (isFalse.trans (attributed.mpr meets))
  | stray b exhausted running foreign => exact ⟨taken, of_stray ordered running foreign b⟩
  | _ => cases isFalse

/-- Another answer leaves it wrong: what has a value and no answer of its own can only get one
as a second value, or while later enquiries wait, which makes another item wrong. -/
theorem answer (wrong : Wrong items taken l) {a : α} {queued : List α}
    (running : l.pending = a :: queued) (b : β) :
    Wrong items taken (l.record a (queued.getLastD a) b) := by
  obtain ⟨ordered, double | ⟨x, ⟨b', valued⟩, none⟩⟩ := wrong
  · refine ⟨ordered.record running _ b, .inl fun nodup => ?_⟩
    rw [record, List.map_append] at nodup
    exact double (List.nodup_append.mp nodup).1
  · by_cases own : a = x
    · subst own
      refine of_misattributed ordered running b fun meets => meets.2 ?_
      exact List.mem_map_of_mem valued
    · refine ⟨ordered.record running _ b, .inr ⟨x, ⟨b', List.mem_append_left _ valued⟩, ?_⟩⟩
      intro b'' answered
      rcases List.mem_append.mp answered with before | new
      · exact none b'' before
      · exact own (by simpa using (congrArg Prod.fst (List.mem_singleton.mp new)).symm)

/-- **A wrong collection stays wrong.** -/
theorem next (wrong : Wrong items taken l) (move : Next items flag l l') :
    ∃ taken, Wrong items taken l' := by
  cases move with
  | stay => exact ⟨taken, wrong⟩
  | silent running => exact ⟨_, wrong.advance⟩
  | answer b running attributed => exact ⟨_, (wrong.answer running b).advance⟩
  | stray b exhausted running foreign => exact ⟨taken, of_stray wrong.ordered running foreign b⟩
  | finish => exact ⟨taken, wrong.ordered.finish, wrong.wrong⟩
  | drop => exact ⟨_, advance ⟨wrong.ordered.drop, wrong.wrong⟩⟩

end Wrong

end Enquiry

end Library
