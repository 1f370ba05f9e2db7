import Mathlib.Data.List.AList
import Mathlib.Tactic.Common

/-!
# Restricting an association list to a set of keys

`AList.filterKeys keep m` keeps the entries of `m` whose key satisfies `keep`.
-/

namespace Library

universe u v

variable {α : Type u} {β : α → Type v} [DecidableEq α]

theorem dlookup_filter (keep : α → Bool) (l : List (Sigma β)) (a : α) :
    (l.filter fun entry => keep entry.1).dlookup a =
      if keep a then l.dlookup a else none := by
  induction l with
  | nil => simp
  | cons entry rest ih =>
      obtain ⟨key, value⟩ := entry
      by_cases same : a = key
      · subst same
        by_cases kept : keep a
        · simp [kept]
        · simpa [kept] using ih
      · have skip : ∀ tail : List (Sigma β),
            List.dlookup a (⟨key, value⟩ :: tail) = List.dlookup a tail :=
          fun tail => List.dlookup_cons_ne tail ⟨key, value⟩ same
        by_cases kept : keep key
        · simpa [kept, skip] using ih
        · simpa [kept, skip] using ih

/-- The entries of `m` whose key satisfies `keep`. -/
def filterKeys (keep : α → Bool) (m : AList β) : AList β where
  entries := m.entries.filter fun entry => keep entry.1
  nodupKeys := m.nodupKeys.sublist List.filter_sublist

@[simp] theorem lookup_filterKeys (keep : α → Bool) (m : AList β) (a : α) :
    (filterKeys keep m).lookup a = if keep a then m.lookup a else none :=
  dlookup_filter keep m.entries a

end Library
