import Mathlib

/-!
# Texts

The UTF-8 encoding of a list of characters, and rewriting from left to right: a reader
that looks at the text in front of it, and either replaces what it has found there or
copies one character.  `rewrite` is written with the number of characters still to be
passed over, so that it recurses on the text.

A rewriting is compared with its text by weighing both: `weigh` with `Char.utf8Size` is the
number of bytes, and with other weights it counts the characters of one kind.

## Main results

* `rewrite_eq_flatMap` — where nothing is found the text is copied.
* `rewrite_append` — a boundary that nothing crosses divides the work.
* `weigh_rewrite_le`, `weigh_rewrite_add_le` — a rewriting that replaces only by something
  lighter never makes a text heavier, and makes it lighter when it finds something.
-/

namespace Library

universe u v

/-! ### Weights -/

section Weigh

variable {α : Type u}

/-- The sum of the weights of the letters. -/
def weigh (weight : α → ℕ) (s : List α) : ℕ := (s.map weight).sum

variable {weight : α → ℕ} {c d : α} {s t : List α} {p : α → Bool}

@[simp] theorem weigh_nil : weigh weight [] = 0 := rfl

@[simp] theorem weigh_cons : weigh weight (c :: s) = weight c + weigh weight s := by
  simp [weigh]

@[simp] theorem weigh_append : weigh weight (s ++ t) = weigh weight s + weigh weight t := by
  simp [weigh]

theorem weigh_congr {weight' : α → ℕ} (same : ∀ c ∈ s, weight c = weight' c) :
    weigh weight s = weigh weight' s :=
  congrArg List.sum (List.map_congr_left same)

theorem weigh_const {n : ℕ} (same : ∀ c ∈ s, weight c = n) : weigh weight s = n * s.length := by
  rw [weigh_congr same, weigh, List.map_const', List.sum_replicate, smul_eq_mul, Nat.mul_comm]

theorem weigh_flatMap {β : Type v} {copy : β → List α} {l : List β} :
    weigh weight (l.flatMap copy) = weigh (fun c => weigh weight (copy c)) l := by
  induction l with
  | nil => rfl
  | cons c l ih => rw [List.flatMap_cons, weigh_append, ih, weigh_cons]

theorem weigh_take_add_drop (weight : α → ℕ) (s : List α) (n : ℕ) :
    weigh weight (s.take n) + weigh weight (s.drop n) = weigh weight s := by
  rw [← weigh_append, List.take_append_drop]

theorem le_weigh (weight : α → ℕ) (mem : c ∈ s) : weight c ≤ weigh weight s :=
  List.le_sum_of_mem (List.mem_map_of_mem mem)

/-- Two different letters have their weights. -/
theorem add_le_weigh (weight : α → ℕ) (mem : c ∈ s) (mem' : d ∈ s) (apart : c ≠ d) :
    weight c + weight d ≤ weigh weight s := by
  obtain ⟨before, behind, rfl⟩ := List.append_of_mem mem
  have other : d ∈ before ++ behind := by
    rw [List.mem_append, List.mem_cons] at mem'
    rcases mem' with before | rfl | behind
    · exact List.mem_append_left _ before
    · exact absurd rfl apart
    · exact List.mem_append_right _ behind
  have heavy := le_weigh weight other
  rw [weigh_append] at heavy
  rw [weigh_append, weigh_cons]
  omega

theorem weigh_takeWhile_le : weigh weight (s.takeWhile p) ≤ weigh weight s := by
  conv_rhs => rw [← List.takeWhile_append_dropWhile (p := p) (l := s)]
  rw [weigh_append]
  omega

/-- Where every letter weighs something, a part with the whole weight is the whole. -/
theorem all_of_weigh_takeWhile (heavy : ∀ c, 0 < weight c)
    (whole : weigh weight s ≤ weigh weight (s.takeWhile p)) : ∀ c ∈ s, p c = true := by
  have parts := congrArg (weigh weight) (List.takeWhile_append_dropWhile (p := p) (l := s))
  rw [weigh_append] at parts
  have rest : s.dropWhile p = [] := by
    cases left : s.dropWhile p with
    | nil => rfl
    | cons c cs =>
        have positive := heavy c
        rw [left, weigh_cons] at parts
        omega
  exact List.dropWhile_eq_nil_iff.mp rest

/-- Where every letter weighs something, a text is no longer than its weight. -/
theorem length_le_weigh (positive : ∀ c, 0 < weight c) (s : List α) :
    s.length ≤ weigh weight s := by
  have atLeast : ∀ i ∈ s.map weight, 1 ≤ i := by
    intro i mem
    obtain ⟨c, -, rfl⟩ := List.mem_map.mp mem
    exact positive c
  simpa [weigh] using List.length_le_sum_of_one_le _ atLeast

theorem eq_nil_of_weigh (positive : ∀ c, 0 < weight c) (none : weigh weight s ≤ 0) : s = [] :=
  List.eq_nil_of_length_eq_zero (Nat.le_zero.mp ((length_le_weigh positive s).trans none))

end Weigh

/-! ### UTF-8 -/

/-- The UTF-8 encoding of a text. -/
def utf8 (s : List Char) : List UInt8 := s.flatMap String.utf8EncodeChar

theorem utf8_injective {s t : List Char} (same : utf8 s = utf8 t) : s = t := by
  refine String.ofList_injective (String.toByteArray_inj.mp ?_)
  rw [String.toByteArray_ofList, String.toByteArray_ofList]
  exact congrArg List.toByteArray same

/-- An ASCII character is one byte. -/
theorem utf8EncodeChar_of_ascii {c : Char} (ascii : c.toNat < 128) :
    String.utf8EncodeChar c = [.ofNat c.toNat] := by
  have same : c.toNat = c.val.toNat := rfl
  unfold String.utf8EncodeChar
  exact if_pos (by omega)

/-- Every other character consists of bytes that are no ASCII characters. -/
theorem le_of_mem_utf8EncodeChar {c : Char} (wide : 128 ≤ c.toNat) {b : UInt8}
    (mem : b ∈ String.utf8EncodeChar c) : 128 ≤ b.toNat := by
  have same : c.toNat = c.val.toNat := rfl
  unfold String.utf8EncodeChar at mem
  simp only [] at mem
  rw [if_neg (by omega)] at mem
  split at mem
  · simp only [List.mem_cons, List.not_mem_nil, or_false] at mem
    rcases mem with rfl | rfl <;> simp only [UInt8.toNat_ofNat'] <;> omega
  · split at mem
    · simp only [List.mem_cons, List.not_mem_nil, or_false] at mem
      rcases mem with rfl | rfl | rfl <;> simp only [UInt8.toNat_ofNat'] <;> omega
    · simp only [List.mem_cons, List.not_mem_nil, or_false] at mem
      rcases mem with rfl | rfl | rfl | rfl <;> simp only [UInt8.toNat_ofNat'] <;> omega

/-- The weight of a character, by its bytes. -/
def charWeight (weight : UInt8 → ℕ) (c : Char) : ℕ := weigh weight (String.utf8EncodeChar c)

theorem weigh_utf8 (weight : UInt8 → ℕ) (s : List Char) :
    weigh weight (utf8 s) = weigh (charWeight weight) s :=
  weigh_flatMap

theorem charWeight_of_ascii {weight : UInt8 → ℕ} {c : Char} (ascii : c.toNat < 128) :
    charWeight weight c = weight (.ofNat c.toNat) := by
  simp [charWeight, utf8EncodeChar_of_ascii ascii]

theorem charWeight_of_wide {weight : UInt8 → ℕ} {n : ℕ} {c : Char}
    (same : ∀ b, 128 ≤ b.toNat → weight b = n) (wide : 128 ≤ c.toNat) :
    charWeight weight c = n * c.utf8Size := by
  rw [charWeight, weigh_const fun b mem => same b (le_of_mem_utf8EncodeChar wide mem),
    String.length_utf8EncodeChar]

theorem le_charWeight {weight : UInt8 → ℕ} {least : ℕ} (atLeast : ∀ b, least ≤ weight b)
    (c : Char) :
    least ≤ charWeight weight c := by
  obtain ⟨b, mem⟩ := List.exists_mem_of_ne_nil _ (String.utf8EncodeChar_ne_nil (c := c))
  exact (atLeast b).trans (le_weigh weight mem)

/-- Every byte weighs `base`, and those of the ASCII characters `marks` weigh `extra` more. -/
def markWeight (base extra : ℕ) (marks : List Char) (b : UInt8) : ℕ :=
  if marks.any fun c => b = .ofNat c.toNat then base + extra else base

section Mark

variable {base extra : ℕ} {marks : List Char}

theorem markWeight_le (b : UInt8) : markWeight base extra marks b ≤ base + extra := by
  unfold markWeight
  split <;> omega

theorem le_markWeight (b : UInt8) : base ≤ markWeight base extra marks b := by
  unfold markWeight
  split <;> omega

theorem markWeight_of_mem {c : Char} (mem : c ∈ marks) :
    markWeight base extra marks (.ofNat c.toNat) = base + extra :=
  if_pos (List.any_eq_true.mpr ⟨c, mem, by simp⟩)

theorem charWeight_of_mem (ascii : ∀ m ∈ marks, m.toNat < 128) {c : Char} (mem : c ∈ marks) :
    charWeight (markWeight base extra marks) c = base + extra := by
  rw [charWeight_of_ascii (ascii c mem), markWeight_of_mem mem]

/-- The other characters have the weight of their bytes. -/
theorem charWeight_markWeight (ascii : ∀ m ∈ marks, m.toNat < 128) {c : Char} (other : c ∉ marks) :
    charWeight (markWeight base extra marks) c = base * c.utf8Size := by
  by_cases small : c.toNat < 128
  · have size := congrArg List.length (utf8EncodeChar_of_ascii small)
    rw [String.length_utf8EncodeChar, List.length_singleton] at size
    rw [charWeight_of_ascii small, size, Nat.mul_one]
    refine if_neg fun found => ?_
    obtain ⟨m, mem, same⟩ := List.any_eq_true.mp found
    rw [decide_eq_true_eq] at same
    have bytes := congrArg UInt8.toNat same
    have low := ascii m mem
    simp only [UInt8.toNat_ofNat'] at bytes
    obtain rfl : c = m := Char.toNat_inj.mp (by omega)
    exact other mem
  · refine charWeight_of_wide (fun b wide => if_neg fun found => ?_) (by omega)
    obtain ⟨m, mem, same⟩ := List.any_eq_true.mp found
    rw [decide_eq_true_eq] at same
    subst same
    have low := ascii m mem
    simp only [UInt8.toNat_ofNat'] at wide
    omega

end Mark

/-- The value of a hexadecimal digit. -/
def hexDigit? (c : Char) : Option ℕ :=
  if '0' ≤ c ∧ c ≤ '9' then some (c.toNat - 48)
  else if 'a' ≤ c ∧ c ≤ 'f' then some (c.toNat - 87)
  else if 'A' ≤ c ∧ c ≤ 'F' then some (c.toNat - 55)
  else none

/-! ### Rewriting -/

section Rewrite

variable {α : Type u} {β : Type v}

/-- Rewrite a text after `skip` of its letters: `find` looks at the text in front, and says
how many letters after the first one it replaces and by what; a letter where nothing is
found is copied. -/
def rewrite (find : List α → Option (ℕ × List β)) (copy : α → List β) : ℕ → List α → List β
  | _, [] => []
  | skip + 1, _ :: rest => rewrite find copy skip rest
  | 0, c :: rest =>
      match find (c :: rest) with
      | some found => found.2 ++ rewrite find copy found.1 rest
      | none => copy c ++ rewrite find copy 0 rest

/-- Something is found somewhere in the text. -/
def Occurs (find : List α → Option (ℕ × List β)) : List α → Prop
  | [] => False
  | c :: rest => (find (c :: rest)).isSome ∨ Occurs find rest

instance decidableOccurs (find : List α → Option (ℕ × List β)) :
    (s : List α) → Decidable (Occurs find s)
  | [] => isFalse id
  | c :: rest =>
      have := decidableOccurs find rest
      inferInstanceAs (Decidable ((find (c :: rest)).isSome ∨ Occurs find rest))

variable {find : List α → Option (ℕ × List β)} {copy : α → List β} {a b s : List α}

/-- **Where nothing is found the text is copied.** -/
theorem rewrite_eq_flatMap (clean : ¬ Occurs find s) : rewrite find copy 0 s = s.flatMap copy := by
  induction s with
  | nil => rfl
  | cons c rest ih =>
      rw [Occurs, not_or] at clean
      have none : find (c :: rest) = none := Option.not_isSome_iff_eq_none.mp clean.1
      rw [rewrite, none, List.flatMap_cons, ih clean.2]

/-- A boundary that `find` does not look across divides what is found. -/
theorem occurs_append (apart : ∀ t, t ≠ [] → find (t ++ b) = find t) :
    Occurs find (a ++ b) ↔ Occurs find a ∨ Occurs find b := by
  induction a with
  | nil => simp [Occurs]
  | cons c rest ih =>
      rw [List.cons_append, Occurs, Occurs, ih, ← List.cons_append,
        apart (c :: rest) (List.cons_ne_nil _ _), or_assoc]

/-- **A boundary divides the work.** -/
theorem rewrite_append (inside : ∀ t found, find t = some found → found.1 < t.length)
    (apart : ∀ t, t ≠ [] → find (t ++ b) = find t) {skip : ℕ} (short : skip ≤ a.length) :
    rewrite find copy skip (a ++ b) = rewrite find copy skip a ++ rewrite find copy 0 b := by
  induction a generalizing skip with
  | nil =>
      obtain rfl : skip = 0 := by simpa using short
      simp [rewrite]
  | cons c rest ih =>
      cases skip with
      | succ skip =>
          rw [List.length_cons] at short
          exact ih (by omega)
      | zero =>
          have same : find (c :: (rest ++ b)) = find (c :: rest) :=
            apart (c :: rest) (List.cons_ne_nil _ _)
          rw [List.cons_append, rewrite, rewrite, same]
          cases found : find (c :: rest) with
          | none =>
              simp only
              rw [ih (Nat.zero_le _), List.append_assoc]
          | some replaced =>
              have more := inside _ _ found
              rw [List.length_cons] at more
              simp only
              rw [ih (by omega), List.append_assoc]

/-! ### Shortening -/

/-- A rewriting by something lighter: no letter is copied to more than it weighs, and what is
replaced outweighs its replacement by `gap`. -/
structure Shortens (find : List α → Option (ℕ × List β)) (copy : α → List β) (weight : α → ℕ)
    (weight' : β → ℕ) (gap : ℕ) : Prop where
  copies : ∀ c, weigh weight' (copy c) ≤ weight c
  replaces : ∀ c rest found, find (c :: rest) = some found →
    weigh weight' found.2 + gap ≤ weight c + weigh weight (rest.take found.1)

variable {weight : α → ℕ} {weight' : β → ℕ} {gap : ℕ}

theorem weigh_rewrite_le (shortens : Shortens find copy weight weight' gap) (skip : ℕ) :
    weigh weight' (rewrite find copy skip s) ≤ weigh weight (s.drop skip) := by
  induction s generalizing skip with
  | nil => simp [rewrite]
  | cons c rest ih =>
      cases skip with
      | succ skip => exact ih skip
      | zero =>
          rw [rewrite]
          cases found : find (c :: rest) with
          | none =>
              have copied := shortens.copies c
              have others := ih 0
              simp only [weigh_append, List.drop_zero, weigh_cons] at others ⊢
              omega
          | some replaced =>
              have lighter := shortens.replaces c rest replaced found
              have others := ih replaced.1
              have parts := weigh_take_add_drop weight rest replaced.1
              simp only [weigh_append, List.drop_zero, weigh_cons]
              omega

/-- **Where something is found the text becomes lighter.** -/
theorem weigh_rewrite_add_le (shortens : Shortens find copy weight weight' gap)
    (occurs : Occurs find s) : weigh weight' (rewrite find copy 0 s) + gap ≤ weigh weight s := by
  induction s with
  | nil => exact occurs.elim
  | cons c rest ih =>
      rw [rewrite]
      cases found : find (c :: rest) with
      | none =>
          have copied := shortens.copies c
          rw [Occurs, found] at occurs
          have others := ih (occurs.resolve_left (by simp))
          simp only [weigh_append, weigh_cons]
          omega
      | some replaced =>
          have lighter := shortens.replaces c rest replaced found
          have others := weigh_rewrite_le (s := rest) shortens replaced.1
          have parts := weigh_take_add_drop weight rest replaced.1
          simp only [weigh_append, weigh_cons]
          omega

/-- What keeps its weight contains nothing to replace. -/
theorem not_occurs_of_weigh_le (shortens : Shortens find copy weight weight' gap) (some : 0 < gap)
    (whole : weigh weight s ≤ weigh weight' (rewrite find copy 0 s)) : ¬ Occurs find s := by
  intro occurs
  have lighter := weigh_rewrite_add_le shortens occurs
  omega

end Rewrite

end Library
