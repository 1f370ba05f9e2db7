import MediaUpdater.Library.Text

/-!
# Queries

The query of a URI is what stands behind its first `?`, up to a `#`.  It is a list of items
divided by `&`, each a name and a value divided by its first `=`.  Both are percent-decoded:
a `%` with two hexadecimal digits behind it is a byte, every other character stands for
its UTF-8 encoding, a stray `%` too.

## Main results

* `eq_of_received` — decoding and cutting both make a text shorter, so what arrives with all
  of its bytes arrives as it was put in.
* `parameters_iff` — a query says what was put into it exactly when every value is `Literal`.
-/

namespace Library

namespace Uri

/-! ### Percent-decoding -/

/-- An escaped byte in front of a text, with the two characters that follow the `%`. -/
def escape? : List Char → Option (ℕ × List UInt8)
  | c :: high :: low :: _ =>
      if c = '%' then
        (hexDigit? high).bind fun a => (hexDigit? low).map fun b => (2, [.ofNat (16 * a + b)])
      else none
  | _ => none

/-- Percent-decoding. -/
def percentDecode (s : List Char) : List UInt8 := rewrite escape? String.utf8EncodeChar 0 s

/-- There is an escaped byte in the text. -/
abbrev HasEscape (s : List Char) : Prop := Occurs escape? s

variable {s t a b v pre rest : List Char} {key other : List Char}

theorem escape?_eq_some {c : Char} {found : ℕ × List UInt8}
    (escaped : escape? (c :: s) = some found) :
    ∃ high low rest byte, s = high :: low :: rest ∧ found = (2, [byte]) := by
  match s with
  | [] | [_] => cases escaped
  | high :: low :: rest =>
      rw [escape?, Option.ite_none_right_eq_some] at escaped
      obtain ⟨a, -, escaped⟩ := Option.bind_eq_some_iff.mp escaped.2
      obtain ⟨b, -, rfl⟩ := Option.map_eq_some_iff.mp escaped
      exact ⟨high, low, rest, _, rfl, rfl⟩

/-- No escape reaches over a character that is no hexadecimal digit. -/
theorem escape?_append (divides : ∀ c ∈ b.head?, hexDigit? c = none) (t : List Char)
    (some : t ≠ []) :
    escape? (t ++ b) = escape? t := by
  match t with
  | [] => exact absurd rfl some
  | [c] =>
      match b with
      | [] | [_] => rfl
      | h :: l :: rest =>
          have none := divides h rfl
          simp [escape?, none]
  | [c, h] =>
      match b with
      | [] => rfl
      | l :: rest =>
          have none := divides l rfl
          simp [escape?, none]
  | c :: h :: l :: rest => rfl

theorem hasEscape_append (divides : ∀ c ∈ b.head?, hexDigit? c = none) :
    HasEscape (a ++ b) ↔ HasEscape a ∨ HasEscape b :=
  occurs_append (escape?_append divides)

/-- No escape begins in a text without a `%`. -/
theorem hasEscape_of_no_percent (noPercent : '%' ∉ a) : HasEscape (a ++ b) ↔ HasEscape b := by
  induction a with
  | nil => rfl
  | cons c rest ih =>
      rw [List.mem_cons, not_or] at noPercent
      have none : escape? (c :: (rest ++ b)) = none := by
        match rest ++ b with
        | [] | [_] => rfl
        | _ :: _ :: _ => exact if_neg fun same => noPercent.1 same.symm
      rw [List.cons_append, HasEscape, Occurs, none]
      simpa using ih noPercent.2

theorem not_hasEscape (noPercent : '%' ∉ s) : ¬ HasEscape s := by
  rw [← List.append_nil s, hasEscape_of_no_percent noPercent]
  exact id

/-- Decoding makes a text lighter, when no byte weighs more than a `%`. -/
theorem shortens {weight : UInt8 → ℕ} {gap : ℕ} (most : ∀ b, weight b ≤ weight 37)
    (least : ∀ b, gap ≤ weight b) :
    Shortens escape? String.utf8EncodeChar (charWeight weight) weight gap where
  copies c := le_rfl
  replaces c rest found escaped := by
    obtain ⟨high, low, rest, byte, rfl, rfl⟩ := escape?_eq_some escaped
    have percent : c = '%' := by
      rw [escape?, Option.ite_none_right_eq_some] at escaped
      exact escaped.1
    have value : charWeight weight '%' = weight 37 := rfl
    have atMost := most byte
    have atLeast := le_charWeight least high
    simp only [percent, value, weigh_cons, weigh_nil, List.take_succ_cons, List.take_zero]
    omega

/-- Text without an escape is its own UTF-8 encoding. -/
theorem percentDecode_eq (clean : ¬ HasEscape s) : percentDecode s = utf8 s :=
  rewrite_eq_flatMap clean

theorem weigh_percentDecode_le {weight : UInt8 → ℕ} (most : ∀ b, weight b ≤ weight 37) :
    weigh weight (percentDecode s) ≤ weigh (charWeight weight) s := by
  simpa [percentDecode] using weigh_rewrite_le (s := s) (shortens most fun b => Nat.zero_le _) 0

/-! ### Literal text -/

/-- The character neither ends an item nor the query. -/
def inItem (c : Char) : Bool := c ≠ '&' && c ≠ '#'

/-- The text stands for itself in an item of a query. -/
structure Literal (s : List Char) : Prop where
  within : ∀ c ∈ s, inItem c = true
  clean : ¬ HasEscape s

theorem literal_iff : Literal s ↔ (∀ c ∈ s, inItem c = true) ∧ ¬ HasEscape s :=
  ⟨fun literal => ⟨literal.1, literal.2⟩, fun both => ⟨both.1, both.2⟩⟩

instance (s : List Char) : Decidable (Literal s) :=
  decidable_of_iff (s.all inItem = true ∧ ¬ HasEscape s) (by rw [List.all_eq_true, literal_iff])

theorem literal_of_notMem (noPercent : '%' ∉ s) (noAmp : '&' ∉ s) (noHash : '#' ∉ s) :
    Literal s where
  within c mem := by
    have amp : c ≠ '&' := fun same => noAmp (same ▸ mem)
    have hash : c ≠ '#' := fun same => noHash (same ▸ mem)
    simp [inItem, amp, hash]
  clean := not_hasEscape noPercent

theorem literal_append (divides : ∀ c ∈ b.head?, hexDigit? c = none) :
    Literal (a ++ b) ↔ Literal a ∧ Literal b := by
  rw [literal_iff, literal_iff, literal_iff, hasEscape_append divides]
  simp only [List.mem_append]
  constructor
  · rintro ⟨inside, clean⟩
    exact ⟨⟨fun c mem => inside c (.inl mem), fun found => clean (.inl found)⟩,
      fun c mem => inside c (.inr mem), fun found => clean (.inr found)⟩
  · rintro ⟨left, right⟩
    exact ⟨fun c mem => mem.elim (left.1 c) (right.1 c), fun found => found.elim left.2 right.2⟩

/-- Harmless text in front changes nothing. -/
theorem literal_of_no_percent (noPercent : '%' ∉ a) (inside : ∀ c ∈ a, inItem c = true) :
    Literal (a ++ b) ↔ Literal b := by
  rw [literal_iff, literal_iff, hasEscape_of_no_percent noPercent]
  refine and_congr_left fun _ => ⟨fun all c mem => all c (List.mem_append_right a mem), ?_⟩
  intro all c mem
  exact (List.mem_append.mp mem).elim (inside c) (all c)

/-- What follows an item is not in it. -/
theorem takeWhile_inItem (ends : ∀ c ∈ rest.head?, inItem c = false) :
    (v ++ rest).takeWhile inItem = v.takeWhile inItem := by
  by_cases all : ∀ c ∈ v, inItem c = true
  · rw [List.takeWhile_append_of_pos all, List.takeWhile_eq_self_iff.mpr all]
    cases rest with
    | nil => simp
    | cons c rest => simp [ends c rfl]
  · rw [List.takeWhile_append, if_neg]
    intro same
    refine all ?_
    rw [← List.takeWhile_eq_self_iff]
    exact (List.takeWhile_prefix _).eq_of_length same

/-! ### What arrives -/

/-- Nothing arrives that weighs more than what was put in. -/
theorem weigh_le_of_received (weight : UInt8 → ℕ) (most : ∀ b, weight b ≤ weight 37)
    (received : percentDecode (v.takeWhile inItem) = utf8 t) :
    weigh (charWeight weight) t ≤ weigh (charWeight weight) v := by
  rw [← weigh_utf8, ← received]
  exact (weigh_percentDecode_le most).trans weigh_takeWhile_le

/-- **What arrives with all of its weight arrives as it was put in.** -/
theorem eq_of_received (weight : UInt8 → ℕ) (most : ∀ b, weight b ≤ weight 37)
    (positive : ∀ b, 0 < weight b) (received : percentDecode (v.takeWhile inItem) = utf8 t)
    (whole : weigh (charWeight weight) v ≤ weigh (charWeight weight) t) : Literal v ∧ v = t := by
  rw [← weigh_utf8 weight t, ← received] at whole
  have inside := all_of_weigh_takeWhile (le_charWeight positive)
    (whole.trans (weigh_percentDecode_le most))
  rw [List.takeWhile_eq_self_iff.mpr inside] at whole received
  have clean := not_occurs_of_weigh_le (shortens most positive) Nat.one_pos whole
  rw [percentDecode_eq clean] at received
  exact ⟨⟨inside, clean⟩, utf8_injective received⟩

/-- **A text comes back from an item exactly when it is literal.** -/
theorem percentDecode_takeWhile_eq_iff :
    percentDecode (v.takeWhile inItem) = utf8 v ↔ Literal v := by
  constructor
  · intro received
    exact (eq_of_received (fun _ => 1) (fun _ => le_rfl) (fun _ => Nat.one_pos) received le_rfl).1
  · intro literal
    rw [List.takeWhile_eq_self_iff.mpr literal.within, percentDecode_eq literal.clean]

/-! ### The parameters of a query -/

/-- The query of a URI. -/
def query (uri : List Char) : List Char :=
  ((uri.takeWhile (· ≠ '#')).dropWhile (· ≠ '?')).tail

/-- The value of the first item with the given name, as bytes. -/
def parameter (uri key : List Char) : Option (List UInt8) :=
  ((query uri).splitOn '&').findSome? fun item =>
    if percentDecode (item.takeWhile (· ≠ '=')) = utf8 key then
      some (percentDecode (item.dropWhile (· ≠ '=')).tail)
    else none

/-- An item behind others. -/
def item (key v : List Char) : List Char := '&' :: (key ++ '=' :: v)

/-- The text reaches into the query of a URI. -/
structure InQuery (pre : List Char) : Prop where
  noFragment : '#' ∉ pre
  query : '?' ∈ pre

/-- The name needs no decoding and no divider is in it. -/
structure Name (key : List Char) : Prop where
  literal : Literal key
  noEquals : '=' ∉ key

instance (key : List Char) : Decidable (Name key) :=
  decidable_of_iff (Literal key ∧ '=' ∉ key)
    ⟨fun both => ⟨both.1, both.2⟩, fun name => ⟨name.1, name.2⟩⟩

theorem InQuery.append (inQuery : InQuery pre) (noFragment : '#' ∉ s) : InQuery (pre ++ s) where
  noFragment mem := (List.mem_append.mp mem).elim inQuery.noFragment noFragment
  query := List.mem_append_left _ inQuery.query

theorem splitOn_query_append (inQuery : InQuery pre) (s : List Char) :
    (query (pre ++ '&' :: s)).splitOn '&' =
      (query pre).splitOn '&' ++ (s.takeWhile (· ≠ '#')).splitOn '&' := by
  have kept : ∀ c ∈ pre, decide (c ≠ '#') = true := by
    intro c mem
    simpa using fun same : c = '#' => inQuery.noFragment (same ▸ mem)
  obtain ⟨head, tail, start⟩ : ∃ head tail, pre.dropWhile (· ≠ '?') = head :: tail := by
    cases dropped : pre.dropWhile (· ≠ '?') with
    | nil =>
        rw [List.dropWhile_eq_nil_iff] at dropped
        simpa using dropped '?' inQuery.query
    | cons head tail => exact ⟨head, tail, rfl⟩
  unfold query
  rw [List.takeWhile_append_of_pos kept, List.takeWhile_eq_self_iff.mpr kept, List.dropWhile_append,
    start, List.takeWhile_cons_of_pos (by decide)]
  simp only [List.isEmpty_cons, Bool.false_eq_true, if_false, List.cons_append, List.tail_cons]
  exact List.splitOn_append_cons_self tail _

/-- The first item of a text. -/
theorem splitOn_eq_cons (s : List Char) :
    ∃ others, s.splitOn '&' = s.takeWhile (· ≠ '&') :: others := by
  by_cases mem : '&' ∈ s
  · obtain ⟨first, rest, rfl, apart⟩ := List.eq_append_cons_of_mem mem
    have all : ∀ c ∈ first, decide (c ≠ '&') = true := by
      intro c there
      simpa using fun same : c = '&' => apart (same ▸ there)
    refine ⟨rest.splitOn '&', ?_⟩
    rw [List.splitOn_append_cons_self_of_not_mem apart, List.takeWhile_append_of_pos all]
    simp
  · have all : ∀ c ∈ s, decide (c ≠ '&') = true := by
      intro c there
      simpa using fun same : c = '&' => mem (same ▸ there)
    exact ⟨[], by rw [List.splitOn_eq_singleton mem, List.takeWhile_eq_self_iff.mpr all]⟩

theorem Name.takeWhile (name : Name key) (rest : List Char) :
    (key ++ '=' :: rest).takeWhile (· ≠ '=') = key ∧
      ((key ++ '=' :: rest).dropWhile (· ≠ '=')).tail = rest := by
  have all : ∀ c ∈ key, decide (c ≠ '=') = true := by
    intro c mem
    simpa using fun same : c = '=' => name.noEquals (same ▸ mem)
  rw [List.takeWhile_append_of_pos all, List.dropWhile_append_of_pos all]
  simp

/-- **The first item of a name decides its parameter.** -/
theorem parameter_item (inQuery : InQuery pre) (fresh : parameter pre key = none) (name : Name key)
    (v : List Char) :
    parameter (pre ++ item key v) key = some (percentDecode (v.takeWhile inItem)) := by
  have keyKept (p : Char → Bool) (weaker : ∀ c, inItem c = true → p c = true) :
      ∀ c ∈ key, p c = true := fun c mem => weaker c (name.literal.within c mem)
  have hash : ∀ c, inItem c = true → decide (c ≠ '#') = true := by
    intro c inside
    exact (Bool.and_eq_true _ _ ▸ inside).2
  have amp : ∀ c, inItem c = true → decide (c ≠ '&') = true := by
    intro c inside
    exact (Bool.and_eq_true _ _ ▸ inside).1
  have cut : (key ++ '=' :: v).takeWhile (· ≠ '#') = key ++ '=' :: v.takeWhile (· ≠ '#') := by
    rw [List.takeWhile_append_of_pos (keyKept _ hash), List.takeWhile_cons_of_pos (by decide)]
  obtain ⟨others, split⟩ := splitOn_eq_cons (key ++ '=' :: v.takeWhile (· ≠ '#'))
  rw [List.takeWhile_append_of_pos (keyKept _ amp), List.takeWhile_cons_of_pos (by decide),
    List.takeWhile_takeWhile] at split
  have both : (fun c => decide (decide (c ≠ '&') = true ∧ decide (c ≠ '#') = true)) = inItem := by
    funext c
    simp [inItem]
  rw [both] at split
  unfold parameter at fresh ⊢
  rw [item, splitOn_query_append inQuery, cut, split, List.findSome?_append, fresh, Option.none_or,
    List.findSome?_cons, (name.takeWhile _).1, (name.takeWhile _).2,
    if_pos (percentDecode_eq name.literal.clean)]

theorem Name.inItem_of_mem (name : Name other) (literal : Literal v) :
    ∀ c ∈ other ++ '=' :: v, inItem c = true := by
  intro c mem
  rcases List.mem_append.mp mem with mem | mem
  · exact name.literal.within c mem
  · rcases List.mem_cons.mp mem with rfl | mem
    · rfl
    · exact literal.within c mem

theorem Name.noFragment (name : Name other) (literal : Literal v) : '#' ∉ other ++ '=' :: v :=
  fun mem => by simpa [inItem] using name.inItem_of_mem literal '#' mem

theorem Name.splitOn_eq (name : Name other) (literal : Literal v) :
    (other ++ '=' :: v).splitOn '&' = [other ++ '=' :: v] :=
  List.splitOn_eq_singleton fun mem => by simpa [inItem] using name.inItem_of_mem literal '&' mem

/-- The same with other text behind the item. -/
theorem parameter_item_append (inQuery : InQuery pre) (fresh : parameter pre key = none)
    (name : Name key) (ends : ∀ c ∈ rest.head?, inItem c = false) :
    parameter (pre ++ (item key v ++ rest)) key = some (percentDecode (v.takeWhile inItem)) := by
  have put : item key v ++ rest = item key (v ++ rest) := by simp [item]
  rw [put, parameter_item inQuery fresh name, takeWhile_inItem ends]

/-- An item of another name is passed over. -/
theorem parameter_skip (inQuery : InQuery pre) (fresh : parameter pre key = none)
    (name : Name other)
    (apart : utf8 other ≠ utf8 key) (literal : Literal v) :
    parameter (pre ++ item other v) key = none := by
  have whole : (other ++ '=' :: v).takeWhile (· ≠ '#') = other ++ '=' :: v :=
    List.takeWhile_eq_self_iff.mpr fun c mem =>
      (Bool.and_eq_true _ _ ▸ name.inItem_of_mem literal c mem).2
  unfold parameter at fresh ⊢
  rw [item, splitOn_query_append inQuery, whole, name.splitOn_eq literal, List.findSome?_append,
    fresh, Option.none_or, List.findSome?_cons, (name.takeWhile _).1,
    percentDecode_eq name.literal.clean, if_neg apart]
  rfl

/-- A query of one item. -/
theorem InQuery.single (noFragment : '#' ∉ s) (name : Name key) (literal : Literal v) :
    InQuery (s ++ '?' :: (key ++ '=' :: v)) where
  noFragment mem := by
    rcases List.mem_append.mp mem with mem | mem
    · exact noFragment mem
    · rcases List.mem_cons.mp mem with no | mem
      · exact absurd no (by decide)
      · exact name.noFragment literal mem
  query := by simp

/-- It has no item of another name. -/
theorem parameter_single (noFragment : '#' ∉ s) (noQuery : '?' ∉ s) (name : Name other)
    (apart : utf8 other ≠ utf8 key) (literal : Literal v) :
    parameter (s ++ '?' :: (other ++ '=' :: v)) key = none := by
  have inQuery := InQuery.single noFragment name literal
  have whole : (s ++ '?' :: (other ++ '=' :: v)).takeWhile (· ≠ '#') =
      s ++ '?' :: (other ++ '=' :: v) :=
    List.takeWhile_eq_self_iff.mpr fun c mem =>
      decide_eq_true fun same => inQuery.noFragment (same ▸ mem)
  have dropped : ∀ c ∈ s, decide (c ≠ '?') = true := by
    intro c mem
    simpa using fun same : c = '?' => noQuery (same ▸ mem)
  unfold parameter query
  rw [whole, List.dropWhile_append_of_pos dropped, List.dropWhile_cons_of_neg (by decide),
    List.tail_cons, name.splitOn_eq literal, List.findSome?_cons, (name.takeWhile _).1,
    percentDecode_eq name.literal.clean, if_neg apart]
  rfl

theorem InQuery.item (inQuery : InQuery pre) (name : Name key) (literal : Literal v) :
    InQuery (pre ++ item key v) := by
  refine inQuery.append fun mem => ?_
  rcases List.mem_cons.mp mem with no | mem
  · exact absurd no (by decide)
  · exact name.noFragment literal mem

/-- **A query says what was put into it exactly when every value is literal.**  The names are
different, and none of them is in the query already. -/
theorem parameters_iff {items : List (List Char × List Char)} (inQuery : InQuery pre)
    (fresh : ∀ i ∈ items, parameter pre i.1 = none) (names : ∀ i ∈ items, Name i.1)
    (apart : (items.map fun i => utf8 i.1).Nodup) (ends : ∀ c ∈ rest.head?, inItem c = false) :
    (∀ i ∈ items, parameter (pre ++ (items.flatMap (fun i => item i.1 i.2) ++ rest)) i.1 =
      some (utf8 i.2)) ↔ ∀ i ∈ items, Literal i.2 := by
  induction items generalizing pre with
  | nil => simp
  | cons i items ih =>
      have follows : ∀ c ∈ (items.flatMap (fun i => item i.1 i.2) ++ rest).head?,
        inItem c = false := by
        cases items with
        | nil => exact ends
        | cons j items =>
            intro c found
            obtain rfl : '&' = c := Option.some.inj found
            rfl
      have first : parameter (pre ++ ((i :: items).flatMap (fun i => item i.1 i.2) ++ rest)) i.1 =
          some (utf8 i.2) ↔ Literal i.2 := by
        rw [List.flatMap_cons, List.append_assoc, parameter_item_append inQuery
          (fresh i List.mem_cons_self) (names i List.mem_cons_self) follows, Option.some_inj,
          percentDecode_takeWhile_eq_iff]
      rw [List.forall_mem_cons, List.forall_mem_cons, first]
      refine and_congr_right fun literal => ?_
      rw [List.map_cons, List.nodup_cons] at apart
      have others := ih (inQuery.item (names i List.mem_cons_self) literal) (fun j mem => ?_)
        (fun j mem => names j (List.mem_cons_of_mem _ mem)) apart.2
      · rw [← others]
        simp only [List.flatMap_cons, List.append_assoc]
      · refine parameter_skip inQuery (fresh j (List.mem_cons_of_mem _ mem))
          (names i List.mem_cons_self) (fun same => apart.1 ?_) literal
        rw [same]
        exact List.mem_map_of_mem mem

end Uri

end Library
