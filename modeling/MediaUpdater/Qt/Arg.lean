import MediaUpdater.Library.Text
import MediaUpdater.Qt.Path

/-!
# `QString::arg`

`arg` replaces the place markers of the lowest number in a text.  A marker is a `%`, an
optional `L`, and one digit or two; the text that is put in is not looked at, but the next
`arg` of a chain looks at it like at the rest.  So an argument with a marker of its own
takes the place of a later argument.

## Main results

* `argLocalized_eq` — where the text has one marker of the lowest number, `arg` puts its
  argument there.
* `foldl_argLocalized` — a chain of `arg` fills a format, when no argument has a marker of
  its own that is low enough to be taken for one of the format.
* `foldl_low` — where an argument has such a marker, and the arguments behind it weigh less
  than it, the chain makes that argument lighter: it does not arrive.
-/

namespace MediaUpdater

open Library

/-- `QString::number` of an integer. -/
def number : ℤ → QString
  | .ofNat n => Nat.toDigits 10 n
  | .negSucc n => '-' :: Nat.toDigits 10 (n + 1)

/-- A number consists of digits and a minus. -/
theorem notMem_number {n : ℤ} {c : Char} (noDigit : c.isDigit = false) (noMinus : c ≠ '-') :
    c ∉ number n := by
  have notMem (n : ℕ) : c ∉ Nat.toDigits 10 n := by
    intro mem
    rw [Nat.isDigit_of_mem_toDigits (by decide) (by decide) mem] at noDigit
    cases noDigit
  cases n with
  | ofNat n => exact notMem n
  | negSucc n =>
      intro mem
      exact (List.mem_cons.mp mem).elim noMinus (notMem (n + 1))

/-- What `arg` asks Qt about digits and numbers. -/
structure QNumbers where
  /-- `QChar::digitValue`, `none` for -1. -/
  digitValue : Char → Option ℕ
  digitValue_digit : ∀ c, c.isDigit → digitValue c = some (c.toNat - 48)
  digitValue_ascii : ∀ c, c.toNat < 128 → c.isDigit = false → digitValue c = none
  /-- A number as the locale writes it, for a marker with an `L`. -/
  localized : ℤ → QString
  localized_no_percent : ∀ n, '%' ∉ localized n

/-- The digits of ASCII and the locale C. -/
def QNumbers.ascii : QNumbers where
  digitValue c := if c.isDigit then some (c.toNat - 48) else none
  digitValue_digit _ digit := if_pos digit
  digitValue_ascii _ _ noDigit := if_neg (by simp [noDigit])
  localized := number
  localized_no_percent _ := notMem_number rfl (by decide)

namespace QString

/-! ### Place markers -/

/-- A place marker. -/
structure Marker where
  number : ℕ
  /-- There is an `L` in it. -/
  localeArg : Bool
  length : ℕ

variable (numbers : QNumbers)

/-- One digit or two in front of a text: the number and how many digits it has. -/
def digits? : QString → Option (ℕ × ℕ)
  | [] => none
  | c :: rest => (numbers.digitValue c).map fun escape =>
      match rest.head?.bind numbers.digitValue with
      | some nextEscape => (10 * escape + nextEscape, 2)
      | none => (escape, 1)

/-- The place marker in front of a text. -/
def marker? : QString → Option Marker
  | [] => none
  | c :: rest =>
      if c ≠ '%' then none
      else if rest.head? = some 'L' then
        (digits? numbers rest.tail).map fun n => ⟨n.1, true, n.2 + 2⟩
      else (digits? numbers rest).map fun n => ⟨n.1, false, n.2 + 1⟩

/-- The place markers of a text. -/
def markers : QString → List Marker
  | [] => []
  | c :: rest => (marker? numbers (c :: rest)).toList ++ markers rest

/-- What is put in at the front of a text, when there is a marker of the lowest number. -/
def replacement (lowest : ℕ) (a localized : QString) (s : QString) : Option (ℕ × QString) :=
  ((marker? numbers s).filter fun marker => marker.number = lowest).map fun marker =>
    (marker.length - 1, if marker.localeArg then localized else a)

/-- The text with all markers of this number replaced. -/
def replaceArgEscapes (lowest : ℕ) (a localized : QString) (s : QString) : QString :=
  rewrite (replacement numbers lowest a localized) (fun c => [c]) 0 s

/-- `QString::arg`, where `localized` goes to the markers with an `L`. -/
def argLocalized (s a localized : QString) : QString :=
  match ((markers numbers s).map Marker.number).min? with
  | none => s
  | some lowest => replaceArgEscapes numbers lowest a localized s

/-- `QString::arg(const QString &)`. -/
def arg (s a : QString) : QString := argLocalized numbers s a a

/-- `QString::arg(int)`. -/
def argInt (s : QString) (n : ℤ) : QString :=
  argLocalized numbers s (MediaUpdater.number n) (numbers.localized n)

/-- The text has no marker up to the number `n`. -/
def Clear (n : ℕ) (s : QString) : Prop := ∀ marker ∈ markers numbers s, n < marker.number

instance (n : ℕ) (s : QString) : Decidable (Clear numbers n s) :=
  inferInstanceAs (Decidable (∀ marker ∈ markers numbers s, n < marker.number))

/-- No marker reaches into the text from the left. -/
def Divides (b : QString) : Prop := ∀ c ∈ b.head?, c ≠ 'L' ∧ numbers.digitValue c = none

/-- The text can stand behind others: no marker reaches into it, and its own are numbered
from `n` on. -/
structure Follows (n : ℕ) (b : QString) : Prop where
  divides : Divides numbers b
  high : ∀ marker ∈ markers numbers b, n ≤ marker.number

variable {numbers} {s a b x y localized : QString} {n k : ℕ} {c d : Char} {marker : Marker}

theorem digits?_append (divides : Divides numbers b) (t : QString) :
    digits? numbers (t ++ b) = digits? numbers t := by
  match t with
  | [] =>
      cases b with
      | nil => rfl
      | cons c rest =>
          have none := (divides c rfl).2
          simp [digits?, none]
  | [c] =>
      cases b with
      | nil => rfl
      | cons c' rest =>
          have none := (divides c' rfl).2
          simp [digits?, none]
  | c :: c' :: rest => rfl

theorem marker?_append (divides : Divides numbers b) (t : QString) (some : t ≠ []) :
    marker? numbers (t ++ b) = marker? numbers t := by
  match t with
  | [] => exact absurd rfl some
  | [c] =>
      have bare : digits? numbers b = none := digits?_append divides []
      cases b with
      | nil => rfl
      | cons c' rest =>
          have notL := (divides c' rfl).1
          have none : digits? numbers [] = none := rfl
          simp [marker?, notL, bare, none]
  | c :: c' :: rest =>
      have rest_ := digits?_append divides rest
      have whole := digits?_append divides (c' :: rest)
      rw [List.cons_append] at whole
      simp [marker?, rest_, whole]

/-- What a marker needs is in front of the text. -/
theorem length_of_marker? (found : marker? numbers s = some marker) :
    marker.length - 1 < s.length := by
  have digits (t : QString) (n : ℕ × ℕ) (digits : digits? numbers t = some n) : n.2 ≤ t.length := by
    cases t with
    | nil => cases digits
    | cons c rest =>
        obtain ⟨escape, -, rfl⟩ := Option.map_eq_some_iff.mp digits
        cases rest with
        | nil => exact le_refl 1
        | cons c' rest =>
            split
            · simp
            · simp
  cases s with
  | nil => cases found
  | cons c rest =>
      rw [marker?, Option.ite_none_left_eq_some] at found
      obtain ⟨-, found⟩ := found
      split at found
      next withL =>
        obtain ⟨n, number, rfl⟩ := Option.map_eq_some_iff.mp found
        have inside := digits _ n number
        cases rest with
        | nil => cases withL
        | cons c' rest =>
            rw [List.tail_cons] at inside
            simp only [List.length_cons]
            omega
      next =>
        obtain ⟨n, number, rfl⟩ := Option.map_eq_some_iff.mp found
        have inside := digits _ n number
        simp only [List.length_cons]
        omega

theorem markers_append (divides : Divides numbers b) :
    markers numbers (a ++ b) = markers numbers a ++ markers numbers b := by
  induction a with
  | nil => rfl
  | cons c rest ih =>
      have front := marker?_append divides (c :: rest) (List.cons_ne_nil c rest)
      rw [List.cons_append] at front
      rw [List.cons_append, markers, markers, front, ih, List.append_assoc]

/-! ### Clear texts -/

theorem clear_append (divides : Divides numbers b) :
    Clear numbers n (a ++ b) ↔ Clear numbers n a ∧ Clear numbers n b := by
  simp only [Clear, markers_append divides, List.mem_append, or_imp, forall_and]

theorem Clear.mono (clear : Clear numbers n s) (less : k ≤ n) : Clear numbers k s :=
  fun marker mem => less.trans_lt (clear marker mem)

/-- No marker begins in a text without a `%`. -/
theorem markers_of_no_percent (noPercent : '%' ∉ s) :
    markers numbers (s ++ b) = markers numbers b := by
  induction s with
  | nil => rfl
  | cons c rest ih =>
      rw [List.mem_cons, not_or] at noPercent
      have none : marker? numbers (c :: (rest ++ b)) = none :=
        if_pos fun same => noPercent.1 same.symm
      rw [List.cons_append, markers, none, ih noPercent.2]
      rfl

theorem clear_of_no_percent (noPercent : '%' ∉ s) : Clear numbers n s := by
  have none : markers numbers (s ++ []) = markers numbers [] := markers_of_no_percent noPercent
  rw [List.append_nil] at none
  intro marker mem
  rw [none] at mem
  cases mem

/-- An ASCII character that is neither a digit nor an `L` divides a text. -/
theorem divides_of_ascii (ascii : c.toNat < 128) (noDigit : c.isDigit = false) (notL : c ≠ 'L') :
    Divides numbers (c :: y) := by
  intro head found
  obtain rfl : c = head := Option.some.inj found
  exact ⟨notL, numbers.digitValue_ascii c ascii noDigit⟩

/-- A marker of one digit. -/
theorem marker?_digit (digit : d.isDigit = true) (value : d.toNat = 48 + k)
    (divides : Divides numbers y) : marker? numbers ('%' :: d :: y) = some ⟨k, false, 2⟩ := by
  have escape : numbers.digitValue d = some k := by
    rw [numbers.digitValue_digit d digit, value, Nat.add_sub_cancel_left]
  have notL : d ≠ 'L' := by
    rintro rfl
    cases digit
  have alone : y.head?.bind numbers.digitValue = none := by
    cases y with
    | nil => rfl
    | cons c rest => exact (divides c rfl).2
  simp [marker?, digits?, escape, notL, alone]

theorem markers_digit (digit : d.isDigit = true) (value : d.toNat = 48 + k)
    (divides : Divides numbers y) :
    markers numbers ('%' :: d :: y) = ⟨k, false, 2⟩ :: markers numbers y := by
  have none : marker? numbers (d :: y) = none := if_pos (by
    rintro rfl
    cases digit)
  rw [markers, markers, marker?_digit digit value divides, none]
  rfl

/-! ### Replacing -/

theorem occurs_replacement {t : QString} :
    Occurs (replacement numbers k a localized) t ↔
    ∃ marker ∈ markers numbers t, marker.number = k := by
  induction t with
  | nil => simp [Occurs, markers]
  | cons c rest ih =>
      rw [Occurs, ih, markers]
      cases found : marker? numbers (c :: rest) with
      | none => simp [replacement, found]
      | some marker =>
          by_cases here : marker.number = k
          · simp [replacement, found, here, Option.filter]
          · simp [replacement, found, here, Option.filter]

theorem replaceArgEscapes_eq (none : ∀ marker ∈ markers numbers s, marker.number ≠ k) :
    replaceArgEscapes numbers k a localized s = s := by
  have clean : ¬ Occurs (replacement numbers k a localized) s := by
    rw [occurs_replacement]
    rintro ⟨marker, mem, here⟩
    exact none marker mem here
  rw [replaceArgEscapes, rewrite_eq_flatMap clean, List.flatMap_singleton']

/-- A border divides the work. -/
theorem replaceArgEscapes_append (divides : Divides numbers b) :
    replaceArgEscapes numbers k a localized (s ++ b) =
      replaceArgEscapes numbers k a localized s ++ replaceArgEscapes numbers k a localized b := by
  refine rewrite_append ?_ ?_ (Nat.zero_le _)
  · intro t found replaced
    obtain ⟨marker, found, rfl⟩ := Option.map_eq_some_iff.mp replaced
    exact length_of_marker? (Option.filter_eq_some_iff.mp found).1
  · intro t some
    rw [replacement, replacement, marker?_append divides t some]

/-- Text without a `%` is copied, whatever follows. -/
theorem replaceArgEscapes_of_no_percent (noPercent : '%' ∉ s) :
    replaceArgEscapes numbers k a localized (s ++ b) =
      s ++ replaceArgEscapes numbers k a localized b := by
  induction s with
  | nil => rfl
  | cons c rest ih =>
      rw [List.mem_cons, not_or] at noPercent
      have bare : marker? numbers (c :: (rest ++ b)) = none :=
        if_pos fun same => noPercent.1 same.symm
      have plain : replacement numbers k a localized (c :: (rest ++ b)) = none := by
        simp [replacement, bare]
      rw [List.cons_append, replaceArgEscapes, rewrite, plain]
      exact congrArg (c :: ·) (ih noPercent.2)

/-- `arg` replaces the markers of the lowest number. -/
theorem argLocalized_lowest (mem : ∃ marker ∈ markers numbers s, marker.number = k)
    (lowest : ∀ marker ∈ markers numbers s, k ≤ marker.number) :
    argLocalized numbers s a localized = replaceArgEscapes numbers k a localized s := by
  have found : ((markers numbers s).map Marker.number).min? = some k := by
    rw [List.min?_eq_some_iff]
    exact ⟨List.mem_map.mpr mem, fun n mem => by
      obtain ⟨marker, found, rfl⟩ := List.mem_map.mp mem
      exact lowest marker found⟩
  unfold argLocalized
  rw [found]

/-- **Putting in an argument**: when the lowest marker of a text stands once in it, `arg` puts
its argument there. -/
theorem argLocalized_eq (digit : d.isDigit = true) (value : d.toNat = 48 + k)
    (divides : Divides numbers y) (before : Clear numbers k x) (behind : Clear numbers k y) :
    argLocalized numbers (x ++ '%' :: d :: y) a localized = x ++ a ++ y := by
  have percent : Divides numbers ('%' :: d :: y) := divides_of_ascii (by decide) rfl (by decide)
  have all : markers numbers (x ++ '%' :: d :: y) =
      markers numbers x ++ ⟨k, false, 2⟩ :: markers numbers y := by
    rw [markers_append percent, markers_digit digit value divides]
  have put : argLocalized numbers (x ++ '%' :: d :: y) a localized =
      replaceArgEscapes numbers k a localized (x ++ '%' :: d :: y) := by
    refine argLocalized_lowest ⟨⟨k, false, 2⟩, by simp [all], rfl⟩ fun marker found => ?_
    rw [all] at found
    rcases List.mem_append.mp found with found | found
    · exact (before marker found).le
    · rcases List.mem_cons.mp found with rfl | found
      · exact le_refl k
      · exact (behind marker found).le
  have here : replacement numbers k a localized ('%' :: d :: y) = some (1, a) := by
    simp [replacement, marker?_digit digit value divides]
  have inside : replaceArgEscapes numbers k a localized ('%' :: d :: y) =
      a ++ replaceArgEscapes numbers k a localized y := by
    rw [replaceArgEscapes, rewrite, here]
    rfl
  rw [put, replaceArgEscapes_append percent, inside,
    replaceArgEscapes_eq fun marker mem => (before marker mem).ne',
    replaceArgEscapes_eq fun marker mem => (behind marker mem).ne', List.append_assoc]

/-! ### Chains -/

/-- The text between the place markers of a format: not empty, without a `%`, and no marker
reaches into it. -/
def Separator : QString → Prop
  | [] => False
  | c :: rest => '%' ∉ c :: rest ∧ c.toNat < 128 ∧ c.isDigit = false ∧ c ≠ 'L'

instance : (s : QString) → Decidable (Separator s)
  | [] => isFalse id
  | c :: rest =>
      inferInstanceAs (Decidable ('%' ∉ c :: rest ∧ c.toNat < 128 ∧ c.isDigit = false ∧ c ≠ 'L'))

theorem Separator.divides (separator : Separator s) : Divides numbers (s ++ y) := by
  cases s with
  | nil => exact separator.elim
  | cons c rest => exact divides_of_ascii separator.2.1 separator.2.2.1 separator.2.2.2

theorem Separator.no_percent (separator : Separator s) : '%' ∉ s := by
  cases s with
  | nil => exact separator.elim
  | cons c rest => exact separator.1

theorem Separator.ne_percent (separator : Separator (c :: s)) : c ≠ '%' :=
  fun same => separator.1 (same ▸ List.mem_cons_self)

theorem Separator.append (separator : Separator (c :: s)) (noPercent : '%' ∉ b) :
    Separator (c :: (s ++ b)) := by
  refine ⟨fun mem => ?_, separator.2⟩
  rw [← List.cons_append, List.mem_append] at mem
  exact mem.elim separator.1 noPercent

theorem Separator.clear (separator : Separator s) : Clear numbers n s :=
  clear_of_no_percent separator.no_percent

/-- A format whose markers are numbered from `k` on. -/
def format : ℕ → List QString → QString → QString
  | _, [], last => last
  | k, sep :: seps, last => sep ++ '%' :: Nat.digitChar k :: format (k + 1) seps last

/-- A format with its arguments. -/
def filled : List QString → List QString → QString → QString
  | sep :: seps, a :: args, last => sep ++ (a ++ filled seps args last)
  | _, _, last => last

theorem digitChar_spec (small : k < 10) :
    (Nat.digitChar k).isDigit = true ∧ (Nat.digitChar k).toNat = 48 + k := by
  have all : ∀ k < 10, (Nat.digitChar k).isDigit = true ∧ (Nat.digitChar k).toNat = 48 + k := by
    decide
  exact all k small

theorem follows_nil : Follows numbers n [] where
  divides c found := by cases found
  high marker mem := by cases mem

theorem Separator.follows_append (separator : Separator s) (follows : Follows numbers n b) :
    Follows numbers n (s ++ b) where
  divides := separator.divides
  high marker mem := by
    rw [markers_of_no_percent separator.no_percent] at mem
    exact follows.high marker mem

theorem Separator.follows (separator : Separator s) : Follows numbers n s := by
  have follows : Follows numbers n (s ++ []) := separator.follows_append follows_nil
  rwa [List.append_nil] at follows

theorem Follows.clear (follows : Follows numbers k b) (high : n < k) : Clear numbers n b :=
  fun marker mem => high.trans_le (follows.high marker mem)

/-- The rest of a format. -/
theorem follows_format {seps : List QString} {last : QString}
    (separators : ∀ sep ∈ seps, Separator sep) (follows : Follows numbers (k + seps.length) last)
    (small : k + seps.length ≤ 10) : Follows numbers k (format k seps last) := by
  induction seps generalizing k with
  | nil => exact follows
  | cons sep seps ih =>
      rw [List.length_cons] at small
      have separator := separators sep List.mem_cons_self
      have rest := ih (k := k + 1) (fun sep mem => separators sep (List.mem_cons_of_mem _ mem))
        (by rwa [Nat.add_assoc, Nat.add_comm 1]) (by omega)
      obtain ⟨digit, value⟩ := digitChar_spec (k := k) (by omega)
      refine ⟨separator.divides, fun marker mem => ?_⟩
      rw [format, markers_of_no_percent separator.no_percent,
        markers_digit digit value rest.divides] at mem
      rcases List.mem_cons.mp mem with rfl | mem
      · exact le_refl k
      · have above := rest.high marker mem
        omega

/-- The next argument of a format. -/
theorem argLocalized_format {sep last : QString} {seps : List QString}
    (separators : ∀ sep' ∈ sep :: seps, Separator sep')
    (follows : Follows numbers (k + (sep :: seps).length) last)
    (small : k + (sep :: seps).length ≤ 10) (before : Clear numbers k x) :
    argLocalized numbers (x ++ format k (sep :: seps) last) a localized =
      x ++ sep ++ a ++ format (k + 1) seps last := by
  rw [List.length_cons] at small
  have separator := separators sep List.mem_cons_self
  have next : k + (sep :: seps).length = k + 1 + seps.length := by
    rw [List.length_cons]
    omega
  have rest : Follows numbers (k + 1) (format (k + 1) seps last) :=
    follows_format (fun sep' mem => separators sep' (List.mem_cons_of_mem _ mem)) (next ▸ follows)
      (by omega)
  have behind : Follows numbers k sep := separator.follows
  have front : Clear numbers k (x ++ sep) :=
    (clear_append behind.divides).mpr ⟨before, separator.clear⟩
  obtain ⟨digit, value⟩ := digitChar_spec (k := k) (by omega)
  rw [format, ← List.append_assoc]
  exact argLocalized_eq digit value rest.divides front (rest.clear (Nat.lt_succ_self k))

/-- **A chain of `arg` fills a format**, when no argument but the last has a marker of its
own up to the highest number of the format. -/
theorem foldl_argLocalized (numbers : QNumbers) (k top : ℕ) (seps : List QString)
    (args : List (QString × QString)) (last : QString) (lengths : args.length = seps.length)
    (separators : ∀ sep ∈ seps, Separator sep) (follows : Follows numbers (k + seps.length) last)
    (highest : k + seps.length ≤ top + 1) (small : top < 10) (before : Clear numbers top x)
    (clear : ∀ a ∈ args.dropLast, Clear numbers top a.1) :
    args.foldl (fun s a => argLocalized numbers s a.1 a.2) (x ++ format k seps last) =
      x ++ filled seps (args.map Prod.fst) last := by
  induction seps generalizing k x args with
  | nil =>
      obtain rfl := List.eq_nil_of_length_eq_zero lengths
      rfl
  | cons sep seps ih =>
      cases args with
      | nil => cases lengths
      | cons a args =>
          have below : k ≤ top := by
            rw [List.length_cons] at highest
            omega
          rw [List.foldl_cons, argLocalized_format separators follows (by omega)
            (before.mono below)]
          rw [List.length_cons] at highest follows
          have separator := separators sep List.mem_cons_self
          cases args with
          | nil =>
              obtain rfl : seps = [] := List.eq_nil_of_length_eq_zero (by simpa using lengths.symm)
              simp [filled, format]
          | cons a' args =>
              have here : Clear numbers top a.1 := clear a (by simp)
              have filledFront : Clear numbers top (x ++ sep ++ a.1) := by
                rw [List.append_assoc, clear_append separator.divides]
                refine ⟨before, fun marker mem => here marker ?_⟩
                rwa [markers_of_no_percent separator.no_percent] at mem
              rw [ih (k + 1) (a' :: args) (by simpa using lengths)
                (fun sep mem => separators sep (List.mem_cons_of_mem _ mem))
                (by rwa [Nat.add_assoc, Nat.add_comm 1]) (by omega) filledFront
                fun b mem => clear b (by simpa using .inr mem)]
              simp [filled]

/-! ### Low markers in an argument -/

variable {t w : QString} {weight : Char → ℕ} {gap : ℕ}

/-- **An argument with a low marker** is written over, when the markers around it are not
lower. -/
theorem exists_lowest (separator : Separator w) (clear : Clear numbers n x)
    (follows : Follows numbers n y) (low : ¬ Clear numbers n t) :
    ∃ k, Occurs (replacement numbers k a localized) t ∧
      argLocalized numbers (x ++ (w ++ (t ++ y))) a localized =
        x ++ (w ++ (replaceArgEscapes numbers k a localized t ++
          replaceArgEscapes numbers k a localized y)) := by
  have all : markers numbers (x ++ (w ++ (t ++ y))) =
      markers numbers x ++ (markers numbers t ++ markers numbers y) := by
    rw [markers_append separator.divides, markers_of_no_percent separator.no_percent,
      markers_append follows.divides]
  obtain ⟨marker, there, atMost⟩ : ∃ marker ∈ markers numbers t, marker.number ≤ n := by
    simpa [Clear] using low
  cases found : ((markers numbers (x ++ (w ++ (t ++ y)))).map Marker.number).min? with
  | none =>
      have mem : marker ∈ markers numbers (x ++ (w ++ (t ++ y))) := by simp [all, there]
      rw [List.min?_eq_none_iff, List.map_eq_nil_iff] at found
      rw [found] at mem
      cases mem
  | some k =>
      rw [List.min?_eq_some_iff] at found
      have least : ∀ marker ∈ markers numbers (x ++ (w ++ (t ++ y))), k ≤ marker.number :=
        fun marker mem => found.2 _ (List.mem_map_of_mem mem)
      have below : k ≤ marker.number := least marker (by simp [all, there])
      obtain ⟨first, mem, rfl⟩ := List.mem_map.mp found.1
      have inside : ∃ marker ∈ markers numbers t, marker.number = first.number := by
        have parts := mem
        rw [all, List.mem_append, List.mem_append] at parts
        rcases parts with inX | inT | inY
        · have above := clear first inX
          omega
        · exact ⟨first, inT, rfl⟩
        · have above := follows.high first inY
          exact ⟨marker, there, by omega⟩
      refine ⟨first.number, occurs_replacement.mpr inside, ?_⟩
      rw [argLocalized_lowest ⟨first, mem, rfl⟩ least, replaceArgEscapes_append separator.divides,
        replaceArgEscapes_eq fun marker mem => ?_, replaceArgEscapes_of_no_percent
        separator.no_percent, replaceArgEscapes_append follows.divides]
      have above := clear marker mem
      omega

/-- A marker has at least two characters. -/
theorem marker?_length (found : marker? numbers (c :: s) = some marker) :
    c = '%' ∧ 2 ≤ marker.length := by
  rw [marker?, Option.ite_none_left_eq_some] at found
  obtain ⟨percent, found⟩ := found
  refine ⟨not_not.mp percent, ?_⟩
  have digits (t : QString) (n : ℕ × ℕ) (digits : digits? numbers t = some n) : 1 ≤ n.2 := by
    cases t with
    | nil => cases digits
    | cons c rest =>
        obtain ⟨escape, -, rfl⟩ := Option.map_eq_some_iff.mp digits
        split <;> simp
  split at found
  · obtain ⟨n, number, rfl⟩ := Option.map_eq_some_iff.mp found
    have some := digits _ n number
    simp only
    omega
  · obtain ⟨n, number, rfl⟩ := Option.map_eq_some_iff.mp found
    have some := digits _ n number
    simp only
    omega

/-- The argument makes a text lighter by `gap`, whichever markers it replaces. -/
def Light (numbers : QNumbers) (weight : Char → ℕ) (gap : ℕ) (a localized : QString) : Prop :=
  ∀ k, Shortens (replacement numbers k a localized) (fun c => [c]) weight weight gap

/-- An argument that weighs less than a marker. -/
theorem light_of_weigh {least : ℕ} (atLeast : ∀ c, least ≤ weight c)
    (less : weigh weight a + gap ≤ weight '%' + least)
    (less' : weigh weight localized + gap ≤ weight '%' + least) :
    Light numbers weight gap a localized := by
  refine fun k => ⟨fun c => by simp, fun c rest found replaced => ?_⟩
  obtain ⟨marker, found, rfl⟩ := Option.map_eq_some_iff.mp replaced
  have read := (Option.filter_eq_some_iff.mp found).1
  obtain ⟨rfl, two⟩ := marker?_length read
  have behind : 0 < (rest.take (marker.length - 1)).length := by
    have inside := length_of_marker? read
    rw [List.length_cons] at inside
    rw [List.length_take]
    omega
  obtain ⟨d, mem⟩ := List.exists_mem_of_length_pos behind
  have heavy := (atLeast d).trans (le_weigh weight mem)
  have put : weigh weight (if marker.localeArg then localized else a) + gap ≤ weight '%' +
    least := by
    split
    · exact less'
    · exact less
  exact put.trans (Nat.add_le_add_left heavy _)

/-- Where a light argument takes nothing away, nothing is replaced. -/
theorem replaceArgEscapes_eq_of_weigh (light : Light numbers weight gap a localized)
    (some : 0 < gap)
    (whole : weigh weight s ≤ weigh weight (replaceArgEscapes numbers k a localized s)) :
    replaceArgEscapes numbers k a localized s = s := by
  have clean := not_occurs_of_weigh_le (light k) some whole
  rw [replaceArgEscapes, rewrite_eq_flatMap clean, List.flatMap_singleton']

/-- Another argument for a text that is followed by an ordinary character. -/
theorem argLocalized_keeps (light : Light numbers weight gap a localized) (noPercent : '%' ∉ x)
    (border : Divides numbers (c :: y)) (plain : c ≠ '%') :
    ∃ t' y', argLocalized numbers (x ++ (t ++ c :: y)) a localized = x ++ (t' ++ c :: y') ∧
      weigh weight t' ≤ weigh weight t := by
  unfold argLocalized
  split
  · exact ⟨t, y, rfl, le_refl _⟩
  next k _ =>
    refine ⟨replaceArgEscapes numbers k a localized t, replaceArgEscapes numbers k a localized y,
      ?_, weigh_rewrite_le (light k) 0⟩
    have one : replaceArgEscapes numbers k a localized ([c] ++ y) =
        [c] ++ replaceArgEscapes numbers k a localized y :=
      replaceArgEscapes_of_no_percent (by simpa using plain.symm)
    rw [replaceArgEscapes_of_no_percent noPercent, replaceArgEscapes_append border]
    exact congrArg (fun rest => x ++ (replaceArgEscapes numbers k a localized t ++ rest)) one

/-- **An argument with a low marker** becomes lighter. -/
theorem argLocalized_low (light : Light numbers weight gap a localized) (separator : Separator w)
    (clear : Clear numbers n x) (follows : Follows numbers n (c :: y)) (plain : c ≠ '%')
    (low : ¬ Clear numbers n t) :
    ∃ t' y', argLocalized numbers (x ++ (w ++ (t ++ c :: y))) a localized =
        x ++ (w ++ (t' ++ c :: y')) ∧
      weigh weight t' + gap ≤ weigh weight t := by
  obtain ⟨k, occurs, put⟩ := exists_lowest separator clear follows low
  have one : replaceArgEscapes numbers k a localized ([c] ++ y) =
      [c] ++ replaceArgEscapes numbers k a localized y :=
    replaceArgEscapes_of_no_percent (by simpa using plain.symm)
  exact ⟨_, _, put.trans (congrArg (fun rest => x ++ (w ++ (_ ++ rest))) one),
    weigh_rewrite_add_le (light k) occurs⟩

/-- Further arguments. -/
theorem foldl_keeps {args : List (QString × QString)}
    (light : ∀ a ∈ args, Light numbers weight gap a.1 a.2) (noPercent : '%' ∉ x)
    (border : ∀ y, Divides numbers (c :: y)) (plain : c ≠ '%') :
    ∃ t' y', args.foldl (fun s a => argLocalized numbers s a.1 a.2) (x ++ (t ++ c :: y)) =
      x ++ (t' ++ c :: y') ∧ weigh weight t' ≤ weigh weight t := by
  induction args generalizing t y with
  | nil => exact ⟨t, y, rfl, le_refl _⟩
  | cons a args ih =>
      obtain ⟨t', y', put, less⟩ := argLocalized_keeps (t := t) (light a List.mem_cons_self)
        noPercent (border y) plain
      obtain ⟨t'', y'', rest, less'⟩ := ih (t := t') (y := y') fun a mem =>
        light a (List.mem_cons_of_mem _ mem)
      exact ⟨t'', y'', by rw [List.foldl_cons, put, rest], less'.trans less⟩

/-- **A chain of `arg` behind an argument with a low marker** makes that argument lighter. -/
theorem foldl_low (numbers : QNumbers) (k top : ℕ) (seps : List QString)
    (args : List (QString × QString)) (last : QString) (lengths : args.length = seps.length)
    (separators : ∀ sep ∈ seps, Separator sep) (follows : Follows numbers (k + seps.length) last)
    (highest : k + seps.length = top + 1) (small : top < 10)
    (light : ∀ a ∈ args, '%' ∉ a.1 ∧ Light numbers weight gap a.1 a.2) (noPercent : '%' ∉ x)
    (separator : Separator w) (border : Separator (c :: s)) (low : ¬ Clear numbers top t)
    (some : seps = [] → Clear numbers top t) :
    ∃ t' y', args.foldl (fun s a => argLocalized numbers s a.1 a.2)
        (x ++ (w ++ (t ++ c :: (s ++ format k seps last)))) = x ++ (w ++ (t' ++ c :: y')) ∧
      weigh weight t' + gap ≤ weigh weight t := by
  induction seps generalizing k args s with
  | nil => exact absurd (some rfl) low
  | cons sep seps ih =>
      cases args with
      | nil => cases lengths
      | cons a args =>
          have ⟨noPercent', light'⟩ := light a List.mem_cons_self
          have behind : Follows numbers k (c :: (s ++ format k (sep :: seps) last)) :=
            border.follows_append (follows_format separators follows (by omega))
          by_cases here : Clear numbers k t
          · -- the argument goes to its place, and the text in front of the next one stays ordinary
            have border' : Follows numbers k (c :: s) := border.follows
            have before : Clear numbers k (x ++ (w ++ (t ++ c :: s))) := by
              intro marker mem
              rw [markers_of_no_percent noPercent,
                markers_of_no_percent separator.no_percent] at mem
              exact (clear_append border'.divides).mpr ⟨here, border.clear⟩ marker mem
            have put : argLocalized numbers
                (x ++ (w ++ (t ++ c :: (s ++ format k (sep :: seps) last)))) a.1 a.2 =
                x ++ (w ++ (t ++ c :: (s ++ (sep ++ a.1) ++ format (k + 1) seps last))) := by
              have placed : argLocalized numbers
                  (x ++ (w ++ (t ++ c :: s)) ++ format k (sep :: seps) last) a.1 a.2 =
                  x ++ (w ++ (t ++ c :: s)) ++ sep ++ a.1 ++ format (k + 1) seps last :=
                argLocalized_format separators follows (by omega) before
              simpa using placed
            rw [List.length_cons] at highest follows
            rw [List.foldl_cons, put]
            refine ih (k + 1) args (by simpa using lengths)
              (fun sep mem => separators sep (List.mem_cons_of_mem _ mem))
              (by rwa [Nat.add_assoc, Nat.add_comm 1]) (by omega)
              (fun a mem => light a (List.mem_cons_of_mem _ mem)) (border.append ?_) ?_
            · simpa using ⟨(separators sep List.mem_cons_self).no_percent, noPercent'⟩
            · rintro rfl
              obtain rfl : k = top := by simpa using highest
              exact here
          · obtain ⟨t', y', put, less⟩ := argLocalized_low light' separator
              (clear_of_no_percent noPercent) behind border.ne_percent here
            have front : '%' ∉ x ++ w := by simpa using ⟨noPercent, separator.no_percent⟩
            have ordinary (y : QString) : Divides numbers (c :: y) :=
              divides_of_ascii border.2.1 border.2.2.1 border.2.2.2
            obtain ⟨t'', y'', rest, less'⟩ := foldl_keeps (t := t') (y := y')
              (fun a mem => (light a (List.mem_cons_of_mem _ mem)).2) front ordinary
                border.ne_percent
            rw [List.append_assoc, List.append_assoc] at rest
            exact ⟨t'', y'', by rw [List.foldl_cons, put, rest], by omega⟩

end QString

end MediaUpdater
