import MediaUpdater.Library.Text

/-!
# JSON texts

The grammar of JSON as a relation between texts and values.  In a string a character
stands for itself unless it is a quotation mark, a backslash or a control character; these
have to be escaped, and an escape is longer than the character it stands for.

## Main results

* `weight_object` — a text that spells an object weighs at least as much as the strings in it.
* `isText_objectText`, `eq_objectText_of_weight_le` — literal strings are spelled by themselves,
  and a text that weighs no more than two strings need is put together from them.
-/

namespace Library

namespace Json

/-- JSON values; a number is kept as it is written. -/
inductive Value where
  | null
  | bool (b : Bool)
  | number (text : List Char)
  | string (s : List Char)
  | array (values : List Value)
  | object (members : List (List Char × Value))

/-! ### Strings -/

/-- The character stands for itself in a string. -/
def unescaped (c : Char) : Bool := c ≠ '"' && c ≠ '\\' && 32 ≤ c.toNat

/-- The escapes of one letter, with the characters they stand for. -/
def shortEscapes : List (Char × Char) :=
  [('"', '"'), ('\\', '\\'), ('/', '/'), ('b', '\x08'), ('f', '\x0c'), ('n', '\n'), ('r', '\r'),
    ('t', '\t')]

/-- The value of four hexadecimal digits. -/
def IsHex (digits : List Char) (n : ℕ) : Prop :=
  digits.length = 4 ∧
    digits.foldlM (fun value c => (hexDigit? c).map (16 * value + ·)) 0 = some n

/-- The inside of a string, and what it spells. -/
inductive Chars : List Char → List Char → Prop
  | nil : Chars [] []
  | plain {c : Char} {t s : List Char} (stands : unescaped c = true) (rest : Chars t s) :
      Chars (c :: t) (c :: s)
  | short {letter c : Char} {t s : List Char} (escape : (letter, c) ∈ shortEscapes)
      (rest : Chars t s) : Chars ('\\' :: letter :: t) (c :: s)
  | unicode {digits t s : List Char} {c : Char} (hex : IsHex digits c.toNat) (rest : Chars t s) :
      Chars ('\\' :: 'u' :: (digits ++ t)) (c :: s)
  | surrogates {digits digits' t s : List Char} {c : Char} {high low : ℕ} (hex : IsHex digits high)
      (hex' : IsHex digits' low) (first : 0xd800 ≤ high ∧ high < 0xdc00)
      (second : 0xdc00 ≤ low ∧ low < 0xe000)
      (code : c.toNat = 0x10000 + (high - 0xd800) * 0x400 + (low - 0xdc00)) (rest : Chars t s) :
      Chars ('\\' :: 'u' :: (digits ++ '\\' :: 'u' :: (digits' ++ t))) (c :: s)

/-! ### The grammar -/

/-- Insignificant white space. -/
def Blank (w : List Char) : Prop := ∀ c ∈ w, c = ' ' ∨ c = '\t' ∨ c = '\n' ∨ c = '\r'

/-- A text of digits. -/
def Digits (t : List Char) : Prop := t ≠ [] ∧ ∀ c ∈ t, c.isDigit = true

/-- The grammar of numbers. -/
inductive IsNumber : List Char → Prop
  | mk {sign int frac exp : List Char} (signed : sign = [] ∨ sign = ['-'])
      (digits : Digits int) (noZero : int = ['0'] ∨ int.head? ≠ some '0')
      (fraction : frac = [] ∨ ∃ t, Digits t ∧ frac = '.' :: t)
      (exponent : exp = [] ∨ ∃ e s t, (e = 'e' ∨ e = 'E') ∧ (s = [] ∨ s = ['+'] ∨ s = ['-']) ∧
        Digits t ∧ exp = e :: (s ++ t)) :
      IsNumber (sign ++ int ++ frac ++ exp)

/-- The values of an array, divided by commas; `Spells` is the grammar of one value. -/
inductive Elements (Spells : List Char → Value → Prop) : List Char → List Value → Prop
  | one {a t b : List Char} {v : Value} (before : Blank a) (value : Spells t v) (after : Blank b) :
      Elements Spells (a ++ t ++ b) [v]
  | cons {a t b ts : List Char} {v : Value} {vs : List Value} (before : Blank a)
      (value : Spells t v) (after : Blank b) (rest : Elements Spells ts vs) :
      Elements Spells (a ++ t ++ b ++ ',' :: ts) (v :: vs)

/-- One member of an object. -/
inductive Member (Spells : List Char → Value → Prop) : List Char → List Char × Value → Prop
  | mk {a k b c t d key : List Char} {v : Value} (before : Blank a) (name : Chars k key)
      (between : Blank b) (behind : Blank c) (value : Spells t v) (after : Blank d) :
      Member Spells (a ++ '"' :: (k ++ '"' :: (b ++ ':' :: (c ++ t ++ d)))) (key, v)

/-- The members of an object, divided by commas. -/
inductive Members (Spells : List Char → Value → Prop) :
    List Char → List (List Char × Value) → Prop
  | one {t : List Char} {m : List Char × Value} (member : Member Spells t m) :
      Members Spells t [m]
  | cons {t ts : List Char} {m : List Char × Value} {ms : List (List Char × Value)}
      (member : Member Spells t m) (rest : Members Spells ts ms) :
      Members Spells (t ++ ',' :: ts) (m :: ms)

/-- The text spells the value. -/
inductive Spells : List Char → Value → Prop
  | null : Spells "null".toList .null
  | true : Spells "true".toList (.bool .true)
  | false : Spells "false".toList (.bool .false)
  | number {t : List Char} (number : IsNumber t) : Spells t (.number t)
  | string {t s : List Char} (chars : Chars t s) : Spells ('"' :: (t ++ ['"'])) (.string s)
  | emptyArray {w : List Char} (blank : Blank w) : Spells ('[' :: (w ++ [']'])) (.array [])
  | array {t : List Char} {vs : List Value} (elements : Elements Spells t vs) :
      Spells ('[' :: (t ++ [']'])) (.array vs)
  | emptyObject {w : List Char} (blank : Blank w) : Spells ('{' :: (w ++ ['}'])) (.object [])
  | object {t : List Char} {ms : List (List Char × Value)} (members : Members Spells t ms) :
      Spells ('{' :: (t ++ ['}'])) (.object ms)

/-- A JSON text of a value. -/
def IsText (text : List Char) (value : Value) : Prop :=
  ∃ a t b, Blank a ∧ Blank b ∧ Spells t value ∧ text = a ++ t ++ b

/-- Every member of the object with this name has this value, and there is one. -/
def HasField (members : List (List Char × Value)) (key : List Char) (value : Value) : Prop :=
  (key, value) ∈ members ∧ ∀ other, (key, other) ∈ members → other = value

/-! ### Literal strings -/

/-- The text can be written into a string as it is. -/
def Literal (s : List Char) : Prop := ∀ c ∈ s, unescaped c = true

instance (s : List Char) : Decidable (Literal s) :=
  decidable_of_iff (s.all unescaped = true) List.all_eq_true

variable {a t text k s k' s' : List Char} {v : Value} {m m' : List Char × Value}
variable {ms : List (List Char × Value)} {c : Char} {weight : Char → ℕ}

/-! ### Weights -/

/-- Every character weighs something, and an escape weighs more than what it stands for. -/
structure Weighs (weight : Char → ℕ) : Prop where
  positive : ∀ c, 0 < weight c
  short : ∀ e ∈ shortEscapes, weight e.2 < weight '\\' + weight e.1
  unicode : ∀ c digits, digits.length = 4 →
    weight c < weight '\\' + weight 'u' + weigh weight digits

/-- **No string weighs more than its text**, and only one without escapes weighs as much. -/
theorem Chars.weigh_le (weighs : Weighs weight) (chars : Chars t s) :
    weigh weight s ≤ weigh weight t ∧
      (weigh weight t ≤ weigh weight s → t = s ∧ Literal s) := by
  induction chars with
  | nil => exact ⟨le_refl _, fun _ => ⟨rfl, fun c mem => absurd mem (by simp)⟩⟩
  | @plain c t s stands _ ih =>
      simp only [weigh_cons]
      refine ⟨by omega, fun whole => ?_⟩
      obtain ⟨rfl, literal⟩ := ih.2 (by omega)
      exact ⟨rfl, List.forall_mem_cons.mpr ⟨stands, literal⟩⟩
  | @short letter c t s escape _ ih =>
      have heavier : weight c < weight '\\' + weight letter := weighs.short _ escape
      simp only [weigh_cons]
      exact ⟨by omega, fun whole => by omega⟩
  | @unicode digits t s c hex _ ih =>
      have heavier := weighs.unicode c digits hex.1
      simp only [weigh_cons, weigh_append]
      exact ⟨by omega, fun whole => by omega⟩
  | @surrogates digits digits' t s c high low hex hex' _ _ _ _ ih =>
      have heavier := weighs.unicode c digits hex.1
      simp only [weigh_cons, weigh_append]
      exact ⟨by omega, fun whole => by omega⟩

/-- The weight of a string with its quotation marks. -/
def stringWeight (weight : Char → ℕ) (s : List Char) : ℕ := weigh weight s + 2 * weight '"'

/-- The least weight of a value, as far as strings determine it. -/
def valueWeight (weight : Char → ℕ) : Value → ℕ
  | .string s => stringWeight weight s
  | _ => 0

/-- The least weight of a member. -/
def memberWeight (weight : Char → ℕ) (m : List Char × Value) : ℕ :=
  stringWeight weight m.1 + weight ':' + valueWeight weight m.2

theorem Spells.valueWeight_le (weighs : Weighs weight) (spells : Spells t v) :
    valueWeight weight v ≤ weigh weight t := by
  cases spells with
  | string chars =>
      have inside := (chars.weigh_le weighs).1
      simp only [valueWeight, stringWeight, weigh_cons, weigh_append, weigh_nil]
      omega
  | null | true | false | number | emptyArray | array | emptyObject | object => exact Nat.zero_le _

theorem Member.weight_le (weighs : Weighs weight) (member : Member Spells t m) :
    memberWeight weight m ≤ weigh weight t := by
  obtain ⟨before, name, between, behind, value, after⟩ := member
  have first := (name.weigh_le weighs).1
  have second := value.valueWeight_le weighs
  simp only [memberWeight, stringWeight, weigh_append, weigh_cons]
  omega

/-- **The members have their weights**, and a comma between two of them. -/
theorem Members.weight_le (weighs : Weighs weight) (members : Members Spells t ms) :
    weigh (fun m => memberWeight weight m + weight ',') ms ≤ weigh weight t + weight ',' := by
  induction members with
  | one member =>
      have heavy := member.weight_le weighs
      simpa using heavy
  | cons member _ ih =>
      have heavy := member.weight_le weighs
      simp only [weigh_cons, weigh_append]
      omega

/-- **The weight of an object** with two different members. -/
theorem weight_object (weighs : Weighs weight) (isText : IsText text (.object ms)) (mem : m ∈ ms)
    (mem' : m' ∈ ms) (apart : m ≠ m') :
    memberWeight weight m + memberWeight weight m' + weight ',' + weight '\x7b' + weight '\x7d' ≤
      weigh weight text := by
  obtain ⟨a, t, b, -, -, spells, rfl⟩ := isText
  have inner : memberWeight weight m + memberWeight weight m' + weight ',' + weight '\x7b' +
      weight '\x7d' ≤ weigh weight t := by
    cases spells with
    | emptyObject => cases mem
    | object members =>
        have whole := members.weight_le weighs
        have heavy := add_le_weigh (fun m => memberWeight weight m + weight ',') mem mem' apart
        simp only [weigh_append, weigh_cons, weigh_nil] at heavy ⊢
        omega
  rw [weigh_append, weigh_append]
  omega

/-! ### An object with two strings -/

theorem chars_of_literal (literal : Literal s) : Chars s s := by
  induction s with
  | nil => exact .nil
  | cons c rest ih =>
      exact .plain (literal c List.mem_cons_self)
        (ih fun d mem => literal d (List.mem_cons_of_mem c mem))

/-- The text between quotation marks. -/
def quoted (s : List Char) : List Char := '"' :: (s ++ ['"'])

/-- An object with two strings, written without white space and without escapes. -/
def objectText (k s k' s' : List Char) : List Char :=
  '\x7b' :: (quoted k ++ ':' :: quoted s ++ ',' :: (quoted k' ++ ':' :: quoted s') ++ ['\x7d'])

theorem member_of_literal (key : Literal k) (value : Literal s) :
    Member Spells (quoted k ++ ':' :: quoted s) (k, .string s) := by
  have blank : Blank [] := fun c mem => absurd mem (by simp)
  have member := Member.mk blank (chars_of_literal key) blank blank
    (Spells.string (chars_of_literal value)) blank
  simpa [quoted] using member

/-- **Literal strings are spelled by themselves.** -/
theorem isText_objectText (key : Literal k) (value : Literal s) (key' : Literal k')
    (value' : Literal s') :
    IsText (objectText k s k' s') (.object [(k, .string s), (k', .string s')]) := by
  have blank : Blank [] := fun c mem => absurd mem (by simp)
  refine ⟨[], objectText k s k' s', [], blank, blank, ?_, by simp⟩
  exact .object (.cons (member_of_literal key value) (.one (member_of_literal key' value')))

/-! ### The lightest texts -/

theorem weigh_objectText : weigh weight (objectText k s k' s') =
    memberWeight weight (k, .string s) + memberWeight weight (k', .string s') + weight ',' +
      weight '\x7b' + weight '\x7d' := by
  simp only [objectText, quoted, memberWeight, stringWeight, valueWeight, weigh_cons, weigh_append,
    weigh_nil]
  omega

/-- A member with nothing but what it needs. -/
theorem Member.eq_of_weight_le (weighs : Weighs weight) (member : Member Spells t (k, .string s))
    (whole : weigh weight t ≤ memberWeight weight (k, .string s)) :
    t = quoted k ++ ':' :: quoted s ∧ Literal s := by
  cases member with
  | @mk a name b c t d key v before chars between behind value after =>
      cases value with
      | @string inside _ chars' =>
          have first := chars.weigh_le weighs
          have second := chars'.weigh_le weighs
          simp only [memberWeight, stringWeight, valueWeight, weigh_append, weigh_cons,
            weigh_nil] at whole
          obtain ⟨rfl, -⟩ := first.2 (by omega)
          obtain ⟨rfl, literal⟩ := second.2 (by omega)
          obtain rfl : a = [] := eq_nil_of_weigh weighs.positive (by omega)
          obtain rfl : b = [] := eq_nil_of_weigh weighs.positive (by omega)
          obtain rfl : c = [] := eq_nil_of_weigh weighs.positive (by omega)
          obtain rfl : d = [] := eq_nil_of_weigh weighs.positive (by omega)
          exact ⟨by simp [quoted], literal⟩

/-- Members with only the weight of one of them. -/
theorem Members.member_of_weight_le (weighs : Weighs weight) (members : Members Spells t ms)
    (mem : m ∈ ms) (whole : weigh weight t ≤ memberWeight weight m) : Member Spells t m := by
  have comma := weighs.positive ','
  cases members with
  | one member =>
      obtain rfl := List.mem_singleton.mp mem
      exact member
  | cons member rest =>
      have first := member.weight_le weighs
      simp only [weigh_append, weigh_cons] at whole
      rcases List.mem_cons.mp mem with rfl | inRest
      · omega
      · have others := rest.weight_le weighs
        have heavy := le_weigh (fun m => memberWeight weight m + weight ',') inRest
        omega

/-- Members with only the weight of two of them. -/
theorem Members.pair_of_weight_le (weighs : Weighs weight) (members : Members Spells t ms)
    (mem : m ∈ ms) (mem' : m' ∈ ms) (apart : m ≠ m')
    (whole : weigh weight t ≤ memberWeight weight m + memberWeight weight m' + weight ',') :
    ∃ u u', (t = u ++ ',' :: u' ∨ t = u' ++ ',' :: u) ∧ Member Spells u m ∧ Member Spells u' m' ∧
      weigh weight u ≤ memberWeight weight m ∧ weigh weight u' ≤ memberWeight weight m' := by
  have comma := weighs.positive ','
  cases members with
  | one member =>
      rw [List.mem_singleton] at mem mem'
      exact absurd (mem.trans mem'.symm) apart
  | cons member rest =>
      have first := member.weight_le weighs
      have others := rest.weight_le weighs
      simp only [weigh_append, weigh_cons] at whole others
      rcases List.mem_cons.mp mem with rfl | inRest
      · have inRest' := (List.mem_cons.mp mem').resolve_left fun same => apart same.symm
        have heavy := le_weigh (fun m => memberWeight weight m + weight ',') inRest'
        exact ⟨_, _, .inl rfl, member, rest.member_of_weight_le weighs inRest' (by omega), by omega,
          by omega⟩
      · rcases List.mem_cons.mp mem' with rfl | inRest'
        · have heavy := le_weigh (fun m => memberWeight weight m + weight ',') inRest
          exact ⟨_, _, .inr rfl, rest.member_of_weight_le weighs inRest (by omega),
            member, by omega, by omega⟩
        · have heavy :=
            add_le_weigh (fun m => memberWeight weight m + weight ',') inRest inRest' apart
          omega

/-- **The lightest texts of an object with two strings** have nothing else in them. -/
theorem eq_objectText_of_weight_le (weighs : Weighs weight) (isText : IsText text (.object ms))
    (mem : (k, .string s) ∈ ms) (mem' : (k', .string s') ∈ ms) (apart : k ≠ k')
    (whole : weigh weight text ≤ weigh weight (objectText k s k' s')) :
    (text = objectText k s k' s' ∨ text = objectText k' s' k s) ∧ Literal s ∧ Literal s' := by
  have different : (k, Value.string s) ≠ (k', .string s') := fun same =>
    apart (congrArg Prod.fst same)
  have blank : Blank [] := fun c mem => absurd mem (by simp)
  obtain ⟨a, t, b, -, -, spells, rfl⟩ := isText
  have inner : IsText t (.object ms) := ⟨[], t, [], blank, blank, spells, by simp⟩
  have needs := weight_object weighs inner mem mem' different
  rw [weigh_append, weigh_append, weigh_objectText] at whole
  obtain rfl : a = [] := eq_nil_of_weigh weighs.positive (by omega)
  obtain rfl : b = [] := eq_nil_of_weigh weighs.positive (by omega)
  rw [List.nil_append, List.append_nil]
  cases spells with
  | emptyObject => cases mem
  | object members =>
      simp only [weigh_cons, weigh_append, weigh_nil] at whole
      obtain ⟨u, u', order, member, member', weight, weight'⟩ :=
        members.pair_of_weight_le weighs mem
        mem' different (by omega)
      obtain ⟨rfl, literal⟩ := member.eq_of_weight_le weighs weight
      obtain ⟨rfl, literal'⟩ := member'.eq_of_weight_le weighs weight'
      refine ⟨?_, literal, literal'⟩
      rcases order with rfl | rfl
      · exact .inl (by simp [objectText])
      · exact .inr (by simp [objectText])

end Json

end Library
