import MediaUpdater.QFtp.Listing
import Mathlib.Data.Nat.Bitwise
import Mathlib.Tactic.FinCases

/-!
# The columns of a listing

`UnixLine` and `DosLine` are lines as servers write them: columns of any width with any
white space between them.

## Main results

* `UnixLine.parseDir_unix`, `DosLine.parseDir_dos` — `parseDir` reads such a line back
  column by column.
* `QFtpDTP.parseDir_isFile` — what is taken for a regular file, for all lines.
-/

namespace MediaUpdater

open Library

/-! ### White space and permissions -/

theorem trimmed_eq {lead tail s : QString} (leading : ∀ c ∈ lead, isSpace c = true)
    (trailing : ∀ c ∈ tail, isSpace c = true) (ne_nil : s ≠ [])
    (first : ∀ c ∈ s.head?, isSpace c = false) (last : ∀ c ∈ s.getLast?, isSpace c = false) :
    trimmed (lead ++ (s ++ tail)) = s := by
  have begins : (s ++ tail).dropWhile isSpace = s ++ tail := by
    obtain ⟨c, others, rfl⟩ := List.exists_cons_of_ne_nil ne_nil
    exact List.dropWhile_cons_of_neg (by simp [first c rfl])
  rw [trimmed, List.dropWhile_append_of_pos leading, begins, List.rdropWhile, List.reverse_append,
    List.dropWhile_append_of_pos (by simpa using trailing)]
  obtain ⟨c, others, reversed⟩ := List.exists_cons_of_ne_nil (List.reverse_ne_nil_iff.mpr ne_nil)
  have solid : isSpace c = false := by
    refine last c ?_
    rw [List.getLast?_eq_head?_reverse, reversed]
    rfl
  rw [reversed, List.dropWhile_cons_of_neg (by simp [solid]), ← reversed, List.reverse_reverse]

theorem testBit_flag (holds : Prop) [Decidable holds] (flag i : ℕ) :
    (if holds then 2 ^ flag else 0).testBit i = (decide holds && decide (flag = i)) := by
  by_cases h : holds <;> simp [h, Nat.testBit_two_pow]

/-- **The bits of the permissions** are those for which the line has a letter. -/
theorem testBit_unixPermissions {p : QString} (length : p.length = 9) (i : Fin 9) :
    (QFtpDTP.unixPermissions p).testBit (8 - i) = decide (p[i]? = (str "rwxrwxrwx")[i]?) := by
  have flags : QFtpDTP.permissionFlags = [('r', 2 ^ 8), ('w', 2 ^ 7), ('x', 2 ^ 6), ('r', 2 ^ 5),
    ('w', 2 ^ 4), ('x', 2 ^ 3), ('r', 2 ^ 2), ('w', 2 ^ 1), ('x', 2 ^ 0)] := rfl
  match p, length with
  | [a, b, c, d, e, f, g, h, j], _ =>
    simp only [QFtpDTP.unixPermissions, flags, List.zip_cons_cons, List.zip_nil_left,
      List.foldl_cons, List.foldl_nil, Nat.testBit_or, Nat.zero_testBit, testBit_flag]
    fin_cases i <;> simp [str]

theorem and_flag (n i : ℕ) : (n &&& 2 ^ i ≠ 0) ↔ n.testBit i = true := by
  rw [Nat.and_two_pow]
  cases n.testBit i <;> simp

/-! ### The format of Unix servers -/

theorem isSpace_of_isDigit {c : Char} (digit : c.isDigit = true) : isSpace c = false := by
  simp only [Char.isDigit, Bool.and_eq_true, decide_eq_true_eq, ge_iff_le,
    UInt32.le_iff_toNat_le] at digit
  have value : c.toNat = c.val.toNat := rfl
  have zero : '0'.val.toNat = 48 := rfl
  have nine : '9'.val.toNat = 57 := rfl
  have other : c ≠ ' ' := by
    rintro rfl
    exact absurd digit.1 (by decide)
  simp only [isSpace, Bool.or_eq_false_iff, Bool.and_eq_false_iff, decide_eq_false_iff_not]
  exact ⟨⟨⟨by omega, other⟩, by omega⟩, by omega⟩

/-- A column: text without white space. -/
structure Column where
  text : QString
  ne_nil : text ≠ []
  noSpace : ∀ c ∈ text, isSpace c = false

/-- The white space between two columns. -/
structure Gap where
  text : QString
  ne_nil : text ≠ []
  space : ∀ c ∈ text, isSpace c = true

/-- The last column: it may contain white space, but neither begins nor ends with it. -/
structure LastColumn where
  text : QString
  ne_nil : text ≠ []
  first : ∀ c ∈ text.head?, isSpace c = false
  last : ∀ c ∈ text.getLast?, isSpace c = false

/-- A gap of `n + 1` blanks. -/
def Gap.blanks (n : ℕ) : Gap where
  text := List.replicate (n + 1) ' '
  ne_nil := by simp
  space c mem := by
    obtain rfl := List.eq_of_mem_replicate mem
    rfl

/-- A column of digits. -/
def Column.ofNat (n : ℕ) : Column where
  text := Nat.toDigits 10 n
  ne_nil := Nat.toDigits_ne_nil
  noSpace _ mem := isSpace_of_isDigit (Nat.isDigit_of_mem_toDigits (by decide) (by decide) mem)

theorem toLongLong_ofNat (n : ℕ) :
    toLongLong (Column.ofNat n).text = if n < 2 ^ 63 then (n : ℤ) else 0 := by
  have digits : (Nat.toDigits 10 n).all Char.isDigit = true :=
    List.all_eq_true.mpr fun c mem => Nat.isDigit_of_mem_toDigits (by decide) (by decide) mem
  simp only [toLongLong, Column.ofNat, ne_eq, Nat.toDigits_ne_nil, not_false_eq_true, digits,
    Nat.ofDigitChars_ten_toDigits, true_and]

section Run

variable {β : Type} {k : Pattern.Continuation Char β} {r : β} {rest : QString} {least : ℕ}

theorem Gap.head (gap : Gap) : ∀ c ∈ (gap.text ++ rest).head?, notSpace c = false := by
  intro c mem
  rw [List.head?_append_of_ne_nil _ gap.ne_nil] at mem
  simp [notSpace, gap.space c (List.mem_of_mem_head? mem)]

theorem Column.head (column : Column) : ∀ c ∈ (column.text ++ rest).head?, isSpace c = false := by
  intro c mem
  rw [List.head?_append_of_ne_nil _ column.ne_nil] at mem
  exact column.noSpace c (List.mem_of_mem_head? mem)

/-- `\s+` takes a gap. -/
theorem Gap.run (gap : Gap) (next : ∀ c ∈ rest.head?, isSpace c = false)
    (accepts : k gap.text [] rest = some r) :
    (Pattern.many 1 isSpace).run (gap.text ++ rest) k = some r :=
  Pattern.run_many (List.length_pos_iff.mpr gap.ne_nil) gap.space next accepts

/-- `\S*` and `\S+` take a column. -/
theorem Column.run (column : Column) (few : least ≤ 1)
    (next : ∀ c ∈ rest.head?, notSpace c = false) (accepts : k column.text [] rest = some r) :
    (Pattern.many least notSpace).run (column.text ++ rest) k = some r :=
  Pattern.run_many (few.trans (List.length_pos_iff.mpr column.ne_nil))
    (fun c mem => by simp [notSpace, column.noSpace c mem]) next accepts

/-- `\d+` takes a number. -/
theorem Column.run_ofNat (n : ℕ) (next : ∀ c ∈ rest.head?, notSpace c = false)
    (accepts : k (Column.ofNat n).text [] rest = some r) :
    (Pattern.many 1 Char.isDigit).run ((Column.ofNat n).text ++ rest) k = some r := by
  refine Pattern.run_many (List.length_pos_iff.mpr (Column.ofNat n).ne_nil)
    (fun c mem => Nat.isDigit_of_mem_toDigits (by decide) (by decide) mem) (fun c mem => ?_) accepts
  by_contra digit
  rw [Bool.not_eq_false] at digit
  have space := next c mem
  simp [notSpace, isSpace_of_isDigit digit] at space

end Run

/-- A line of a Unix listing. -/
structure UnixLine where
  kind : Char
  kind_mem : kind = '-' ∨ kind = 'd' ∨ kind = 'l'
  permissions : QString
  permissions_length : permissions.length = 9
  permissions_mem : ∀ c ∈ permissions, isPermission c = true
  links : ℕ
  owner : Column
  group : Column
  size : ℕ
  month : Column
  day : Column
  time : Column
  name : LastColumn
  gap : Fin 8 → Gap

namespace UnixLine

variable (line : UnixLine)

def date : QString :=
  line.month.text ++ ((line.gap 5).text ++ (line.day.text ++ ((line.gap 6).text ++ line.time.text)))

def text : QString :=
  line.kind :: (line.permissions ++ ((line.gap 0).text ++ ((Column.ofNat line.links).text ++
    ((line.gap 1).text ++ (line.owner.text ++ ((line.gap 2).text ++ (line.group.text ++
      ((line.gap 3).text ++ ((Column.ofNat line.size).text ++ ((line.gap 4).text ++ (line.date ++
        ((line.gap 7).text ++ line.name.text))))))))))))

open QFtpDTP

/-- The pattern finds the columns. -/
theorem capturedTexts_eq : capturedTexts unixPattern false line.text =
    some [line.text, [line.kind], line.permissions, line.owner.text, line.group.text,
      (Column.ofNat line.size).text, line.date, line.name.text] := by
  have nameHead : ∀ c ∈ line.name.text.head?, isSpace c = false := line.name.first
  obtain ⟨first, others, name⟩ := List.exists_cons_of_ne_nil line.name.ne_nil
  have solid : notSpace first = true := by
    simp [notSpace, line.name.first first (by rw [name]; rfl)]
  simp only [capturedTexts, unixPattern, Pattern.inOrder, List.foldr_cons, List.foldr_nil,
    Pattern.run_seq, Pattern.run_group, text, date, List.append_assoc]
  rw [Pattern.run_one (by simpa [or_assoc] using line.kind_mem),
    Pattern.run_exactly line.permissions_length line.permissions_mem]
  refine (line.gap 0).run (Column.ofNat line.links).head ?_
  refine Column.run_ofNat line.links (line.gap 1).head ?_
  refine (line.gap 1).run line.owner.head ?_
  refine line.owner.run (Nat.zero_le _) (line.gap 2).head ?_
  refine (line.gap 2).run line.group.head ?_
  refine line.group.run (Nat.zero_le _) (line.gap 3).head ?_
  refine (line.gap 3).run (Column.ofNat line.size).head ?_
  refine Column.run_ofNat line.size (line.gap 4).head ?_
  refine (line.gap 4).run line.month.head ?_
  refine line.month.run le_rfl (line.gap 5).head ?_
  refine (line.gap 5).run line.day.head ?_
  refine line.day.run le_rfl (line.gap 6).head ?_
  refine (line.gap 6).run line.time.head ?_
  refine line.time.run le_rfl (line.gap 7).head ?_
  rw [Pattern.run_text_nil]
  refine (line.gap 7).run nameHead ?_
  rw [name, Pattern.run_one solid, ← List.append_nil others]
  refine Pattern.run_many (Nat.zero_le _) (fun _ _ => rfl) (by simp) ?_
  rw [Pattern.run_text_nil, Pattern.run_text_nil]
  simp

/-- What the line says. -/
def info (userName : QString) : QUrlInfoPrivate where
  name := if line.kind = 'l' then linkName line.name.text else line.name.text
  permissions := unixPermissions line.permissions
  owner := line.owner.text
  group := line.group.text
  size := if line.size < 2 ^ 63 then line.size else 0
  isDir := line.kind ≠ '-'
  isFile := line.kind = '-'
  isSymLink := line.kind = 'l'
  isReadable := line.permissions[6]? = some 'r' ∨
    line.permissions[0]? = some 'r' ∧ line.owner.text = userName
  isWritable := line.permissions[7]? = some 'w' ∨
    line.permissions[1]? = some 'w' ∧ line.owner.text = userName

theorem parseUnixDir_eq (userName : QString) :
    parseUnixDir [line.text, [line.kind], line.permissions, line.owner.text, line.group.text,
      (Column.ofNat line.size).text, line.date, line.name.text] userName {} =
        line.info userName := by
  have bit (i : Fin 9) : (unixPermissions line.permissions &&& 2 ^ (8 - (i : ℕ)) ≠ 0) ↔
      line.permissions[i]? = (str "rwxrwxrwx")[i]? := by
    rw [and_flag, testBit_unixPermissions line.permissions_length, decide_eq_true_eq]
  have readOther : (unixPermissions line.permissions &&& QUrlInfo.readOther ≠ 0) ↔
    line.permissions[6]? = some 'r' := bit 6
  have readOwner : (unixPermissions line.permissions &&& QUrlInfo.readOwner ≠ 0) ↔
    line.permissions[0]? = some 'r' := bit 0
  have writeOther : (unixPermissions line.permissions &&& QUrlInfo.writeOther ≠ 0) ↔
    line.permissions[7]? = some 'w' := bit 7
  have writeOwner : (unixPermissions line.permissions &&& QUrlInfo.writeOwner ≠ 0) ↔
    line.permissions[1]? = some 'w' := bit 1
  rcases line.kind_mem with kind | kind | kind <;>
    simp [parseUnixDir, info, kind, toLongLong_ofNat, readOther, readOwner, writeOther, writeOwner,
      Bool.decide_or, Bool.decide_and]

/-- **A line of a Unix server is read back**, with any white space around it. -/
theorem parseDir_unix {lead tail : QString} {buffer : QByteArray} (userName : QString)
    (leading : ∀ c ∈ lead, isSpace c = true) (trailing : ∀ c ∈ tail, isSpace c = true)
    (decoded : fromLatin1 buffer = lead ++ (line.text ++ tail)) :
    parseDir buffer userName = some (line.info userName) := by
  have filled : buffer ≠ [] := by
    rintro rfl
    simp [fromLatin1, text] at decoded
  have solid : isSpace line.kind = false := by
    rcases line.kind_mem with kind | kind | kind <;> simp [kind, isSpace]
  have last : ∀ c ∈ line.text.getLast?, isSpace c = false := by
    have ending : line.text.getLast? = line.name.text.getLast? := by
      simp only [text, ← List.cons_append, ← List.append_assoc]
      exact List.getLast?_append_of_ne_nil _ line.name.ne_nil
    rw [ending]
    exact line.name.last
  have trim : trimmed (fromLatin1 buffer) = line.text := by
    rw [decoded]
    exact trimmed_eq leading trailing (List.cons_ne_nil _ _)
      (by rintro c ⟨⟩; exact solid) last
  rw [parseDir, if_neg filled]
  simp only [trim, line.capturedTexts_eq, parseUnixDir_eq]

/-- The first line of the comment at `_q_parseUnixDir`. -/
def demo : UnixLine where
  kind := '-'
  kind_mem := .inl rfl
  permissions := str "rw-r--r--"
  permissions_length := rfl
  permissions_mem := by simp [str, isPermission]
  links := 1
  owner := ⟨str "ftp", by decide, by simp [str, isSpace]⟩
  group := ⟨str "ftp", by decide, by simp [str, isSpace]⟩
  size := 17358091
  month := ⟨str "Aug", by decide, by simp [str, isSpace]⟩
  day := .ofNat 10
  time := .ofNat 2004
  name := ⟨str "qt-x11-free-3.3.3.tar.gz", by decide, by simp [str, isSpace],
    by simp [str, isSpace]⟩
  gap i := .blanks ([3, 0, 5, 5, 0, 0, 1, 0].getD i 0)

theorem parseDir_unix_demo :
    parseDir (ascii
        "-rw-r--r--    1 ftp      ftp      17358091 Aug 10  2004 qt-x11-free-3.3.3.tar.gz\r\n") [] =
      some (demo.info []) ∧ (demo.info []).size = 17358091 ∧ (demo.info []).isFile = true := by
  have decoded : fromLatin1 (ascii
      "-rw-r--r--    1 ftp      ftp      17358091 Aug 10  2004 qt-x11-free-3.3.3.tar.gz\r\n") =
      [] ++ (demo.text ++ str "\r\n") := by decide
  exact ⟨demo.parseDir_unix [] (by simp) (by simp [str, isSpace]) decoded, by decide, by decide⟩

end UnixLine

/-! ### The format of DOS servers -/

/-- `n` digits. -/
structure Digits (n : ℕ) where
  text : QString
  length_eq : text.length = n
  digits : ∀ c ∈ text, c.isDigit = true

/-- A line of a DOS listing; `size` is `none` for a directory. -/
structure DosLine where
  month : Digits 2
  day : Digits 2
  year : Digits 2
  /-- The rest of a year of three or four digits. -/
  years : QString
  years_length : years.length ≤ 2
  years_digits : ∀ c ∈ years, c.isDigit = true
  hour : Digits 2
  minute : Digits 2
  meridiem : Char
  meridiem_mem : meridiem = 'A' ∨ meridiem = 'P'
  size : Option ℕ
  name : LastColumn
  gap : Fin 2 → Gap

namespace DosLine

variable (line : DosLine)

def time : QString :=
  line.month.text ++ (['-'] ++ (line.day.text ++ (['-'] ++ (line.year.text ++ (line.years ++
    ([' ', ' '] ++
    (line.hour.text ++ ([':'] ++ (line.minute.text ++ (line.meridiem :: ['M']))))))))))

def sizeText : QString := (line.size.map fun n => (Column.ofNat n).text).getD (str "<DIR>")

def text : QString :=
  line.time ++ ((line.gap 0).text ++ (line.sizeText ++ ((line.gap 1).text ++ line.name.text)))

open QFtpDTP

section Run

variable {β : Type} {k : Pattern.Continuation Char β} {r : β} {rest : QString}

/-- The two optional digits of the year take what there is. -/
theorem run_years {k : QString → List QString → Pattern.Continuation Char β} {years : QString}
    (few : years.length ≤ 2) (digits : ∀ c ∈ years, c.isDigit = true)
    (next : ∀ c ∈ rest.head?, c.isDigit = false)
    (accepts : k (years.take 1) [] (years.drop 1) [] rest = some r) :
    (Pattern.opt (.one Char.isDigit)).run (years ++ rest) (fun xs cs rest =>
      (Pattern.opt (.one Char.isDigit)).run rest fun ys ds rest => k xs cs ys ds rest) =
      some r := by
  have skip (k : Pattern.Continuation Char β) (accepts : k [] [] rest = some r) :
      (Pattern.opt (.one Char.isDigit)).run rest k = some r := by
    have none : (Pattern.one Char.isDigit).run rest k = none := by
      cases rest with
      | nil => rfl
      | cons c rest => simp [Pattern.run, next c rfl]
    rw [Pattern.opt, Pattern.run_right none, Pattern.run_text_nil, accepts]
  rcases years with _ | ⟨c, _ | ⟨d, _ | ⟨e, more⟩⟩⟩
  · exact skip _ (skip _ accepts)
  · refine Pattern.run_left ?_
    rw [List.singleton_append, Pattern.run_one (digits c (by simp))]
    exact skip _ accepts
  · refine Pattern.run_left ?_
    rw [List.cons_append, List.singleton_append, Pattern.run_one (digits c (by simp))]
    refine Pattern.run_left ?_
    rw [Pattern.run_one (digits d (by simp))]
    exact accepts
  · simp at few

/-- `\d\d` takes two digits. -/
theorem run_digits (two : Digits 2) :
    (Pattern.exactly (.one Char.isDigit) 2).run (two.text ++ rest) k = k two.text [] rest :=
  Pattern.run_exactly two.length_eq two.digits

/-- The third column is taken whole. -/
theorem run_sizeText (next : ∀ c ∈ rest.head?, notSpace c = false)
    (accepts : k line.sizeText [] rest = some r) :
    (Pattern.alt (.text (str "<DIR>")) (.many 1 Char.isDigit)).run (line.sizeText ++ rest) k =
      some r := by
  cases size : line.size with
  | none =>
      have dir : line.sizeText = str "<DIR>" := by rw [sizeText, size]; rfl
      rw [dir] at accepts ⊢
      refine Pattern.run_left ?_
      rw [Pattern.run_text]
      exact accepts
  | some n =>
      have fails : (Pattern.text (str "<DIR>")).run ((Column.ofNat n).text ++ rest) k = none := by
        obtain ⟨c, others, digits⟩ := List.exists_cons_of_ne_nil (Column.ofNat n).ne_nil
        have digit : c.isDigit = true :=
          Nat.isDigit_of_mem_toDigits (n := n) (by decide) (by decide)
            (digits ▸ List.mem_cons_self : c ∈ (Column.ofNat n).text)
        rw [Pattern.run, if_neg]
        rintro ⟨rest, same⟩
        rw [digits] at same
        obtain rfl : '<' = c := (List.cons.inj same).1
        exact absurd digit (by decide)
      have number : line.sizeText = (Column.ofNat n).text := by rw [sizeText, size]; rfl
      rw [number] at accepts ⊢
      rw [Pattern.run_right fails]
      exact Column.run_ofNat n next accepts

end Run

/-- The pattern finds the columns. -/
theorem capturedTexts_eq : capturedTexts dosPattern true line.text =
    some [line.text, line.time, line.sizeText, line.name.text] := by
  have nameHead : ∀ c ∈ line.name.text.head?, isSpace c = false := line.name.first
  have sizeHead (rest : QString) : ∀ c ∈ (line.sizeText ++ rest).head?, isSpace c = false := by
    rw [sizeText]
    cases line.size with
    | none => rintro c ⟨⟩; rfl
    | some n => exact (Column.ofNat n).head
  have blank (rest : QString) : ∀ c ∈ ([' ', ' '] ++ rest).head?, c.isDigit = false := by
    rintro c ⟨⟩
    rfl
  obtain ⟨first, others, name⟩ := List.exists_cons_of_ne_nil line.name.ne_nil
  have solid : notSpace first = true := by
    simp [notSpace, line.name.first first (by rw [name]; rfl)]
  simp only [capturedTexts, dosPattern, dosTime, Pattern.inOrder, List.foldr_cons, List.foldr_nil,
    Pattern.run_seq, Pattern.run_group, text, time, List.append_assoc]
  rw [run_digits, Pattern.run_text, run_digits, Pattern.run_text, run_digits]
  refine run_years line.years_length line.years_digits (blank _) ?_
  rw [Pattern.run_text, run_digits, Pattern.run_text, run_digits, List.cons_append,
    Pattern.run_one (by simpa using line.meridiem_mem), Pattern.run_text, Pattern.run_text_nil]
  refine (line.gap 0).run (sizeHead _) ?_
  refine line.run_sizeText (line.gap 1).head ?_
  refine (line.gap 1).run nameHead ?_
  rw [name, Pattern.run_one solid, ← List.append_nil others]
  refine Pattern.run_many (Nat.zero_le _) (fun _ _ => rfl) (by simp) ?_
  rw [Pattern.run_text_nil, Pattern.run_text_nil]
  have years (rest : QString) :
      line.years.take 1 ++ (line.years.tail ++ rest) = line.years ++ rest := by
    rw [← List.drop_one, ← List.append_assoc, List.take_append_drop]
  simp [years]

/-- What the line says. -/
def info : QUrlInfoPrivate where
  name := line.name.text
  permissions :=
    if extension line.name.text ∈ [str "exe", str "bat", str "com"] then 0o777 else 0o666
  size := (line.size.filter (· < 2 ^ 63)).getD 0
  isDir := line.size.isNone
  isFile := line.size.isSome
  isSymLink := str ".lnk" <:+ line.name.text.map Char.toLower
  isReadable := true
  isWritable := line.size.isSome

theorem parseDosDir_eq :
    parseDosDir [line.text, line.time, line.sizeText, line.name.text] {} = line.info := by
  have executable (ext : QString) : (ext = str "exe" ∨ ext = str "bat" ∨ ext = str "com") ↔
      ext ∈ [str "exe", str "bat", str "com"] := by simp
  cases size : line.size with
  | none =>
      have dir : line.sizeText = str "<DIR>" := by rw [sizeText, size]; rfl
      simp only [parseDosDir, info, size, dir, if_pos, executable]
      rfl
  | some n =>
      have number : line.sizeText = (Column.ofNat n).text := by rw [sizeText, size]; rfl
      have file : (Column.ofNat n).text ≠ str "<DIR>" := by
        intro same
        have digit : '<'.isDigit = true :=
          Nat.isDigit_of_mem_toDigits (n := n) (by decide) (by decide)
            (same ▸ List.mem_cons_self : '<' ∈ (Column.ofNat n).text)
        exact absurd digit (by decide)
      have value : toLongLong (Column.ofNat n).text = ((some n).filter (· < 2 ^ 63)).getD 0 := by
        rw [toLongLong_ofNat]
        simp only [Option.filter_some, decide_eq_true_eq]
        split <;> rfl
      simp only [parseDosDir, info, size, number, if_neg file, executable, value]
      rfl

/-- A DOS line does not begin like a Unix line. -/
theorem capturedTexts_unix : capturedTexts unixPattern false line.text = none := by
  obtain ⟨c, others, month⟩ : ∃ c others, line.month.text = c :: others :=
    List.exists_cons_of_length_pos (by simp [line.month.length_eq])
  have digit : c.isDigit = true := line.month.digits c (by simp [month])
  have other : c ≠ '-' ∧ c ≠ 'd' ∧ c ≠ 'l' := by
    refine ⟨?_, ?_, ?_⟩ <;> rintro rfl <;> exact absurd digit (by decide)
  simp [capturedTexts, unixPattern, Pattern.inOrder, Pattern.run_seq, text, time, month,
    Pattern.run, other]

/-- **A line of a DOS server is read back**, with any white space around it. -/
theorem parseDir_dos {lead tail : QString} {buffer : QByteArray} (userName : QString)
    (leading : ∀ c ∈ lead, isSpace c = true) (trailing : ∀ c ∈ tail, isSpace c = true)
    (decoded : fromLatin1 buffer = lead ++ (line.text ++ tail)) :
    parseDir buffer userName = some line.info := by
  obtain ⟨c, others, month⟩ : ∃ c others, line.month.text = c :: others :=
    List.exists_cons_of_length_pos (by simp [line.month.length_eq])
  have begins : ∃ rest, line.text = c :: rest := by
    rw [text, time, month]
    exact ⟨_, rfl⟩
  obtain ⟨rest, begins⟩ := begins
  have solid : isSpace c = false := isSpace_of_isDigit (line.month.digits c (by simp [month]))
  have filled : buffer ≠ [] := by
    rintro rfl
    simp [fromLatin1, begins] at decoded
  have last : ∀ c ∈ line.text.getLast?, isSpace c = false := by
    have ending : line.text.getLast? = line.name.text.getLast? := by
      simp only [text, ← List.append_assoc]
      exact List.getLast?_append_of_ne_nil _ line.name.ne_nil
    rw [ending]
    exact line.name.last
  have trim : trimmed (fromLatin1 buffer) = line.text := by
    rw [decoded]
    exact trimmed_eq leading trailing (by simp [begins])
      (by rw [begins]; rintro c ⟨⟩; exact solid) last
  rw [parseDir, if_neg filled]
  simp only [trim, line.capturedTexts_unix, line.capturedTexts_eq, Option.map_some, parseDosDir_eq]

/-- The second line of the comment at `_q_parseDosDir`. -/
def demo : DosLine where
  month := ⟨str "06", rfl, by simp [str]⟩
  day := ⟨str "05", rfl, by simp [str]⟩
  year := ⟨str "03", rfl, by simp [str]⟩
  years := []
  years_length := Nat.zero_le _
  years_digits := by simp
  hour := ⟨str "03", rfl, by simp [str]⟩
  minute := ⟨str "19", rfl, by simp [str]⟩
  meridiem := 'P'
  meridiem_mem := .inr rfl
  size := some 1973
  name := ⟨str "readme.txt", by decide, by simp [str, isSpace], by simp [str, isSpace]⟩
  gap i := .blanks ([16, 0].getD i 0)

theorem parseDir_dos_demo :
    parseDir (ascii "06-05-03  03:19PM                 1973 readme.txt\r\n") [] = some demo.info ∧
      demo.info.size = 1973 ∧ demo.info.isFile = true := by
  have decoded : fromLatin1 (ascii "06-05-03  03:19PM                 1973 readme.txt\r\n") =
      [] ++ (demo.text ++ str "\r\n") := by decide
  exact ⟨demo.parseDir_dos [] (by simp) (by simp [str, isSpace]) decoded, by decide, by decide⟩

end DosLine

/-! ### What is taken for a regular file -/

namespace QFtpDTP

open Library.Pattern

variable {s : QString} {tokens : List QString}

theorem capturedTexts_sound {pattern : Pattern Char} {atEnd : Bool}
    (captured : capturedTexts pattern atEnd s = some tokens) :
    ∃ xs captures rest, s = xs ++ rest ∧ Matches pattern xs captures ∧ tokens = xs :: captures := by
  obtain ⟨xs, captures, rest, split, matched, found⟩ := run_sound captured
  simp only [Option.ite_none_left_eq_some, Option.some.injEq] at found
  exact ⟨xs, captures, rest, split, matched, found.2.symm⟩

/-- The last column begins with a character that is not white space. -/
theorem head_of_matches {name : QString} {captures : List QString}
    (matched : Matches (.inOrder [.one notSpace, .many 0 fun _ => true]) name captures) :
    ∃ c, name.head? = some c ∧ isSpace c = false := by
  obtain ⟨_, _, first, rest, _, _, rfl, -⟩ := matches_seq.mp matched
  obtain ⟨⟨c, solid, rfl⟩, -⟩ := matches_one.mp first
  exact ⟨c, rfl, by simpa [notSpace] using solid⟩

/-- The columns of a Unix line. -/
theorem capturedTexts_unixPattern (captured : capturedTexts unixPattern false s = some tokens) :
    ∃ text kind permissions owner group size date name,
      tokens = [text, [kind], permissions, owner, group, size, date, name] ∧
      (s.head? = some kind ∧ (kind = '-' ∨ kind = 'd' ∨ kind = 'l')) ∧ size <:+: s ∧ name <:+: s ∧
      (size ≠ [] ∧ ∀ c ∈ size, c.isDigit = true) ∧ ∃ c, name.head? = some c ∧
      isSpace c = false := by
  obtain ⟨xs, captures, rest, rfl, matched, rfl⟩ := capturedTexts_sound captured
  have inside (c : QString) (mem : c ∈ captures) : c <:+: xs ++ rest :=
    (matched.captures_infix c mem).trans (List.prefix_append xs rest).isInfix
  have straight : unixPattern.Straight := by simp [unixPattern, inOrder, Straight, exactly]
  have captured := matched.captures straight
  simp only [unixPattern, inOrder, List.foldr_cons, List.foldr_nil, groups, exactly,
    List.nil_append, List.append_nil, List.singleton_append, List.forall₂_cons_left_iff,
    List.forall₂_nil_left_iff]
    at captured
  obtain ⟨_, _, ⟨_, first⟩, ⟨permissions, _, -, ⟨owner, _, -, ⟨group, _, -, ⟨size, _, ⟨_, digits⟩,
    ⟨date, _, -, ⟨name, _, ⟨_, begins⟩, rfl, rfl⟩, rfl⟩, rfl⟩, rfl⟩, rfl⟩, rfl⟩, rfl⟩ := captured
  obtain ⟨⟨kind, dash, rfl⟩, -⟩ := matches_one.mp first
  obtain ⟨⟨enough, digits⟩, -⟩ := matches_many.mp digits
  refine ⟨xs, kind, permissions, owner, group, size, date, name, rfl,
    ⟨?_, by simpa [or_assoc] using dash⟩, inside size (by simp), inside name (by simp),
    ⟨List.length_pos_iff.mp enough, digits⟩, head_of_matches begins⟩
  obtain ⟨_, _, column, _, _, -, rfl, same⟩ := matches_seq.mp matched
  obtain ⟨_, single, rfl⟩ := matches_group.mp column
  obtain ⟨⟨c, -, rfl⟩, -⟩ := matches_one.mp single
  simpa using (List.cons.inj same).1.symm

/-- The columns of a DOS line. -/
theorem capturedTexts_dosPattern (captured : capturedTexts dosPattern true s = some tokens) :
    ∃ text time size name, tokens = [text, time, size, name] ∧ size <:+: s ∧ name <:+: s ∧
      (size = str "<DIR>" ∨ size ≠ [] ∧ ∀ c ∈ size, c.isDigit = true) ∧
      ∃ c, name.head? = some c ∧ isSpace c = false := by
  obtain ⟨xs, captures, rest, rfl, matched, rfl⟩ := capturedTexts_sound captured
  have inside (c : QString) (mem : c ∈ captures) : c <:+: xs ++ rest :=
    (matched.captures_infix c mem).trans (List.prefix_append xs rest).isInfix
  have straight : dosPattern.Straight := by
    simp [dosPattern, dosTime, inOrder, Straight, exactly, opt, groups]
  have captured := matched.captures straight
  simp only [dosPattern, dosTime, inOrder, List.foldr_cons, List.foldr_nil, groups, exactly, opt,
    List.nil_append, List.append_nil, List.singleton_append, List.forall₂_cons_left_iff,
    List.forall₂_nil_left_iff] at captured
  obtain ⟨time, _, -, ⟨size, _, ⟨_, third⟩, ⟨name, _, ⟨_, begins⟩, rfl, rfl⟩, rfl⟩, rfl⟩ := captured
  refine ⟨xs, time, size, name, rfl, inside size (by simp), inside name (by simp), ?_,
    head_of_matches begins⟩
  rcases matches_alt.mp third with dir | digits
  · exact .inl (matches_text.mp dir).1
  · obtain ⟨⟨enough, digits⟩, -⟩ := matches_many.mp digits
    exact .inr ⟨List.length_pos_iff.mp enough, digits⟩

theorem toLongLong_bounds (s : QString) : 0 ≤ toLongLong s ∧ toLongLong s < 2 ^ 63 := by
  unfold toLongLong
  split
  next fits => exact ⟨Int.natCast_nonneg _, by exact_mod_cast fits.2.2⟩
  · decide

/-- **What is taken for a regular file**, whatever the server sends: the name and a column
of digits stand in the line, and the size is what the digits say or 0 if that does not fit.
A line of a Unix server begins with a dash. -/
theorem parseDir_isFile {buffer : QByteArray} {userName : QString} {info : QUrlInfoPrivate}
    (parsed : parseDir buffer userName = some info) (file : info.isFile = true) :
    ∃ size, (size <:+: trimmed (fromLatin1 buffer) ∧ size ≠ [] ∧ ∀ c ∈ size, c.isDigit = true) ∧
      info.size = toLongLong size ∧ (0 ≤ info.size ∧ info.size < 2 ^ 63) ∧
      info.name <:+: trimmed (fromLatin1 buffer) ∧
      (∃ c, info.name.head? = some c ∧ isSpace c = false) ∧
      ((capturedTexts unixPattern false (trimmed (fromLatin1 buffer))).isSome →
        (trimmed (fromLatin1 buffer)).head? = some '-') := by
  unfold parseDir at parsed
  split at parsed
  · cases parsed
  simp only at parsed
  split at parsed
  next tokens captured =>
    obtain rfl := Option.some.inj parsed
    obtain ⟨text, kind, permissions, owner, group, size, date, name, rfl, ⟨begins, kinds⟩, sizeIn,
      nameIn, digits, solid⟩ := capturedTexts_unixPattern captured
    obtain rfl : kind = '-' := by
      rcases kinds with rfl | rfl | rfl
      · rfl
      · cases file
      · cases file
    exact ⟨size, ⟨sizeIn, digits⟩, rfl, toLongLong_bounds size, nameIn, solid, fun _ => begins⟩
  next =>
    obtain ⟨tokens, captured, rfl⟩ := Option.map_eq_some_iff.mp parsed
    obtain ⟨text, time, size, name, rfl, sizeIn, nameIn, third, solid⟩ :=
      capturedTexts_dosPattern captured
    rcases third with rfl | digits
    · cases file
    · have number : size ≠ str "<DIR>" := by
        rintro rfl
        exact absurd (digits.2 '<' (by decide)) (by decide)
      simp only [parseDosDir, if_neg number]
      exact ⟨size, ⟨sizeIn, digits⟩, rfl, toLongLong_bounds size, nameIn, solid, by simp [*]⟩

/-- A line without a group: the size is still found, and the line begins with a dash. -/
theorem parseDir_isFile_demo : ∃ info,
    parseDir (ascii "-rw-r--r-- 1  ftp  120 Aug 10 2004 a.mp3\r\n") [] = some info ∧
      (0 ≤ info.size ∧ info.size < 2 ^ 63) ∧ ∃ c, info.name.head? = some c ∧ isSpace c = false := by
  obtain ⟨info, parsed, file⟩ : ∃ info,
      parseDir (ascii "-rw-r--r-- 1  ftp  120 Aug 10 2004 a.mp3\r\n") [] = some info ∧
        info.isFile = true := ⟨_, rfl, rfl⟩
  obtain ⟨-, -, -, bounds, -, solid, -⟩ := parseDir_isFile parsed file
  exact ⟨info, parsed, bounds, solid⟩

end QFtpDTP

end MediaUpdater
