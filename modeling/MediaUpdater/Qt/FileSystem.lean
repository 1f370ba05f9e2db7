import Mathlib
import MediaUpdater.Library.KeyFilter
import MediaUpdater.Qt.Path

/-!
# The file system and `QSettings`

`FileSystem` is what the process leaves on the disk: the ordinary files with
their bytes, the INI files of `QSettings` (a persistent key-value map stored in
its file), and the outcomes of the calls that are still to come.

Every call that can fail consumes one entry of its own stream of outcomes, so a
statement about an arbitrary `FileSystem` is a statement about every
success/failure outcome of the individual calls, and `Reliable` says that every
call succeeds.  Directories are implicit: a directory is there when a file below
it is, and none lies where a file is looked for, so `exists` is about files.
`mkpath`, whose result the program only logs, leaves nothing to record.
-/

namespace MediaUpdater

open Library

/-- The values the program stores through `QSettings`. -/
inductive QVariant where
  | bool (b : Bool)
  | int (n : ℤ)
  deriving DecidableEq, Repr

namespace QVariant

def toBool : QVariant → Bool
  | bool b => b
  | int n => n ≠ 0

def toInt : QVariant → ℤ
  | bool b => if b then 1 else 0
  | int n => n

end QVariant

/-- The contents of one INI file. -/
abbrev Settings := AList fun _ : QString => QVariant

/-- The outcomes of the calls to come, one stream for each kind of call.  A
`write` that fails after `k` bytes is `some k`; a `removeRecursively` succeeds or
fails for each file below the directory. -/
structure Outcomes where
  remove : Stream' Bool
  removeRecursively : Stream' (Path → Bool)
  openAppend : Stream' Bool
  write : Stream' (Option ℕ)
  openRead : Stream' Bool
  rename : Stream' Bool
  copy : Stream' Bool

/-- Every call succeeds. -/
def Outcomes.success : Outcomes where
  remove := .const true
  removeRecursively := .const fun _ => true
  openAppend := .const true
  write := .const none
  openRead := .const true
  rename := .const true
  copy := .const true

/-- The disk. -/
structure FileSystem where
  files : AList fun _ : Path => QByteArray
  settings : Path → Settings
  outcomes : Outcomes
  /-- `QString::toLower`, by which a listing is sorted. -/
  toLower : QString → QString

namespace FileSystem

/-- A disk without files, on which every call succeeds. -/
def blank : FileSystem where
  files := ∅
  settings _ := ∅
  outcomes := .success
  toLower := List.map Char.toLower

variable (fs : FileSystem) (p q dir : Path)

/-- Every file-system call from now on succeeds. -/
def Reliable : Prop := fs.outcomes = .success

/-- Every file that is there can be opened for reading from now on. -/
def Readable : Prop := fs.outcomes.openRead = .const true

/-- Every `QFile::copy` from now on succeeds. -/
def Copies : Prop := fs.outcomes.copy = .const true

/-- The bytes of an ordinary file. -/
def read : Option QByteArray := fs.files.lookup p

/-- `QFile::exists`, `QFileInfo::exists`: an ordinary file or an INI file that
has been written. -/
def fileExists : Bool := (fs.read p).isSome || !(fs.settings p).entries.isEmpty

/-- `QFileInfo::size`, which is 0 for a file that does not exist. -/
def size : ℕ := ((fs.read p).getD []).length

/-- The disk without the file at `p`. -/
def forget : FileSystem :=
  { fs with
    files := fs.files.erase p
    settings := Function.update fs.settings p ∅ }

/-- The disk with the bytes `bytes` at `p`. -/
def put (bytes : QByteArray) : FileSystem :=
  { fs with files := fs.files.insert p bytes }

/-- `QFile::remove`. -/
def remove : Bool × FileSystem :=
  let rest := { fs with outcomes := { fs.outcomes with remove := fs.outcomes.remove.tail } }
  if fs.fileExists p && fs.outcomes.remove.head then (true, rest.forget p) else (false, rest)

/-- `QDir::removeRecursively`. -/
def removeRecursively : FileSystem :=
  let gone := fun p => dir.isPrefixOf p && fs.outcomes.removeRecursively.head p
  { fs with
    files := filterKeys (fun p => !gone p) fs.files
    settings := fun p => if gone p then ∅ else fs.settings p
    outcomes := { fs.outcomes with
      removeRecursively := fs.outcomes.removeRecursively.tail } }

/-- `QFile::open(QFile::Append)`, which creates the file. -/
def openAppend : Bool × FileSystem :=
  let rest := { fs with outcomes := { fs.outcomes with openAppend := fs.outcomes.openAppend.tail } }
  if fs.outcomes.openAppend.head then (true, rest.put p ((fs.read p).getD [])) else (false, rest)

/-- `QFile::write` at the end of the open file. -/
def write (bytes : QByteArray) : FileSystem :=
  let rest := { fs with outcomes := { fs.outcomes with write := fs.outcomes.write.tail } }
  let written := match fs.outcomes.write.head with
    | none => bytes
    | some k => bytes.take k
  rest.put p ((fs.read p).getD [] ++ written)

/-- `QFile::open(QFile::ReadOnly)` followed by `readAll`. -/
def openRead : Option QByteArray × FileSystem :=
  let rest := { fs with outcomes := { fs.outcomes with openRead := fs.outcomes.openRead.tail } }
  if fs.outcomes.openRead.head then (fs.read p, rest) else (none, rest)

/-- `QFile::rename`, which does not overwrite. -/
def rename : Bool × FileSystem :=
  let rest := { fs with outcomes := { fs.outcomes with rename := fs.outcomes.rename.tail } }
  match fs.read p with
  | some bytes =>
      if !fs.fileExists q && fs.outcomes.rename.head then (true, (rest.forget p).put q bytes)
      else (false, rest)
  | none => (false, rest)

/-- `QFile::copy`, which does not overwrite. -/
def copy : Bool × FileSystem :=
  let rest := { fs with outcomes := { fs.outcomes with copy := fs.outcomes.copy.tail } }
  match fs.read p with
  | some bytes =>
      if !fs.fileExists q && fs.outcomes.copy.head then (true, rest.put q bytes)
      else (false, rest)
  | none => (false, rest)

/-- The code units of a text in UTF-16. -/
def utf16 (s : QString) : List ℕ :=
  s.flatMap fun c =>
    if c.toNat < 0x10000 then [c.toNat]
    else [0xD800 + (c.toNat - 0x10000) / 0x400, 0xDC00 + (c.toNat - 0x10000) % 0x400]

/-- `QString::operator<=`. -/
def nameOrder (a b : QString) : Prop := utf16 a ≤ utf16 b

instance : DecidableRel nameOrder := fun a b => inferInstanceAs (Decidable (utf16 a ≤ utf16 b))

/-- `QDir::Name | QDir::IgnoreCase`.  What this does not order comes as the disk has it, which is in
any order. -/
def listingOrder (a b : QString) : Prop := nameOrder (fs.toLower a) (fs.toLower b)

instance : DecidableRel fs.listingOrder := fun a b =>
  inferInstanceAs (Decidable (nameOrder (fs.toLower a) (fs.toLower b)))

/-- The name of `p` in the directory `dir`, when `p` is a visible file of it.  The
name of a file is plain. -/
def fileName? (dir p : Path) : Option QString :=
  match p.getLast? with
  | some name => if p.dropLast = dir ∧ Plain name ∧ Visible name then some name else none
  | none => none

/-- The visible subdirectory of `dir` that holds `p`. -/
def subdirectory? (dir p : Path) : Option QString :=
  match p[dir.length]? with
  | some name =>
      if dir <+: p ∧ dir.length + 2 ≤ p.length ∧ Plain name ∧ Visible name then some name
      else none
  | none => none

/-- `QDir::entryInfoList(QDir::Files)`. -/
def entryFiles : List QString :=
  ((fs.files.keys.filterMap (fileName? dir)).dedup).insertionSort fs.listingOrder

/-- `QDir::entryInfoList(QDir::NoDotAndDotDot | QDir::Dirs)`. -/
def entryDirs : List QString :=
  ((fs.files.keys.filterMap (subdirectory? dir)).dedup).insertionSort fs.listingOrder

/-! ### Reading after a change -/

variable {fs p q dir} {bytes : QByteArray}

@[simp] theorem read_put :
    (fs.put p bytes).read q = if q = p then some bytes else fs.read q := by
  by_cases same : q = p
  · subst same
    simp [read, put]
  · simp [read, put, same, AList.lookup_insert_ne same]

@[simp] theorem read_forget :
    (fs.forget p).read q = if q = p then none else fs.read q := by
  by_cases same : q = p
  · subst same
    simp [read, forget]
  · simp [read, forget, same, AList.lookup_erase_ne same]

@[simp] theorem settings_put : (fs.put p bytes).settings = fs.settings := rfl

@[simp] theorem outcomes_put : (fs.put p bytes).outcomes = fs.outcomes := rfl

@[simp] theorem outcomes_forget : (fs.forget p).outcomes = fs.outcomes := rfl

theorem settings_forget :
    (fs.forget p).settings q = if q = p then ∅ else fs.settings q := by
  simp [forget, Function.update_apply]

@[simp] theorem openAppend_fst : (fs.openAppend p).1 = fs.outcomes.openAppend.head := by
  unfold openAppend
  cases head : fs.outcomes.openAppend.head <;> simp

theorem fileExists_put :
    (fs.put p bytes).fileExists q = (decide (q = p) || fs.fileExists q) := by
  by_cases same : q = p <;> simp [fileExists, same]

@[simp] theorem fileExists_forget :
    (fs.forget p).fileExists q = (!decide (q = p) && fs.fileExists q) := by
  by_cases same : q = p <;> simp [fileExists, settings_forget, same]

theorem fileExists_of_read {content : QByteArray} (holds : fs.read p = some content) :
    fs.fileExists p = true := by
  simp [fileExists, holds]

theorem read_eq_none (absent : fs.fileExists p = false) : fs.read p = none := by
  simp only [fileExists, Bool.or_eq_false_iff] at absent
  simpa using absent.1

theorem settings_eq_empty (absent : fs.fileExists p = false) : fs.settings p = ∅ := by
  simp only [fileExists, Bool.or_eq_false_iff, Bool.not_eq_false',
    List.isEmpty_iff] at absent
  exact AList.ext absent.2

/-! ### Removals -/

@[simp] theorem outcomes_remove : (fs.remove p).2.outcomes.remove = fs.outcomes.remove.tail := by
  unfold remove
  simp only
  split <;> rfl

/-- What is there after one removal. -/
theorem fileExists_remove :
    (fs.remove p).2.fileExists q =
      (fs.fileExists q && !(decide (q = p) && fs.outcomes.remove.head)) := by
  unfold remove
  simp only
  split
  next removed =>
    rw [Bool.and_eq_true] at removed
    rw [fileExists_forget, removed.2, Bool.and_true, Bool.and_comm]
    rfl
  next failed =>
    show fs.fileExists q = _
    by_cases same : q = p
    · subst same
      cases there : fs.fileExists q <;> simp_all
    · simp [same]

/-- What can be read after one removal. -/
theorem read_remove_snd :
    (fs.remove p).2.read q = if q = p ∧
    fs.outcomes.remove.head = true then none else fs.read q := by
  unfold remove
  simp only
  split
  next removed =>
    rw [Bool.and_eq_true] at removed
    simp only [read_forget, removed.2, and_true]
    rfl
  next failed =>
    show fs.read q = _
    split
    next there =>
      obtain ⟨rfl, succeeds⟩ := there
      exact read_eq_none (by simpa [succeeds] using failed)
    next => rfl

/-! ### A disk whose calls succeed -/

theorem Readable.openRead_eq (readable : fs.Readable) : fs.openRead p = (fs.read p, fs) := by
  have next : ({ fs with
      outcomes := { fs.outcomes with openRead := fs.outcomes.openRead.tail } } : FileSystem) =
        fs := by
    obtain ⟨files, settings, outcomes, toLower⟩ := fs
    obtain ⟨remove, removeRecursively, openAppend, write, openRead, rename, copy⟩ := outcomes
    obtain rfl : openRead = .const true := readable
    rfl
  have succeeds : fs.outcomes.openRead.head = true := by
    rw [readable]
    rfl
  simp only [openRead, next, succeeds, if_true]

/-- What can be read is there. -/
theorem read_of_openRead {content : QByteArray} (opened : (fs.openRead p).1 = some content) :
    fs.read p = some content := by
  unfold openRead at opened
  split at opened
  · exact opened
  · cases opened

/-- The calls of the other kinds leave the outcomes of `QFile::copy` to come. -/
theorem outcomes_copy :
    (fs.remove p).2.outcomes.copy = fs.outcomes.copy ∧
      (fs.openRead p).2.outcomes.copy = fs.outcomes.copy ∧
      (fs.rename p q).2.outcomes.copy = fs.outcomes.copy := by
  refine ⟨?_, ?_, ?_⟩
  · unfold remove
    split <;> rfl
  · unfold openRead
    split <;> rfl
  · unfold rename
    split
    · split <;> rfl
    · rfl

namespace Copies

variable (copies : fs.Copies)

include copies

theorem remove : (fs.remove p).2.Copies := (outcomes_copy (q := p)).1.trans copies

theorem openRead : (fs.openRead p).2.Copies := (outcomes_copy (q := p)).2.1.trans copies

theorem copy : (fs.copy p q).2.Copies := by
  have next : fs.outcomes.copy.tail = .const true := by
    rw [copies]
    rfl
  unfold FileSystem.copy
  split
  · split
    · exact next
    · exact next
  · exact next

/-- A copy succeeds, or there is a file already; either way there is one. -/
theorem fileExists_copy {content : QByteArray} (source : fs.read p = some content) :
    (fs.copy p q).2.fileExists q = true := by
  have succeeds : fs.outcomes.copy.head = true := by
    rw [copies]
    rfl
  unfold FileSystem.copy
  simp only [source, succeeds, Bool.and_true]
  split
  · simp [fileExists_put]
  next there =>
    have kept : fs.fileExists q = true := by simpa using there
    exact kept

end Copies

namespace Reliable

variable (reliable : fs.Reliable)

include reliable

theorem remove_eq :
    fs.remove p = if fs.fileExists p then (true, fs.forget p) else (false, fs) := by
  have next : ({ fs with
      outcomes := { fs.outcomes with remove := fs.outcomes.remove.tail } } : FileSystem) = fs := by
    obtain ⟨files, settings, outcomes, toLower⟩ := fs
    cases reliable
    rfl
  have succeeds : fs.outcomes.remove.head = true := by
    rw [reliable]
    rfl
  simp only [remove, next, succeeds, Bool.and_true]

theorem openAppend_eq : fs.openAppend p = (true, fs.put p ((fs.read p).getD [])) := by
  obtain ⟨files, settings, outcomes, toLower⟩ := fs
  cases reliable
  rfl

theorem write_eq : fs.write p bytes = fs.put p ((fs.read p).getD [] ++ bytes) := by
  obtain ⟨files, settings, outcomes, toLower⟩ := fs
  cases reliable
  rfl

theorem readable : fs.Readable := by
  rw [Readable, reliable]
  rfl

theorem openRead_eq : fs.openRead p = (fs.read p, fs) := reliable.readable.openRead_eq

theorem rename_eq {content : QByteArray} (source : fs.read p = some content)
    (free : fs.fileExists q = false) :
    fs.rename p q = (true, (fs.forget p).put q content) := by
  obtain ⟨files, settings, outcomes, toLower⟩ := fs
  cases reliable
  simp only [rename, source, free]
  rfl

theorem copy_eq {content : QByteArray} (source : fs.read p = some content)
    (free : fs.fileExists q = false) :
    fs.copy p q = (true, fs.put q content) := by
  obtain ⟨files, settings, outcomes, toLower⟩ := fs
  cases reliable
  simp only [copy, source, free]
  rfl

theorem put : (fs.put p bytes).Reliable := reliable

theorem forget : (fs.forget p).Reliable := reliable

theorem remove : (fs.remove p).2.Reliable := by
  rw [reliable.remove_eq]
  split
  · exact reliable.forget
  · exact reliable

end Reliable

/-! ### Directory listings -/

theorem fileName?_eq_some {name : QString} :
    fileName? dir p = some name ↔ p = dir ++ [name] ∧ Plain name ∧ Visible name := by
  constructor
  · intro found
    cases last : p.getLast? with
    | none => simp [fileName?, last] at found
    | some n =>
        simp only [fileName?, last, Option.ite_none_right_eq_some, Option.some.injEq] at found
        obtain ⟨⟨rfl, shown⟩, rfl⟩ := found
        exact ⟨(List.dropLast_append_getLast? n last).symm, shown⟩
  · rintro ⟨rfl, shown⟩
    simp [fileName?, shown]

/-- A listing returns the visible files of the directory. -/
theorem mem_entryFiles {name : QString} :
    name ∈ fs.entryFiles dir ↔
      (Plain name ∧ Visible name) ∧ (fs.read (dir ++ [name])).isSome := by
  simp only [entryFiles, List.mem_insertionSort, List.mem_dedup, List.mem_filterMap,
    fileName?_eq_some, read, AList.lookup_isSome, AList.mem_keys]
  constructor
  · rintro ⟨_, held, rfl, shown⟩
    exact ⟨shown, held⟩
  · rintro ⟨shown, held⟩
    exact ⟨_, held, rfl, shown⟩

theorem entryFiles_nodup : (fs.entryFiles dir).Nodup :=
  (List.perm_insertionSort _ _).nodup_iff.mpr (List.nodup_dedup _)

theorem subdirectory?_eq_some {name : QString} :
    subdirectory? dir p = some name ↔
      (Plain name ∧ Visible name) ∧ ∃ rest, rest ≠ [] ∧ p = dir ++ name :: rest := by
  constructor
  · intro found
    cases at_ : p[dir.length]? with
    | none => simp [subdirectory?, at_] at found
    | some n =>
        simp only [subdirectory?, at_, Option.ite_none_right_eq_some, Option.some.injEq] at found
        obtain ⟨⟨⟨rest, rfl⟩, long, shown⟩, rfl⟩ := found
        cases rest with
        | nil =>
            rw [List.append_nil] at long
            omega
        | cons head tail =>
            simp only [List.getElem?_append_right (le_refl dir.length), Nat.sub_self,
              List.getElem?_cons_zero, Option.some.injEq] at at_
            subst at_
            refine ⟨shown, tail, ?_, rfl⟩
            rintro rfl
            simp at long
  · rintro ⟨shown, rest, nonempty, rfl⟩
    have long : 0 < rest.length := List.length_pos_iff.mpr nonempty
    simp [subdirectory?, shown]
    omega

/-- A listing returns the visible directories below which there is a file. -/
theorem mem_entryDirs {name : QString} :
    name ∈ fs.entryDirs dir ↔
      (Plain name ∧ Visible name) ∧
        ∃ rest, rest ≠ [] ∧ (fs.read (dir ++ name :: rest)).isSome := by
  simp only [entryDirs, List.mem_insertionSort, List.mem_dedup, List.mem_filterMap,
    subdirectory?_eq_some, read, AList.lookup_isSome, AList.mem_keys]
  constructor
  · rintro ⟨_, held, shown, rest, nonempty, rfl⟩
    exact ⟨shown, rest, nonempty, held⟩
  · rintro ⟨shown, rest, nonempty, held⟩
    exact ⟨_, held, shown, rest, nonempty, rfl⟩

theorem entryDirs_nodup : (fs.entryDirs dir).Nodup :=
  (List.perm_insertionSort _ _).nodup_iff.mpr (List.nodup_dedup _)

/-! ### `QSettings` -/

/-- `QSettings::value`, `none` where the caller's default applies. -/
def settingsValue (fs : FileSystem) (p : Path) (key : QString) : Option QVariant :=
  (fs.settings p).lookup key

/-- `QSettings::setValue`. -/
def setSettingsValue (fs : FileSystem) (p : Path) (key : QString) (value : QVariant) :
    FileSystem :=
  { fs with
    settings := Function.update fs.settings p ((fs.settings p).insert key value) }

/-- `QSettings::remove`, of a key that is no group of other keys: of a group Qt would
remove these too. -/
def removeSettings (fs : FileSystem) (p : Path) (key : QString) : FileSystem :=
  { fs with settings := Function.update fs.settings p ((fs.settings p).erase key) }

variable {key key' : QString} {value : QVariant}

@[simp] theorem read_setSettingsValue :
    (fs.setSettingsValue p key value).read q = fs.read q := rfl

@[simp] theorem read_removeSettings : (fs.removeSettings p key).read q = fs.read q := rfl

theorem settingsValue_setSettingsValue :
    (fs.setSettingsValue p key value).settingsValue q key' =
      if q = p ∧ key' = key then some value else fs.settingsValue q key' := by
  by_cases samePath : q = p
  · subst samePath
    by_cases sameKey : key' = key
    · subst sameKey
      simp [settingsValue, setSettingsValue]
    · simp [settingsValue, setSettingsValue, sameKey, AList.lookup_insert_ne sameKey]
  · simp [settingsValue, setSettingsValue, samePath]

theorem settingsValue_removeSettings :
    (fs.removeSettings p key).settingsValue q key' =
      if q = p ∧ key' = key then none else fs.settingsValue q key' := by
  by_cases samePath : q = p
  · subst samePath
    by_cases sameKey : key' = key
    · subst sameKey
      simp [settingsValue, removeSettings]
    · simp [settingsValue, removeSettings, sameKey, AList.lookup_erase_ne sameKey]
  · simp [settingsValue, removeSettings, samePath]

@[simp] theorem settingsValue_put :
    (fs.put p bytes).settingsValue q key = fs.settingsValue q key := rfl

theorem settingsValue_forget :
    (fs.forget p).settingsValue q key =
      if q = p then none else fs.settingsValue q key := by
  by_cases same : q = p <;> simp [settingsValue, settings_forget, same]

theorem fileExists_removeSettings (apart : q ≠ p) :
    (fs.removeSettings p key).fileExists q = fs.fileExists q := by
  simp [fileExists, removeSettings, Function.update_of_ne apart, read]

end FileSystem

end MediaUpdater
