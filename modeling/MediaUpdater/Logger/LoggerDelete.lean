import MediaUpdater.Library.Newest
import MediaUpdater.Station

/-!
# `LoggerDelete`

The daily deletion of old logs.  The ten newest files of the log directory stay; of
the others those go that are older than the configured number of days.  The code
computes the day before which a file is old by adding the number of days to the
current time, where it had to subtract it: that day lies in the future, every file
is older, and all but the ten newest go.

## Main results

* `loggerDeleteDays_setLogDeleteDays` — the number of days is at least one.
* `deleteLogs_spec` — what the deletion leaves.
* `deleteLogs_retains_iff` — it keeps the rule exactly when nothing but the ten newest
  is young.
-/

namespace MediaUpdater

open FileSystem Library

universe u

variable {T : Type u}

/-- `QDateTime::addDays`: the time so many days later, or earlier. -/
structure Calendar (T : Type u) [LinearOrder T] where
  addDays : T → ℤ → T
  lt_addDays : ∀ time {days}, 0 < days → time < addDays time days

/-- What the program reads of a `QFileInfo`. -/
structure QFileInfo (T : Type u) where
  fileName : QString
  created : T
  deriving DecidableEq

/-! ### `StationManager::loggerDeleteDays` -/

/-- The file of `settingsMediabox`. -/
def Station.mediaboxConf (st : Station) : Path := st.player ++ [str "mediabox.conf"]

def loggerDaysKey : QString := str "loggerDeleteDays"

def defaultLoggerDays : ℤ := 10

def minimumLoggerDays : ℤ := 1

/-- `StationManager::setLogDeleteDays`. -/
def setLogDeleteDays (env : Env) (fs : FileSystem) (days : ℤ) : FileSystem :=
  let days := if days < minimumLoggerDays then defaultLoggerDays else days
  fs.setSettingsValue env.station.mediaboxConf loggerDaysKey (.int days)

/-- `StationManager::loggerDeleteDays`. -/
def loggerDeleteDays (env : Env) (fs : FileSystem) : ℤ :=
  let days := ((fs.settingsValue env.station.mediaboxConf loggerDaysKey).map
    QVariant.toInt).getD defaultLoggerDays
  if days < minimumLoggerDays then defaultLoggerDays else days

/-! ### `LoggerDelete::deleteLogs` -/

/-- The name filter `*.log`, which ignores case. -/
def IsLog (name : QString) : Prop := str ".log" <:+ name.map Char.toLower

instance (name : QString) : Decidable (IsLog name) :=
  inferInstanceAs (Decidable (_ <:+ _))

/-- `dir.entryInfoList( QStringList("*.log"), QDir::Files )`; `created` is the creation
time of each file. -/
def logFiles (fs : FileSystem) (logs : Path) (created : Path → T) : List (QFileInfo T) :=
  ((fs.entryFiles logs).filter IsLog).map fun name => ⟨name, created (logs ++ [name])⟩

section Listing

variable {logs : Path} {created : Path → T} {fs : FileSystem} {file : QFileInfo T}

theorem mem_logFiles :
    file ∈ logFiles fs logs created ↔
      (Plain file.fileName ∧ Visible file.fileName) ∧ IsLog file.fileName ∧
        file.created = created (logs ++ [file.fileName]) ∧
        (fs.read (logs ++ [file.fileName])).isSome := by
  obtain ⟨name, time⟩ := file
  simp only [logFiles, List.mem_map, List.mem_filter, mem_entryFiles, decide_eq_true_eq,
    QFileInfo.mk.injEq]
  constructor
  · rintro ⟨_, ⟨⟨shown, there⟩, log⟩, rfl, rfl⟩
    exact ⟨shown, log, rfl, there⟩
  · rintro ⟨shown, log, rfl, there⟩
    exact ⟨name, ⟨⟨shown, there⟩, log⟩, rfl, rfl⟩

theorem logFiles_nodup : (logFiles fs logs created).Nodup := by
  refine (entryFiles_nodup.filter _).map ?_
  intro name name' same
  exact congrArg QFileInfo.fileName same

/-- The file that a log of the directory is. -/
theorem child_of_mem_logFiles (mem : file ∈ logFiles fs logs created) :
    logs.child file.fileName = logs ++ [file.fileName] :=
  Path.child_plain (mem_logFiles.mp mem).1.1 logs

end Listing

variable [LinearOrder T]

/-- The last loop of `deleteLogs`. -/
def removeOlder (logs : Path) (dayX : T) : FileSystem → List (QFileInfo T) → FileSystem
  | fs, [] => fs
  | fs, file :: rest =>
      removeOlder logs dayX
        (if file.created < dayX then (fs.remove (logs.child file.fileName)).2 else fs) rest

/-- `LoggerDelete::deleteLogs`, run at `now` on the directory `logs`.  The sort is that of
`std::sort` by descending time of creation. -/
def deleteLogs (env : Env) (calendar : Calendar T)
    (order : NewestFirst (QFileInfo.created (T := T))) (now : T) (logs : Path)
    (created : Path → T) (fs : FileSystem) : FileSystem :=
  let list := logFiles fs logs created
  let backDays := loggerDeleteDays env fs
  let dayX := calendar.addDays now backDays
  if list.length ≤ 10 then fs
  else removeOlder logs dayX fs ((order.sort list).drop 10)

section Settings

variable {env : Env} {fs : FileSystem}

theorem loggerDeleteDays_pos : 0 < loggerDeleteDays env fs := by
  unfold loggerDeleteDays
  simp only
  split
  · decide
  next enough => exact Int.lt_of_not_ge fun nonpositive => enough (by
      rw [minimumLoggerDays]
      omega)

/-- What is set is what is read, and a number of days below the minimum is the default. -/
theorem loggerDeleteDays_setLogDeleteDays (days : ℤ) :
    loggerDeleteDays env (setLogDeleteDays env fs days) =
      if days < minimumLoggerDays then defaultLoggerDays else days := by
  unfold loggerDeleteDays setLogDeleteDays
  simp only [settingsValue_setSettingsValue, and_self, if_true, Option.map_some, QVariant.toInt,
    Option.getD_some]
  by_cases few : days < minimumLoggerDays
  · simp only [if_pos few]
    exact if_neg (by decide)
  · simp only [if_neg few]

end Settings

section Deletion

variable {env : Env} {calendar : Calendar T} {order : NewestFirst (QFileInfo.created (T := T))}
variable {now dayX : T} {logs p : Path} {created : Path → T} {fs : FileSystem}
variable {file : QFileInfo T} {list : List (QFileInfo T)}

/-- **The last loop**: when removals succeed, the old files of the list go and nothing
else changes. -/
theorem removeOlder_spec (removes : fs.outcomes.remove = .const true) :
    (removeOlder logs dayX fs list).read p =
      if ∃ file ∈ list, file.created < dayX ∧ p = logs.child file.fileName then none
      else fs.read p := by
  induction list generalizing fs with
  | nil => simp [removeOlder]
  | cons file rest ih =>
      unfold removeOlder
      have next : (fs.remove (logs.child file.fileName)).2.outcomes.remove = .const true := by
        rw [outcomes_remove, removes]
        rfl
      have succeeds : fs.outcomes.remove.head = true := by
        rw [removes]
        rfl
      by_cases old : file.created < dayX
      · rw [if_pos old, ih next, read_remove_snd, succeeds]
        by_cases first : p = logs.child file.fileName
        · simp [first, old]
        · simp [first]
      · rw [if_neg old, ih removes]
        simp [old]

/-- **The deletion**: all files but the ten newest go that are older than a day in the
future. -/
theorem deleteLogs_spec (removes : fs.outcomes.remove = .const true) :
    (deleteLogs env calendar order now logs created fs).read p =
      if ∃ file ∈ order.older 10 (logFiles fs logs created),
          file.created < calendar.addDays now (loggerDeleteDays env fs) ∧
            p = logs ++ [file.fileName] then none
      else fs.read p := by
  have place (file : QFileInfo T) (mem : file ∈ order.older 10 (logFiles fs logs created)) :
      logs.child file.fileName = logs ++ [file.fileName] :=
    child_of_mem_logFiles ((order.mem_older logFiles_nodup).mp mem).1
  unfold deleteLogs
  simp only
  split
  next few =>
    have none : order.older 10 (logFiles fs logs created) = [] :=
      List.drop_eq_nil_of_le ((order.perm _).length_eq.trans_le few)
    simp [none]
  next many =>
    rw [removeOlder_spec removes]
    refine if_congr (exists_congr fun file => and_congr_right fun mem => ?_) rfl rfl
    rw [place file mem]

/-- The rule of the retention of `days` days, for a deletion that leaves `after` of `fs`:
a file goes exactly when it is a log that is not one of the ten newest and was created
more than `days` days ago. -/
structure Retains (calendar : Calendar T) (order : NewestFirst (QFileInfo.created (T := T)))
    (days : ℤ) (now : T) (logs : Path) (created : Path → T) (fs after : FileSystem) : Prop where
  deletes : ∀ p, (fs.read p).isSome → (after.read p = none ↔
    ∃ file ∈ logFiles fs logs created, file ∉ order.newest 10 (logFiles fs logs created) ∧
      file.created < calendar.addDays now (-days) ∧ p = logs ++ [file.fileName])
  newest : ∀ file ∈ order.newest 10 (logFiles fs logs created), ∀ other ∈ logFiles fs logs created,
    other ∉ order.newest 10 (logFiles fs logs created) → other.created ≤ file.created
  remain : min 10 (logFiles fs logs created).length ≤ (logFiles after logs created).length
  young : ∀ file ∈ logFiles fs logs created, ¬ file.created < calendar.addDays now (-days) →
    file ∈ logFiles after logs created

/-- **When the retention rule is kept.**  The period has no influence on what is deleted:
the rule holds exactly when every log but the ten newest is older than the period. -/
theorem deleteLogs_retains_iff (removes : fs.outcomes.remove = .const true)
    (past : ∀ file ∈ logFiles fs logs created, file.created ≤ now) :
    Retains calendar order (loggerDeleteDays env fs) now logs created fs
        (deleteLogs env calendar order now logs created fs) ↔
      ∀ file ∈ logFiles fs logs created, file ∉ order.newest 10 (logFiles fs logs created) →
        file.created < calendar.addDays now (-loggerDeleteDays env fs) := by
  set list := logFiles fs logs created with listed
  set after := deleteLogs env calendar order now logs created fs with deleted
  -- the day of the comparison is in the future, so that every file is older
  have gone (p : Path) : after.read p =
      if ∃ file ∈ order.older 10 list, p = logs ++ [file.fileName] then none else fs.read p := by
    rw [deleted, deleteLogs_spec removes]
    refine if_congr (exists_congr fun file => and_congr_right fun mem => ?_) rfl rfl
    have older : file.created < calendar.addDays now (loggerDeleteDays env fs) :=
      (past file ((order.mem_older logFiles_nodup).mp mem).1).trans_lt
        (calendar.lt_addDays now loggerDeleteDays_pos)
    simp [older]
  have there (file : QFileInfo T) (mem : file ∈ list) :
      (fs.read (logs ++ [file.fileName])).isSome := (mem_logFiles.mp mem).2.2.2
  have named (file file' : QFileInfo T) (mem : file ∈ list) (mem' : file' ∈ list)
      (same : logs ++ [file.fileName] = logs ++ [file'.fileName]) : file = file' := by
    have times := (mem_logFiles.mp mem).2.2.1
    have times' := (mem_logFiles.mp mem').2.2.1
    obtain ⟨name, time⟩ := file
    obtain ⟨name', time'⟩ := file'
    simp_all
  -- a log that is one of the ten newest stays
  have stays (file : QFileInfo T) (mem : file ∈ order.newest 10 list) :
      file ∈ logFiles after logs created := by
    have found := mem_logFiles.mp (order.mem_of_mem_newest mem)
    refine mem_logFiles.mpr ⟨found.1, found.2.1, found.2.2.1, ?_⟩
    rw [gone, if_neg]
    · exact found.2.2.2
    · rintro ⟨other, isOlder, same⟩
      have split := (order.mem_older logFiles_nodup).mp isOlder
      obtain rfl := named file other (order.mem_of_mem_newest mem) split.1 same
      exact split.2 mem
  constructor
  · intro retains file mem notNewest
    have isGone : after.read (logs ++ [file.fileName]) = none := by
      rw [gone, if_pos]
      exact ⟨file, (order.mem_older logFiles_nodup).mpr ⟨mem, notNewest⟩, rfl⟩
    obtain ⟨other, mem', -, old, same⟩ := (retains.deletes _ (there file mem)).mp isGone
    obtain rfl := named file other mem mem' same
    exact old
  · intro old
    refine ⟨fun p isThere => ?_, fun file mem other mem' notNewest => ?_, ?_,
      fun file mem young => ?_⟩
    · rw [gone, ite_eq_left_iff]
      constructor
      · intro isGone
        obtain ⟨file, isOlder, place⟩ :
          ∃ file ∈ order.older 10 list, p = logs ++ [file.fileName] := by
          by_contra stays
          rw [isGone stays] at isThere
          cases isThere
        obtain ⟨mem, notNewest⟩ := (order.mem_older logFiles_nodup).mp isOlder
        exact ⟨file, mem, notNewest, old file mem notNewest, place⟩
      · rintro ⟨file, mem, notNewest, -, place⟩ stays
        exact absurd ⟨file, (order.mem_older logFiles_nodup).mpr ⟨mem, notNewest⟩, place⟩ stays
    · exact order.key_le mem ((order.mem_older logFiles_nodup).mpr ⟨mem', notNewest⟩)
    · rw [← order.length_newest]
      exact ((order.newest_nodup logFiles_nodup).subperm stays).length_le
    · exact stays file (by_contra fun notNewest => young (old file mem notNewest))

end Deletion

/-- Time in hours. -/
def Calendar.demo : Calendar ℤ where
  addDays time days := time + 24 * days
  lt_addDays time {days} positive := by omega

/-- Eleven logs, from `a.log` on. -/
def demoLogs : FileSystem :=
  (List.range 11).foldl (fun fs i =>
    fs.put [str "logs", .ofNat (97 + i) :: str ".log"] (ascii "text")) .blank

/-- `a.log` is created at the time 0, each other log so many hours before the one in front. -/
def demoCreated (hours : ℤ) (p : Path) : ℤ :=
  (97 - ((p.flatten)[4]?.getD 'a').toNat) * hours

/-- A log every two days: the eleventh is twenty days old. -/
theorem deleteLogs_retains_demo :
    Retains .demo (.stable QFileInfo.created) (loggerDeleteDays .demo demoLogs) 0 [str "logs"]
      (demoCreated 48) demoLogs (deleteLogs .demo .demo (.stable QFileInfo.created) 0 [str "logs"]
        (demoCreated 48) demoLogs) :=
  (deleteLogs_retains_iff rfl (by decide)).mpr (by decide)

/-- A log every hour: the eleventh, ten hours old, goes in spite of a period of ten days. -/
theorem deleteLogs_retains_fails :
    demoLogs.outcomes.remove = .const true ∧
      (∀ file ∈ logFiles demoLogs [str "logs"] (demoCreated 1), file.created ≤ 0) ∧
      ¬ Retains .demo (.stable QFileInfo.created) (loggerDeleteDays .demo demoLogs) 0 [str "logs"]
        (demoCreated 1) demoLogs (deleteLogs .demo .demo (.stable QFileInfo.created) 0 [str "logs"]
          (demoCreated 1) demoLogs) := by
  refine ⟨rfl, by decide, fun retains => ?_⟩
  obtain ⟨file, mem, -, old, -⟩ :=
    (retains.deletes [str "logs", str "k.log"] (by decide)).mp (by decide)
  have young : ∀ file ∈ logFiles demoLogs [str "logs"] (demoCreated 1), ¬ file.created <
      Calendar.demo.addDays 0 (-loggerDeleteDays .demo demoLogs) := by
    decide
  exact young file mem old

end MediaUpdater
