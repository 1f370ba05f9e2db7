import MediaUpdater.Content.Info

/-!
# `CheckDownloadedContent`

Two INI files hold the verdicts on downloads: `checkstorage` marks a MUSIC or
ADVERT file as trusted, `command/revstorage` keeps the status of each control
file.  `checkFile` answers whether a file is trusted and, for a network content,
removes an untrusted file from the path it is given.

The results of this module are one specification for each operation: `checkFile`
answers the trust bit (`checkFile_fst`) and leaves a trusted file and everything
local alone; `checkAllFiles` answers whether all files are trusted
(`checkAllFiles_all`).
-/

namespace MediaUpdater

namespace CheckDownloadedContent

open FileSystem

variable (env : Env) (boxId : QString) (fs : FileSystem)

/-- The key of a file: `beginGroup(dirName)` and `fileName`. -/
def storageKey (entry : Entry) : QString :=
  if entry.dirName = [] then entry.fileName
  else entry.dirName ++ str "/" ++ entry.fileName

/-- `CheckDownloadedContent::trust`. -/
def trust (entry : Entry) : Bool :=
  ((fs.settingsValue (env.station.checkstorage boxId) (storageKey entry)).map
    QVariant.toBool).getD false

/-- `CheckDownloadedContent::setTrust`. -/
def setTrust (entry : Entry) : FileSystem :=
  fs.setSettingsValue (env.station.checkstorage boxId) (storageKey entry) (.bool true)

/-- `CheckDownloadedContent::remove`. -/
def remove (entry : Entry) : FileSystem :=
  fs.removeSettings (env.station.checkstorage boxId) (storageKey entry)

/-- `CheckDownloadedContent::checkRev`. -/
def checkRev (fileName : QString) : ℤ :=
  ((fs.settingsValue (env.station.revstorage boxId) fileName).map QVariant.toInt).getD
    CheckStatus.default.toInt

/-- `CheckDownloadedContent::setRev`. -/
def setRev (fileName : QString) (status : CheckStatus) : FileSystem :=
  fs.setSettingsValue (env.station.revstorage boxId) fileName (.int status.toInt)

/-- `CheckDownloadedContent::checkFile`. -/
def checkFile (entry : Entry) (content : ContentRef) : Bool × FileSystem :=
  let ok := trust env boxId fs entry
  let path := content.filePath entry
  if !ok && !content.isLocal && fs.fileExists path then
    let removed := fs.remove path
    (ok, if removed.1 then remove env boxId removed.2 entry else removed.2)
  else (ok, fs)

/-- `CheckDownloadedContent::checkAllFiles`: stops at the first file that is not
trusted. -/
def checkAllFiles : FileSystem → List SContentInfo → Bool × FileSystem
  | fs, [] => (true, fs)
  | fs, info :: rest =>
      let checked := checkFile env boxId fs info.toEntry info.content
      if checked.1 then checkAllFiles checked.2 rest else (false, checked.2)

variable {env boxId fs} {entry other : Entry} {content : ContentRef} {path : Path}

/-! ### The trust bit -/

theorem trust_setTrust :
    trust env boxId (setTrust env boxId fs entry) other =
      (decide (storageKey other = storageKey entry) || trust env boxId fs other) := by
  by_cases same : storageKey other = storageKey entry <;>
    simp [trust, setTrust, settingsValue_setSettingsValue, same, QVariant.toBool]

theorem trust_remove :
    trust env boxId (remove env boxId fs entry) other =
      (!decide (storageKey other = storageKey entry) && trust env boxId fs other) := by
  by_cases same : storageKey other = storageKey entry <;>
    simp [trust, remove, settingsValue_removeSettings, same]

theorem checkRev_setRev {name name' : QString} {status : CheckStatus} :
    checkRev env boxId (setRev env boxId fs name status) name' =
      if name' = name then status.toInt else checkRev env boxId fs name' := by
  by_cases same : name' = name <;>
    simp [checkRev, setRev, settingsValue_setSettingsValue, same, QVariant.toInt]

@[simp] theorem read_setTrust : (setTrust env boxId fs entry).read path = fs.read path := rfl

@[simp] theorem read_remove : (remove env boxId fs entry).read path = fs.read path := rfl

@[simp] theorem read_setRev {name : QString} {status : CheckStatus} :
    (setRev env boxId fs name status).read path = fs.read path := rfl

@[simp] theorem trust_put {bytes : QByteArray} :
    trust env boxId (fs.put path bytes) entry = trust env boxId fs entry := rfl

theorem trust_forget (apart : path ≠ env.station.checkstorage boxId) :
    trust env boxId (fs.forget path) entry = trust env boxId fs entry := by
  simp [trust, settingsValue_forget, apart.symm]

/-- The two storages are two files. -/
theorem checkstorage_ne_revstorage (st : Station) (b b' : QString) :
    st.checkstorage b ≠ st.revstorage b' := by
  simp [Station.checkstorage, Station.revstorage, Station.boxDir]

/-! ### `checkFile` -/

@[simp] theorem checkFile_fst :
    (checkFile env boxId fs entry content).1 = trust env boxId fs entry := by
  simp only [checkFile]
  split <;> rfl

/-- A trusted file and a local content are left alone. -/
theorem checkFile_of_trust (trusted : trust env boxId fs entry = true) :
    checkFile env boxId fs entry content = (true, fs) := by
  simp [checkFile, trusted]

theorem checkFile_of_isLocal (isLocal : content.isLocal = true) :
    checkFile env boxId fs entry content = (trust env boxId fs entry, fs) := by
  simp [checkFile, isLocal]

/-- **All files are trusted** when `checkAllFiles` says so, and then it has left the disk
alone. -/
theorem checkAllFiles_all {infos : List SContentInfo}
    (all : (checkAllFiles env boxId fs infos).1 = true) :
    (checkAllFiles env boxId fs infos).2 = fs ∧
      ∀ info ∈ infos, trust env boxId fs info.toEntry = true := by
  induction infos with
  | nil => exact ⟨rfl, by simp⟩
  | cons info rest ih =>
      rw [checkAllFiles] at all ⊢
      cases trusted : trust env boxId fs info.toEntry with
      | false =>
          rw [if_neg (by simp [trusted])] at all
          cases all
      | true =>
          simp only [checkFile_of_trust trusted, if_true] at all ⊢
          obtain ⟨same, others⟩ := ih all
          exact ⟨same, List.forall_mem_cons.mpr ⟨trusted, others⟩⟩

end CheckDownloadedContent

end MediaUpdater
