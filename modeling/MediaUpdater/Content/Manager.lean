import MediaUpdater.Content.Sync

/-!
# `ContentManager`

The manager owns the contents of the current stage and the map of the files to
download, which is keyed by *file name*: two pending files of one name share an
entry, and the later one replaces the earlier (`contentFiles_nodup` is the other
side of it: no name is queued twice).
-/

namespace MediaUpdater

open FileSystem CheckDownloadedContent

/-- The value of a sum in a `qint64`, which wraps around. -/
def qint64 (n : ℤ) : ℤ := n.bmod (2 ^ 64)

theorem qint64_add (m n : ℤ) : qint64 (qint64 m + n) = qint64 (m + n) := Int.bmod_add_bmod

/-- `ContentManager`. -/
structure ContentManager where
  contentMap : ContentType → Option Content := fun _ => none
  contentFilesMap : AList fun _ : QString => SContentInfo := ∅
  /-- `mStandartFiles`, set for the contents that have pending files. -/
  standartFiles : ContentType → List Entry := fun _ => []
  loginInfo : LoginInfo
  totalSize : ℤ := 0

namespace ContentManager

variable (env : Env) (cm : ContentManager)

/-- `setLoginInfo`. -/
def setLoginInfo (info : LoginInfo) : ContentManager := { cm with loginInfo := info }

/-- `clear`. -/
def clear : ContentManager := { cm with contentMap := fun _ => none, contentFilesMap := ∅ }

/-- `fullClear`. -/
def fullClear : ContentManager := { cm.clear with standartFiles := fun _ => [] }

/-- `setTotalSize`. -/
def setTotalSize (size : ℤ) : ContentManager := { cm with totalSize := size }

/-- `appendSize`. -/
def appendSize (size : ℤ) : ContentManager :=
  { cm with totalSize := qint64 (cm.totalSize + size) }

/-- The server path of an entry: control files lie below the box folder in their
own directories, content files directly in the directory of their type. -/
def serverPath (info : LoginInfo) (content : Content) (entry : Entry) : QString :=
  if content.contentType = .revision ∧ info.boxFolder ≠ [] then
    info.prefixSlash ++ info.boxFolderSlash ++ content.sourceDir.slashed ++
      (if entry.dirName = [] then [] else entry.dirName ++ str "/") ++ entry.fileName
  else info.prefixSlash ++ content.sourceDir.slashed ++ entry.fileName

/-- The queue entry that `generateUrlList` makes of an entry of the content. -/
def contentInfo (info : LoginInfo) (content : Content) (entry : Entry) : SContentInfo where
  toEntry := entry
  serverPath := serverPath info content entry
  url := ⟨info.scheme, info.host, serverPath info content entry, info.port, info.login,
    info.password⟩
  content := content.ref

/-- The loop of `generateUrlList`. -/
def insertInfos (info : LoginInfo) (content : Content) :
    (AList fun _ : QString => SContentInfo) → List Entry → AList fun _ : QString => SContentInfo
  | map, [] => map
  | map, entry :: rest =>
      insertInfos info content (map.insert entry.fileName (contentInfo info content entry)) rest

/-- `generateUrlList`. -/
def generateUrlList (content : Content) : ContentManager :=
  if content.sourceDir = [] then cm
  else
    { cm with
      contentFilesMap := insertInfos cm.loginInfo content cm.contentFilesMap content.sourceList
      standartFiles :=
        if content.contentType = .revision ∨ content.sourceList = [] then cm.standartFiles
        else Function.update cm.standartFiles content.contentType content.standartSourceFiles }

/-- `mContentMap.isEmpty()`. -/
def isEmpty : Bool :=
  (cm.contentMap .music).isNone && (cm.contentMap .advert).isNone &&
    (cm.contentMap .revision).isNone

/-- `addNetworkContent`. -/
def addNetworkContent (fs : FileSystem) (type : ContentType) : ContentManager × FileSystem :=
  if (type = .revision ∧ !cm.isEmpty) ∨ (type ≠ .revision ∧ (cm.contentMap type).isSome) then
    (cm, fs)
  else
    let made := Content.new env fs type cm.loginInfo.boxId false
    (({ cm with contentMap := Function.update cm.contentMap type (some made.1) }
      : ContentManager).generateUrlList made.1, made.2)

/-- `contentFiles`: the values of the map in the order of the file names. -/
def contentFiles : List SContentInfo :=
  (cm.contentFilesMap.entries.insertionSort fun a b => nameOrder a.1 b.1).map Sigma.snd

/-- `setLocalContent`. -/
def setLocalContent (fs : FileSystem) : ContentManager :=
  let boxId := cm.loginInfo.boxId
  { cm.clear with
    contentMap := fun type => some (Content.new env fs type boxId true).1 }

/-- `for( auto content: mContentMap ) restart |= content->sync();` -/
def syncContents (fs : FileSystem) : List Content → Bool × FileSystem
  | [] => (false, fs)
  | content :: rest =>
      let synced := content.sync env fs
      let others := syncContents synced.2 rest
      (synced.1 || others.1, others.2)

/-- The contents of the map in the order of its keys. -/
def contents : List Content := [.music, .advert, .revision].filterMap cm.contentMap

/-- `syncContent`: the manager, whether the player is asked to restart, the disk. -/
def syncContent (fs : FileSystem) : ContentManager × Bool × FileSystem :=
  let cm' := cm.setLocalContent env fs
  (cm', syncContents env fs cm'.contents)

/-- **A sync is three syncs**, of the music, of the adverts and of the control files, each
on the disk that the one before has left. -/
theorem syncContent_eq (fs : FileSystem) :
    let content (type : ContentType) := (Content.new env fs type cm.loginInfo.boxId true).1
    let music := (content .music).sync env fs
    let advert := (content .advert).sync env music.2
    let control := (content .revision).sync env advert.2
    (cm.syncContent env fs).2.1 = (music.1 || (advert.1 || (control.1 || false))) ∧
      (cm.syncContent env fs).2.2 = control.2 := by
  intro content music advert control
  have all : (cm.setLocalContent env fs).contents =
      [content .music, content .advert, content .revision] := rfl
  simp only [syncContent, all, syncContents, music, advert, control, and_self]

/-! ### The files to download -/

variable {cm} {info : SContentInfo}

theorem mem_contentFiles :
    info ∈ cm.contentFiles ↔ ∃ name, cm.contentFilesMap.lookup name = some info := by
  simp only [contentFiles, List.mem_map, List.mem_insertionSort, Sigma.exists,
    exists_eq_right]
  constructor
  · rintro ⟨name, mem⟩
    exact ⟨name, AList.mem_lookup_iff.mpr mem⟩
  · rintro ⟨name, found⟩
    exact ⟨name, AList.mem_lookup_iff.mp found⟩

/-- The map is keyed by the file names. -/
def Keyed (cm : ContentManager) : Prop :=
  ∀ name info, cm.contentFilesMap.lookup name = some info → info.fileName = name

theorem Keyed.clear (cm : ContentManager) : cm.clear.Keyed := by
  intro name info found
  cases found

theorem keyed_insertInfos {login : LoginInfo} {content : Content} {entries : List Entry}
    {map : AList fun _ : QString => SContentInfo}
    (keyed : ∀ name info, map.lookup name = some info → info.fileName = name) :
    ∀ name info, (insertInfos login content map entries).lookup name = some info →
      info.fileName = name := by
  induction entries generalizing map with
  | nil => exact keyed
  | cons entry rest ih =>
      rw [insertInfos]
      refine ih fun name info found => ?_
      by_cases same : name = entry.fileName
      · subst same
        rw [AList.lookup_insert] at found
        obtain rfl := Option.some.inj found
        rfl
      · rw [AList.lookup_insert_ne same] at found
        exact keyed name info found

theorem Keyed.addNetworkContent (keyed : cm.Keyed) (env : Env) (fs : FileSystem)
    (type : ContentType) : (cm.addNetworkContent env fs type).1.Keyed := by
  unfold ContentManager.addNetworkContent
  split
  · exact keyed
  · simp only [generateUrlList]
    split
    · exact keyed
    · exact keyed_insertInfos keyed

/-- No name is queued twice. -/
theorem contentFiles_nodup (keyed : cm.Keyed) :
    (cm.contentFiles.map fun info => info.fileName).Nodup := by
  have keys : (cm.contentFiles.map fun info => info.fileName).Perm cm.contentFilesMap.keys := by
    have names : cm.contentFilesMap.entries.map (fun entry => entry.2.fileName) =
        cm.contentFilesMap.keys :=
      List.map_congr_left fun entry mem => keyed entry.1 entry.2 (AList.mem_lookup_iff.mpr mem)
    rw [← names, contentFiles, List.map_map]
    exact (List.perm_insertionSort _ _).map _
  exact keys.nodup_iff.mpr cm.contentFilesMap.nodupKeys

end ContentManager

end MediaUpdater
