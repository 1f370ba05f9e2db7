import MediaUpdater.Content.Sync
import MediaUpdater.Qt.Frame

/-!
# Collecting files

MUSIC and ADVERT files have the same shape of tree in the staging area and below
the media directory: `music/<channel>/<file>` and `ads/<file>`.  `pairPath` is
that shape, and `scan` what a directory scan finds of it.  The loops of `Content`
are brought down to these two.

## Main results

* `mem_scan`, `scan_nodup` — a scan finds the visible pairs, each once.
* `sourceList_local` — a local content lists the trusted pairs of the staging area.
* `LocalContent.collectContentFromFile_eq` — on a reliable disk a local content reads its
  manifest and changes nothing.
-/

namespace MediaUpdater

open FileSystem CheckDownloadedContent

/-! ### The two storages -/

section Storages

variable {env : Env} {boxId : QString} {fs fs' : FileSystem} {touched : Path → Prop}

/-- Trust does not change while `checkstorage` is left alone. -/
theorem FileSystem.Frame.trust (frame : Frame touched fs fs')
    (away : ¬ touched (env.station.checkstorage boxId)) (e : Entry) :
    CheckDownloadedContent.trust env boxId fs' e = CheckDownloadedContent.trust env boxId fs e := by
  rw [CheckDownloadedContent.trust, CheckDownloadedContent.trust, frame.settingsValue away]

/-- The statuses do not change while `revstorage` is left alone. -/
theorem FileSystem.Frame.checkRev (frame : Frame touched fs fs')
    (away : ¬ touched (env.station.revstorage boxId)) (name : QString) :
    CheckDownloadedContent.checkRev env boxId fs' name =
      CheckDownloadedContent.checkRev env boxId fs name := by
  rw [CheckDownloadedContent.checkRev, CheckDownloadedContent.checkRev, frame.settingsValue away]

end Storages

/-! ### Pairs -/

/-- The file of an entry below a root: the media directory, or the staging area. -/
def pairPath (root : Path) : ContentType → Entry → Path
  | .music, e => root ++ [Station.musicDir, e.dirName, e.fileName]
  | .advert, e => root ++ [Station.advertDir, e.fileName]
  | .revision, e => root ++ [e.dirName, e.fileName]

/-- The entry is a pair of the content type: plain names, and the directory of the
advertising files. -/
structure IsPair (type : ContentType) (e : Entry) : Prop where
  dir : Plain e.dirName
  file : Plain e.fileName
  advert : type = .advert → e.dirName = Station.advertDir

instance (type : ContentType) (e : Entry) : Decidable (IsPair type e) :=
  decidable_of_iff (Plain e.dirName ∧ Plain e.fileName ∧
    (type = .advert → e.dirName = Station.advertDir))
    ⟨fun h => ⟨h.1, h.2.1, h.2.2⟩, fun h => ⟨h.1, h.2, h.3⟩⟩

/-- No name of the pair is hidden from a directory scan. -/
def VisiblePair (type : ContentType) (e : Entry) : Prop :=
  (type = .music → Visible e.dirName) ∧ Visible e.fileName

instance (type : ContentType) (e : Entry) : Decidable (VisiblePair type e) :=
  inferInstanceAs (Decidable ((type = .music → Visible e.dirName) ∧ Visible e.fileName))

theorem plain_advertDir : Plain Station.advertDir := by decide

section PairPath

variable {type type' : ContentType} {e e' : Entry} {root root' : Path}

/-- Two pairs of one type with one path are one pair. -/
theorem pairPath_inj (dirs : type = .advert → e.dirName = e'.dirName)
    (same : pairPath root type e = pairPath root type e') : e = e' := by
  obtain ⟨dir, file⟩ := e
  obtain ⟨dir', file'⟩ := e'
  cases type with
  | music | revision => simpa [pairPath] using same
  | advert =>
      have files : file = file' := by simpa [pairPath] using same
      rw [files, show dir = dir' from dirs rfl]

theorem IsPair.dirs (pair : IsPair type e) (pair' : IsPair type e') :
    type = .advert → e.dirName = e'.dirName :=
  fun advert => (pair.advert advert).trans (pair'.advert advert).symm

/-- A staged pair is not an installed one. -/
theorem pairPath_boxDir_ne_media (st : Station) (boxId : QString) :
    pairPath (st.boxDir boxId) type e ≠ pairPath st.media type' e' := by
  cases type <;> cases type' <;>
    simp [pairPath, Station.boxDir, Station.mediaSync, Station.musicDir, Station.advertDir, str]

end PairPath

/-- Plain names make different keys. -/
theorem storageKey_inj {e e' : Entry} (plain : Plain e.dirName) (plain' : Plain e'.dirName)
    (same : storageKey e = storageKey e') : e = e' := by
  obtain ⟨dir, file⟩ := e
  obtain ⟨dir', file'⟩ := e'
  simp only [storageKey, plain.ne_nil, plain'.ne_nil, if_false, List.append_assoc] at same
  have before (dir file : QString) (noSlash : '/' ∉ dir) :
      (dir ++ (str "/" ++ file)).takeWhile (· ≠ '/') = dir := by
    rw [List.takeWhile_append_of_pos]
    · simp [str]
    · intro c mem
      simpa using fun same : c = '/' => noSlash (same ▸ mem)
  have dirs : dir = dir' := by
    rw [← before dir file plain.no_slash, same, before dir' file' plain'.no_slash]
  subst dirs
  have files : file = file' := by simpa using same
  rw [files]

/-! ### Directory scans -/

/-- What a directory scan of the tree of a content type finds. -/
def scan (fs : FileSystem) (root : Path) : ContentType → List Entry
  | .music => (fs.entryDirs (root ++ [Station.musicDir])).flatMap fun dir =>
      Content.filesFromDir fs (root ++ [Station.musicDir] ++ [dir])
  | .advert => Content.filesFromDir fs (root ++ [Station.advertDir])
  | .revision => []

section Scan

variable {fs : FileSystem} {root dir : Path} {name : QString} {e : Entry} {type : ContentType}

theorem mem_filesFromDir :
    e ∈ Content.filesFromDir fs (dir ++ [name]) ↔
      e.dirName = name ∧ (Plain e.fileName ∧ Visible e.fileName) ∧
        (fs.read (dir ++ [name, e.fileName])).isSome := by
  obtain ⟨dirName, fileName⟩ := e
  simp only [Content.filesFromDir, List.mem_map, mem_entryFiles, List.getLast?_append,
    List.getLast?_singleton, Option.some_or, Option.getD_some, Entry.mk.injEq, List.append_assoc,
    List.singleton_append]
  constructor
  · rintro ⟨file, ⟨shown, there⟩, rfl, rfl⟩
    exact ⟨rfl, shown, there⟩
  · rintro ⟨rfl, shown, there⟩
    exact ⟨fileName, ⟨shown, there⟩, rfl, rfl⟩

theorem filesFromDir_nodup : (Content.filesFromDir fs dir).Nodup := by
  refine (entryFiles_nodup).map ?_
  intro file file' same
  exact congrArg Entry.fileName same

/-- **A scan finds the visible pairs.** -/
theorem mem_scan :
    e ∈ scan fs root type ↔ type ≠ .revision ∧ IsPair type e ∧ VisiblePair type e ∧
      (fs.read (pairPath root type e)).isSome := by
  cases type with
  | music =>
      have place : pairPath root .music e =
          root ++ [Station.musicDir] ++ [e.dirName, e.fileName] := by simp [pairPath]
      rw [scan, List.mem_flatMap, place]
      constructor
      · rintro ⟨dir, listed, found⟩
        obtain ⟨⟨plain, visible⟩, -⟩ := mem_entryDirs.mp listed
        obtain ⟨rfl, ⟨plain', visible'⟩, there⟩ := mem_filesFromDir.mp found
        exact ⟨by simp, ⟨plain, plain', by simp⟩, ⟨fun _ => visible, visible'⟩, there⟩
      · rintro ⟨-, pair, ⟨visible, visible'⟩, there⟩
        exact ⟨e.dirName,
          mem_entryDirs.mpr ⟨⟨pair.dir, visible rfl⟩, [e.fileName], by simp, there⟩,
          mem_filesFromDir.mpr ⟨rfl, ⟨pair.file, visible'⟩, there⟩⟩
  | advert =>
      rw [scan, mem_filesFromDir]
      constructor
      · rintro ⟨dir, ⟨plain, visible⟩, there⟩
        exact ⟨by simp, ⟨dir ▸ plain_advertDir, plain, fun _ => dir⟩, ⟨by simp, visible⟩, there⟩
      · rintro ⟨-, pair, ⟨-, visible⟩, there⟩
        exact ⟨pair.advert rfl, ⟨pair.file, visible⟩, there⟩
  | revision => simp [scan]

theorem scan_nodup : (scan fs root type).Nodup := by
  cases type with
  | music =>
      refine List.nodup_flatMap.mpr ⟨fun dir _ => filesFromDir_nodup, ?_⟩
      refine (entryDirs_nodup).imp fun {dir dir'} other e mem mem' => ?_
      exact other ((mem_filesFromDir.mp mem).1.symm.trans (mem_filesFromDir.mp mem').1)
  | advert => exact filesFromDir_nodup
  | revision => exact List.nodup_nil

end Scan

/-! ### Local contents -/

/-- The directory of a content type, on the server as in both trees. -/
def ContentType.dir : ContentType → QString
  | .advert => Station.advertDir
  | _ => Station.musicDir

/-- A local MUSIC or ADVERT content: it installs from the staging area below the media
directory. -/
structure LocalContent (env : Env) (boxId : QString) (type : ContentType) (c : Content) : Prop where
  contentType : c.contentType = type
  isLocal : c.isLocal = true
  box : c.boxId = boxId
  sourceDir : c.sourceDir = env.station.boxDir boxId ++ [type.dir]
  destination : c.destination = env.station.media ++ [type.dir]

section Local

variable {env : Env} {boxId : QString} {fs : FileSystem} {type : ContentType} {c : Content}
variable {e : Entry}

theorem localContent_new (media : type ≠ .revision) :
    LocalContent env boxId type (Content.new env fs type boxId true).1 := by
  cases type with
  | music | advert => exact ⟨rfl, rfl, rfl, rfl, rfl⟩
  | revision => exact absurd rfl media

theorem filesFromDirWithCheck_eq (dir : Path) :
    Content.filesFromDirWithCheck env c fs dir =
      (Content.filesFromDir fs dir).filter fun e => trust env c.boxId fs e := by
  simp [Content.filesFromDirWithCheck, Content.filesFromDir]

/-- **A local content lists the trusted pairs of the staging area.** -/
theorem sourceList_local (media : type ≠ .revision) :
    (Content.new env fs type boxId true).1.sourceList =
      (scan fs (env.station.boxDir boxId) type).filter fun e => trust env boxId fs e := by
  cases type with
  | music =>
      simp [Content.new, Content.collectContentFromPathWithCheck, scan, filesFromDirWithCheck_eq,
        List.filter_flatMap]
  | advert =>
      simp [Content.new, Content.collectContentFromDirWithCheck, scan, filesFromDirWithCheck_eq]
  | revision => exact absurd rfl media

/-- The loop of a local content over its manifest: every entry joins the list of all
files, and the entries that are neither trusted nor installed join the source list. -/
theorem collectEntries_local (isLocal : c.isLocal = true) (entries : List Entry) :
    Content.collectEntries env c fs entries =
      ({ c with
          sourceList := c.sourceList ++ entries.filter fun e =>
            !(trust env c.boxId fs e || fs.fileExists (env.station.installedPath c.contentType e))
          standartSourceFiles := c.standartSourceFiles ++ entries }, fs) := by
  induction entries generalizing c with
  | nil => simp [Content.collectEntries]
  | cons e rest ih =>
      have checked : Content.checkExistFile env c fs e =
          (trust env c.boxId fs e || fs.fileExists (env.station.installedPath c.contentType e),
            fs) := by
        rw [Content.checkExistFile, checkFile_of_isLocal isLocal]
      rw [Content.collectEntries, checked]
      simp only
      split
      next existing =>
        rw [ih (c := c.appendStandart e) isLocal, List.filter_cons_of_neg (by simp [existing])]
        simp [Content.appendStandart]
      next missing =>
        rw [ih (c := (c.appendStandart e).appendInfo e) isLocal,
          List.filter_cons_of_pos (by simpa using missing)]
        simp [Content.appendStandart, Content.appendInfo]

namespace LocalContent

variable (lc : LocalContent env boxId type c)

include lc

theorem sourcePath_eq (media : type ≠ .revision) (pair : IsPair type e) :
    c.sourcePath e = pairPath (env.station.boxDir boxId) type e := by
  rw [Content.sourcePath, lc.contentType, lc.sourceDir]
  cases type with
  | music => simp [Path.child_plain pair.dir, Path.child_plain pair.file, pairPath, ContentType.dir]
  | advert => simp [Path.child_plain pair.file, pairPath, ContentType.dir]
  | revision => exact absurd rfl media

theorem destinationPath_eq (media : type ≠ .revision) (pair : IsPair type e) :
    c.destinationPath e = pairPath env.station.media type e := by
  rw [Content.destinationPath, lc.contentType, lc.destination]
  cases type with
  | music => simp [Path.child_plain pair.dir, Path.child_plain pair.file, pairPath, ContentType.dir]
  | advert => simp [Path.child_plain pair.file, pairPath, ContentType.dir]
  | revision => exact absurd rfl media

/-- **A local content reads its manifest**: the manifest's entries are the list of all
files, those that are neither trusted nor installed the source list. -/
theorem collectContentFromFile_eq (media : type ≠ .revision) (reliable : fs.Reliable)
    {file : Path} {bytes : QByteArray} (readable : fs.read file = some bytes)
    (status : checkRev env boxId fs (file.getLast?.getD []) = CheckStatus.downloadOk.toInt) :
    Content.collectContentFromFile env c fs file =
      ({ c with
          sourceDir := [type.dir]
          sourceList := (manifestEntries type (env.fromUtf8 bytes)).filter fun e =>
            !(trust env boxId fs e || fs.fileExists (env.station.installedPath type e))
          standartSourceFiles :=
            c.standartSourceFiles ++ manifestEntries type (env.fromUtf8 bytes) }, fs) := by
  obtain ⟨rfl, isLocal, rfl, -, -⟩ := lc
  unfold Content.collectContentFromFile
  cases kind : c.contentType with
  | music | advert =>
      simp only [status, if_true, reliable.openRead_eq, readable]
      refine (collectEntries_local (by exact isLocal) _).trans ?_
      simp [ContentType.dir]
  | revision => exact absurd kind media

end LocalContent

end Local

end MediaUpdater
