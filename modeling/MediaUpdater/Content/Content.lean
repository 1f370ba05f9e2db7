import MediaUpdater.Content.CheckDownloaded

/-!
# `Content`

A `Content` collects the files of one content type.  The *network* contents list
what is still to be downloaded: the five control files, or the entries of a
manifest that are neither trusted nor installed.  The *local* contents list what
lies in the staging area and is trusted, which is what a sync installs.

`collectEntries` is the loop of `collectContentFromFile` that both manifests
share; its test `checkExistFile` has the side effects of `checkFile`, so the loop
threads the disk.
-/

namespace MediaUpdater

open FileSystem CheckDownloadedContent

/-- `Content`.  The entries of the two lists carry `this` as their content, so
only their names are kept (`Content.ref` supplies the pointer). -/
structure Content where
  contentType : ContentType
  isLocal : Bool
  boxId : QString
  sourceList : List Entry := []
  standartSourceFiles : List Entry := []
  /-- `mDest`. -/
  destination : Path
  sourceDir : Path := []
  deriving DecidableEq

/-! ### Manifests -/

/-- The lines of the advertising manifest: the text before the first `;`, empty
names skipped. -/
def advertEntries (text : QString) : List Entry :=
  (((text.splitOn '\n').map (firstSection ';')).filter (· ≠ [])).map
    fun fileName => ⟨Station.advertDir, fileName⟩

/-- The lines of the music manifest: the channel directory before the first `=`,
the file name after the last `/`, empty lines skipped. -/
def musicEntries (text : QString) : List Entry :=
  ((text.splitOn '\n').filter (· ≠ [])).map
    fun ch => ⟨firstSection '=' ch, lastSection '/' ch⟩

/-- The manifest's entries by content type. -/
def manifestEntries : ContentType → QString → List Entry
  | .music => musicEntries
  | .advert => advertEntries
  | .revision => fun _ => []

/-- Where the manifest of a content type is staged. -/
def Station.manifestFile (st : Station) (boxId : QString) : ContentType → Path
  | .music => st.chanelsFile boxId
  | .advert => st.adverttableFile boxId
  | .revision => []

/-- The directory below which the installed files of a content type lie;
`checkExistFile` never looks for a control file there. -/
def Station.installedDir (st : Station) : ContentType → Path
  | .music => st.media ++ [Station.musicDir]
  | .advert => st.media
  | .revision => st.media ++ [str "%1"]

/-- `media() + localDir + dir + "/" + file`. -/
def Station.installedPath (st : Station) (type : ContentType) (entry : Entry) : Path :=
  ((st.installedDir type).child entry.dirName).child entry.fileName

namespace Content

variable (env : Env)

/-- `this`, as the entries of the content see it. -/
def ref (c : Content) : ContentRef := ⟨c.contentType, c.destination, c.isLocal⟩

/-- `Content::appendInfo` to the source list. -/
def appendInfo (c : Content) (entry : Entry) : Content :=
  { c with sourceList := c.sourceList ++ [entry] }

/-- `Content::appendInfo` to the list of all files. -/
def appendStandart (c : Content) (entry : Entry) : Content :=
  { c with standartSourceFiles := c.standartSourceFiles ++ [entry] }

/-- `Content::checkExistFile`. -/
def checkExistFile (c : Content) (fs : FileSystem) (entry : Entry) : Bool × FileSystem :=
  let checked := checkFile env c.boxId fs entry c.ref
  (checked.1 || checked.2.fileExists (env.station.installedPath c.contentType entry), checked.2)

/-- The loop of `collectContentFromFile` over the entries of a manifest. -/
def collectEntries : Content → FileSystem → List Entry → Content × FileSystem
  | c, fs, [] => (c, fs)
  | c, fs, entry :: rest =>
      let existing := checkExistFile env c fs entry
      let c' := c.appendStandart entry
      collectEntries (if existing.1 then c' else c'.appendInfo entry) existing.2 rest

/-- `Content::collectContentFromFile`.  The manifest is read only when its status
is `DOWNLOAD_OK`; a manifest that cannot be opened leaves the lists empty. -/
def collectContentFromFile (c : Content) (fs : FileSystem) (file : Path) :
    Content × FileSystem :=
  let cleared := { c with sourceList := [] }
  match c.contentType with
  | .revision => ({ cleared with destination := [] }, fs)
  | type =>
      let c' := { cleared with
        sourceDir := [if type = .advert then Station.advertDir else Station.musicDir] }
      if checkRev env c.boxId fs (file.getLast?.getD []) = CheckStatus.downloadOk.toInt then
        let opened := fs.openRead file
        match opened.1 with
        | some bytes =>
            collectEntries env c' opened.2 (manifestEntries type (env.fromUtf8 bytes))
        | none => (c', opened.2)
      else (c', fs)

/-- `Content::filesFromDirWithCheck`, for the local contents that call it. -/
def filesFromDirWithCheck (c : Content) (fs : FileSystem) (dir : Path) : List Entry :=
  ((fs.entryFiles dir).map fun fileName => ⟨dir.getLast?.getD [], fileName⟩).filter
    fun entry => (checkFile env c.boxId fs entry c.ref).1

/-- `Content::filesFromDir`. -/
def filesFromDir (fs : FileSystem) (dir : Path) : List Entry :=
  (fs.entryFiles dir).map fun fileName => ⟨dir.getLast?.getD [], fileName⟩

/-- `Content::collectContentFromPathWithCheck`. -/
def collectContentFromPathWithCheck (c : Content) (fs : FileSystem) (path : Path) : Content :=
  { c with
    sourceList := c.sourceList ++ (fs.entryDirs path).flatMap fun dir =>
      filesFromDirWithCheck env c fs (path ++ [dir]) }

/-- `Content::collectContentFromPath`. -/
def collectContentFromPath (c : Content) (fs : FileSystem) (path : Path) : Content :=
  { c with
    sourceList := c.sourceList ++ (fs.entryDirs path).flatMap fun dir =>
      filesFromDir fs (path ++ [dir]) }

/-- `Content::collectContentFromDirWithCheck`. -/
def collectContentFromDirWithCheck (c : Content) (fs : FileSystem) (dir : Path) : Content :=
  { c with sourceList := c.sourceList ++ filesFromDirWithCheck env c fs dir }

/-- `Content::collectContentFromDir`. -/
def collectContentFromDir (c : Content) (fs : FileSystem) (dir : Path) : Content :=
  { c with sourceList := c.sourceList ++ filesFromDir fs dir }

/-- The control files of the player, which both revision contents list. -/
def playerControlFiles : List Entry :=
  [⟨str "cron.d", str "adverttable"⟩, ⟨str "timetable", str "timetable"⟩,
    ⟨str "timetable", str "vtimetable"⟩]

/-- All control files of the server. -/
def controlFiles : List Entry :=
  [⟨str "command", str "command"⟩, ⟨str "chanels", str "chanels"⟩] ++ playerControlFiles

/-- `Content::setRevision`.  The network content wipes the directories of the
control files. -/
def setRevision (c : Content) (fs : FileSystem) : Content × FileSystem :=
  if c.isLocal then
    ({ c with
        sourceList := c.sourceList ++ playerControlFiles
        sourceDir := env.station.boxDir c.boxId
        destination := env.station.timetablePath }, fs)
  else
    ({ c with sourceList := c.sourceList ++ controlFiles, sourceDir := [c.boxId] },
      controlFiles.foldl (fun fs entry =>
        fs.removeRecursively (c.destination ++ [entry.dirName])) fs)

/-- `Content::Content`. -/
def new (fs : FileSystem) (type : ContentType) (boxId : QString) (isLocal : Bool) :
    Content × FileSystem :=
  let st := env.station
  let dest := if isLocal then st.media else st.boxDir boxId
  let c : Content :=
    { contentType := type, isLocal := isLocal, boxId := boxId, destination := dest }
  match type, isLocal with
  | .revision, _ => setRevision env c fs
  | .music, false =>
      let collected := collectContentFromFile env c fs (st.manifestFile boxId .music)
      ({ collected.1 with
          destination := collected.1.destination ++ [Station.musicDir] }, collected.2)
  | .advert, false => collectContentFromFile env c fs (st.manifestFile boxId .advert)
  | .music, true =>
      let c' := { c with
        sourceDir := st.boxDir boxId ++ [Station.musicDir]
        destination := st.media ++ [Station.musicDir] }
      (collectContentFromPathWithCheck env c' fs c'.sourceDir, fs)
  | .advert, true =>
      let c' := { c with
        sourceDir := st.boxDir boxId ++ [Station.advertDir]
        destination := st.media ++ [Station.advertDir] }
      (collectContentFromDirWithCheck env c' fs c'.sourceDir, fs)

end Content

end MediaUpdater
