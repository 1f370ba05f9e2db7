import MediaUpdater.Station

/-!
# Content files

An `Entry` names a file by directory and file name, which is all a manifest or a
directory scan yields.  `SContentInfo` is what the download queue holds: the
entry with its place on the server and the content it belongs to.  The pointer
to the `Content` object is represented by the members the program reads through
it, `ContentRef`.
-/

namespace MediaUpdater

/-- `CONTENT_TYPE`, without the reports, which no network content carries. -/
inductive ContentType where
  | music
  | advert
  | revision
  deriving DecidableEq, Repr

/-- A directory and a file name. -/
structure Entry where
  dirName : QString
  fileName : QString
  deriving DecidableEq, Repr

/-- `CheckDownloadedContent::CHECK_STATUS`. -/
inductive CheckStatus where
  | default
  | downloadOk
  | downloadFail
  deriving DecidableEq, Repr

/-- The value of the enumerator, as `QSettings` stores it. -/
def CheckStatus.toInt : CheckStatus → ℤ
  | default => 0
  | downloadOk => 1
  | downloadFail => 2

/-- What is read through `SContentInfo::content()`: `type()`,
`destinationSlash()` and `isLocal()`. -/
structure ContentRef where
  contentType : ContentType
  destination : Path
  isLocal : Bool
  deriving DecidableEq

/-- `QUrl`, as `generateUrlList` fills it in. -/
structure QUrl where
  scheme : QString
  host : QString
  path : QString
  port : ℤ
  userName : QString
  password : QString
  deriving DecidableEq

/-- `SContentInfo`. -/
structure SContentInfo extends Entry where
  serverPath : QString
  url : QUrl
  content : ContentRef
  size : ℤ := 0
  sizeCurrent : ℤ := 0
  deriving DecidableEq

/-- `content()->destinationSlash() + dirNameSlash() + fileName()`. -/
def ContentRef.filePath (content : ContentRef) (entry : Entry) : Path :=
  (content.destination.child entry.dirName).child entry.fileName

namespace SContentInfo

/-- The path a download of the file is appended to. -/
def stagedPath (info : SContentInfo) : Path := info.content.filePath info.toEntry

/-- `setSize`. -/
def setSize (info : SContentInfo) (size : ℤ) : SContentInfo := { info with size := size }

/-- `setSizeCurrent`. -/
def setSizeCurrent (info : SContentInfo) (size : ℤ) : SContentInfo :=
  { info with sizeCurrent := size }

variable (info : SContentInfo) (n : ℤ)

@[simp] theorem toEntry_setSize : (info.setSize n).toEntry = info.toEntry := rfl

@[simp] theorem content_setSize : (info.setSize n).content = info.content := rfl

@[simp] theorem serverPath_setSize : (info.setSize n).serverPath = info.serverPath := rfl

@[simp] theorem size_setSize : (info.setSize n).size = n := rfl

@[simp] theorem stagedPath_setSize : (info.setSize n).stagedPath = info.stagedPath := rfl

@[simp] theorem toEntry_setSizeCurrent : (info.setSizeCurrent n).toEntry = info.toEntry := rfl

@[simp] theorem content_setSizeCurrent : (info.setSizeCurrent n).content = info.content := rfl

@[simp] theorem stagedPath_setSizeCurrent :
    (info.setSizeCurrent n).stagedPath = info.stagedPath := rfl

end SContentInfo

end MediaUpdater
