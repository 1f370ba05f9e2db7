import MediaUpdater.Download.Ftp

/-!
# `DownloadManager`

`State` is everything the handlers of `DownloadManager` and `UpdateController`
read and write: the disk, the members of the two objects, the pending calls of
`nextDownload`, and the signals of the current reply that wait in Qt's event
queue.  Each handler is a function on `State`, with the statements of the source
in their order.

Four fields are not in the source.  `log` records what a pass does, newest first;
`replies` numbers the replies; `sizeEnds` counts how often the size phase of the
current stage has scheduled `nextDownload`; `crashed` says that a handler
dereferenced a null pointer.  No handler reads them.

The objects of a reply that was replaced are gone, but its queued signals are
still delivered; each carries the number of the reply that emitted it.
-/

namespace MediaUpdater

open FileSystem CheckDownloadedContent

/-- A `QNetworkReply`. -/
structure Reply where
  id : ℕ
  /-- The file it was requested for. -/
  file : SContentInfo
  /-- What `readAll` will return. -/
  buffer : QByteArray := []
  /-- All bytes received so far. -/
  delivered : QByteArray := []
  /-- `error() != NoError`. -/
  error : Bool := false
  /-- `finished` has been emitted, the reply's last signal. -/
  finished : Bool := false
  /-- `abort()` has been called. -/
  aborted : Bool := false

/-- A queued signal of a reply. -/
inductive Signal where
  | readyRead
  | downloadProgress (cb tb : ℤ)
  | error
  | finished
  deriving DecidableEq, Repr

/-- What a pass does, as far as the specifications speak of it. -/
inductive Action where
  /-- `DownloadManager::start`. -/
  | start
  /-- `startContent`. -/
  | startContent
  /-- A line of the listing of a file. -/
  | listed (file : SContentInfo) (info : QUrlInfo)
  /-- The end of the listing of a file. -/
  | listFinished (file : SContentInfo) (failure : Option FtpFailure)
  /-- A reply is requested for a file. -/
  | request (id : ℕ) (file : SContentInfo)
  /-- Bytes of a reply are written to a file. -/
  | append (id : ℕ) (path : Path) (bytes : QByteArray)
  /-- `setTrust` while a signal of the reply `sender` is handled, with the staged
  file and what that reply has delivered. -/
  | setTrust (sender : ℕ) (file : SContentInfo) (staged delivered : Option QByteArray)
  /-- `setRev` while a signal of the reply `sender` is handled. -/
  | setRev (sender : ℕ) (file : SContentInfo) (status : CheckStatus)
  | abort (id : ℕ)
  /-- `setRevLocal`, with the disk before it. -/
  | setRevLocal (before : FileSystem)
  /-- `syncContent`, with the disk before and after. -/
  | syncContent (before after : FileSystem)
  | startTimer
  | nullDereference

/-- The state of the updater. -/
structure State where
  fs : FileSystem
  contentManager : ContentManager
  ftp : QFtp := {}
  /-- `QFtpCommand::idCounter`. -/
  idCounter : ℕ := 0
  /-- `mFtpTimer->isActive()`. -/
  ftpTimer : Bool := false
  ftpTimeout : Bool := false
  loginCommand : ℕ := 0
  ftpContentFiles : List SContentInfo := []
  contentFiles : List SContentInfo := []
  /-- `mCurrentContentFile`, `none` for the default object. -/
  currentContentFile : Option SContentInfo := none
  totalBytes : ℤ := 0
  lastBytes : ℤ := 0
  currentBytes : ℤ := 0
  revision : Bool := true
  /-- `mDownloadTimer->isActive()`. -/
  downloadTimer : Bool := false
  downloadTimeout : Bool := false
  fullDownloadBytes : Bool := false
  currentReply : Option Reply := none
  /-- The pending `QTimer::singleShot(0, this, &DownloadManager::nextDownload)`. -/
  scheduled : ℕ := 0
  /-- The queued signals, each with its sender. -/
  posted : List (ℕ × Signal) := []
  /-- `UpdateController::mUpdateTimer->isActive()`. -/
  updateTimer : Bool := false
  /-- The `singleShot` of the constructor of `UpdateController`. -/
  startScheduled : Bool := true
  /-- An account request is outstanding. -/
  accountPending : Bool := false
  replies : ℕ := 0
  sizeEnds : ℕ := 0
  crashed : Bool := false
  log : List Action := []

namespace DownloadManager

variable (env : Env) (s : State)

/-- A null pointer is dereferenced. -/
def crash : State := { s with crashed := true, log := .nullDereference :: s.log }

/-- `emit startTimer()`, connected to `UpdateController::startTimer`. -/
def startTimer : State := { s with updateTimer := true, log := .startTimer :: s.log }

/-- `QTimer::singleShot(0, this, &DownloadManager::nextDownload)`. -/
def scheduleNextDownload : State := { s with scheduled := s.scheduled + 1 }

/-- `mFtp`'s `addCommand`. -/
def addFtpCommand (command : FtpCommand) : State :=
  { s with ftp := s.ftp.addCommand s.idCounter command, idCounter := s.idCounter + 1 }

/-! ### The size phase -/

/-- The recursion of `nextFtpFile` and `getFileSize` over the remaining files: a
file without a server path is passed over. -/
def nextFtpFileOf : List SContentInfo → State → State
  | [], s =>
      { addFtpCommand s .close with
        ftpContentFiles := [], scheduled := s.scheduled + 1, sizeEnds := s.sizeEnds + 1 }
  | file :: rest, s =>
      let s' := { s with currentContentFile := some file, ftpContentFiles := rest }
      if file.serverPath = [] then nextFtpFileOf rest s'
      else { addFtpCommand s' (.list file) with ftpTimeout := false, ftpTimer := true }

/-- `nextFtpFile`. -/
def nextFtpFile : State := nextFtpFileOf s.ftpContentFiles s

/-- The body of the `if` in `listInfo`: the current file joins the queue with the
size of the line. -/
def appendListed (size : ℤ) : State :=
  match s.currentContentFile with
  | none => s
  | some file =>
      { s with
        totalBytes := qint64 (s.totalBytes + size)
        currentContentFile := some (file.setSize size)
        contentFiles := s.contentFiles ++ [file.setSize size]
        contentManager := s.contentManager.appendSize size }

/-- `listInfo`. -/
def listInfo (info : QUrlInfo) : State :=
  let s' := { s with ftpTimer := false }
  if s.ftpTimeout then s'
  else nextFtpFile (if info.isRegularFile then appendListed s' info.size else s')

/-- `ftpCommandFinished`. -/
def ftpCommandFinished (id : ℕ) (error : Bool) : State :=
  if s.ftpTimeout then s
  else if error then
    let s' := { s with ftpTimer := false }
    if s.ftp.error = .unknownError ∨ s.ftp.error = .noError then nextFtpFile s'
    else startTimer s'
  else if s.ftp.state = .loggedIn ∧ s.loginCommand = id then
    nextFtpFile { s with ftpTimer := false }
  else s

/-- `ftpTimeout`, when `mFtpTimer` fires. -/
def ftpTimedOut : State :=
  startTimer (addFtpCommand { s with ftpTimer := false, ftpTimeout := true } .close)

/-- `connectToFtp`. -/
def connectToFtp : Bool × State :=
  let info := s.contentManager.loginInfo
  if info.host = [] ∨ info.login = [] ∨ info.password = [] then (false, s)
  else
    let s' := addFtpCommand { s with ftpTimeout := false, ftpTimer := true } .connectToHost
    (true, { addFtpCommand s' .login with loginCommand := s'.idCounter })

/-- `getTotalSize`. -/
def getTotalSize : State :=
  let files := s.contentManager.contentFiles
  let s' := { s with ftp := {}, ftpContentFiles := files, sizeEnds := 0 }
  if files = [] then { scheduleNextDownload s' with sizeEnds := 1 }
  else
    let connected := connectToFtp { s' with
      totalBytes := 0
      lastBytes := 0
      currentBytes := 0
      contentManager := s.contentManager.setTotalSize 0 }
    if connected.1 then connected.2 else startTimer connected.2

/-! ### The stages -/

/-- `setLoginInfo` and `start`. -/
def start (info : LoginInfo) : State :=
  let added := (s.contentManager.setLoginInfo info).fullClear.addNetworkContent env s.fs .revision
  getTotalSize { s with
    fs := added.2
    contentManager := added.1
    revision := true
    contentFiles := []
    log := .start :: s.log }

/-- `startContent`. -/
def startContent : State :=
  let advert := s.contentManager.clear.addNetworkContent env s.fs .advert
  let music := advert.1.addNetworkContent env advert.2 .music
  getTotalSize { s with
    fs := music.2
    contentManager := music.1
    revision := false
    contentFiles := []
    log := .startContent :: s.log }

/-- The test of the end of a pass: nothing is left to download and the server's
revision is new. -/
def commit : State :=
  let boxId := s.contentManager.loginInfo.boxId
  let checked := checkAllFiles env boxId s.fs s.contentManager.contentFiles
  if checked.1 && checked.2.checkRevision env boxId then
    { s with
      fs := checked.2.setRevLocal env boxId (checked.2.revServer env boxId)
      log := .setRevLocal checked.2 :: s.log }
  else { s with fs := checked.2 }

/-- The block at the end of a pass: commit, sync, `startTimer`. -/
def endPass : State :=
  let s' := commit env s
  let synced := s'.contentManager.syncContent env s'.fs
  startTimer { s' with
    contentManager := synced.1
    fs := synced.2.2
    log := .syncContent s'.fs synced.2.2 :: s'.log }

/-- The second half of `nextDownload`: the request for the next file. -/
def requestFile (file : SContentInfo) (rest : List SContentInfo) : State :=
  { s with
    contentFiles := rest
    currentContentFile := some file
    lastBytes := 0
    downloadTimeout := false
    fullDownloadBytes := false
    currentReply := some { id := s.replies, file := file }
    replies := s.replies + 1
    downloadTimer := true
    log := .request s.replies file :: s.log }

/-- `nextDownload`. -/
def nextDownload : State :=
  match s.contentFiles with
  | [] => if s.revision then startContent env s else endPass env s
  | file :: rest => requestFile s file rest

/-! ### The download of a file -/

/-- `saveDownloadedFile`. -/
def saveDownloadedFile : State :=
  let s' := { s with downloadTimer := false }
  match s.currentContentFile with
  | none => crash s'
  | some file =>
      let opened := s.fs.openAppend file.stagedPath
      let s'' := { s' with fs := opened.2 }
      if opened.1 then
        match s.currentReply with
        | none => crash s''
        | some reply =>
            let s''' := { s'' with
              currentReply := some { reply with buffer := [] }, downloadTimer := true }
            if reply.buffer = [] then s'''
            else { s''' with
              fs := opened.2.write file.stagedPath reply.buffer
              log := .append reply.id file.stagedPath reply.buffer :: s.log }
      else { s'' with downloadTimer := true }

/-- What the reply `sender` has delivered, as far as it is the current one. -/
def deliveredBy (sender : ℕ) : Option QByteArray :=
  s.currentReply.bind fun reply => if reply.id = sender then some reply.delivered else none

/-- `check.setTrust(mCurrentContentFile)`. -/
def setTrust (sender : ℕ) (file : SContentInfo) : State :=
  { s with
    fs := CheckDownloadedContent.setTrust env s.contentManager.loginInfo.boxId s.fs file.toEntry
    log := .setTrust sender file (s.fs.read file.stagedPath) (deliveredBy s sender) :: s.log }

/-- `check.setRev(mCurrentContentFile, status)`. -/
def setRev (sender : ℕ) (file : SContentInfo) (status : CheckStatus) : State :=
  { s with
    fs := CheckDownloadedContent.setRev env s.contentManager.loginInfo.boxId s.fs
      file.fileName status
    log := .setRev sender file status :: s.log }

/-- The verdict of `downloadFinished`, given the two tests it starts with. -/
def verdict (sender : ℕ) (file : SContentInfo) (ok present : Bool) : State :=
  let s' :=
    if ok then
      if s.revision then setRev env s sender file .downloadOk else setTrust env s sender file
    else if s.revision then setRev env s sender file .downloadFail else s
  if present && !s.revision && s.fullDownloadBytes then setTrust env s' sender file else s'

/-- `downloadFinished`.  `mCurrentReply` is dereferenced only when the file exists and
there was no timeout. -/
def downloadFinished (sender : ℕ) : State :=
  let s' := { s with downloadTimer := false }
  match s.currentContentFile with
  | none => crash s'
  | some file =>
      let present := s.fs.fileExists file.stagedPath
      let ok :=
        if present && !s.downloadTimeout then s.currentReply.map fun reply => !reply.error
        else some false
      match ok with
      | none => crash s'
      | some ok =>
          scheduleNextDownload { verdict env s' sender file ok present with currentReply := none }

/-- `downloadProgress`. -/
def downloadProgress (cb tb : ℤ) : State :=
  let s' := { s with downloadTimer := true }
  if s.revision then s'
  else
    let s'' :=
      { s' with currentBytes := qint64 (s.currentBytes + (cb - s.lastBytes)), lastBytes := cb }
    let complete : Bool := cb ≥ tb && cb > 0 && tb ≠ -1
    match s.currentContentFile with
    | none => if complete then crash s'' else s''
    | some file =>
        { s'' with
          fullDownloadBytes :=
            s.fullDownloadBytes || (complete && (s.fs.size file.stagedPath : ℤ) = cb)
          currentContentFile := some (file.setSizeCurrent cb) }

/-- `replyError`. -/
def replyError : State := { s with downloadTimer := false }

/-- `downloadTimeout`, when `mDownloadTimer` fires. -/
def downloadTimedOut : State :=
  let s' := { s with downloadTimer := false }
  match s.currentReply with
  | none => crash s'
  | some reply =>
      if reply.buffer ≠ [] then saveDownloadedFile s'
      else { s' with
        downloadTimeout := true
        currentReply := some { reply with aborted := true }
        log := .abort reply.id :: s.log }

end DownloadManager

end MediaUpdater
