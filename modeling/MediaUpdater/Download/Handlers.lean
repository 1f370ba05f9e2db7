import MediaUpdater.Download.System

/-!
# What the handlers can do

One specification for each handler of the download stage and of the size phase.
A specification writes the new state as an update of the old one, so every field
it does not name is unchanged; the disk and the log are described as far as the
invariants of the later modules need.

## Main results

* `saveDownloadedFile_eq`, `downloadFinished_eq`, `downloadProgress_eq` — the
  handlers of a reply, when there is a reply and a current file.
* `nextFtpFile_cases` — the size phase ends, or lists the next file that has a
  server path.
* `getTotalSize_cases` — a stage has nothing to download, or starts its size
  phase, or cannot connect.
* `endPass_eq` — the end of a pass touches the disk, the manager and the log only.
-/

namespace MediaUpdater

open FileSystem CheckDownloadedContent

/-- Two queue entries are about one file: they differ at most in their sizes. -/
structure SameFile (a b : SContentInfo) : Prop where
  toEntry : a.toEntry = b.toEntry
  content : a.content = b.content

namespace SameFile

variable {a b c : SContentInfo}

theorem refl (a : SContentInfo) : SameFile a a := ⟨rfl, rfl⟩

theorem trans (first : SameFile a b) (second : SameFile b c) : SameFile a c :=
  ⟨first.toEntry.trans second.toEntry, first.content.trans second.content⟩

theorem setSizeCurrent (a : SContentInfo) (n : ℤ) : SameFile (a.setSizeCurrent n) a := ⟨rfl, rfl⟩

theorem stagedPath (same : SameFile a b) : a.stagedPath = b.stagedPath := by
  rw [SContentInfo.stagedPath, SContentInfo.stagedPath, same.toEntry, same.content]

end SameFile

namespace Action

/-- The verdicts that are written for `file` while a signal of `sender` is
handled. -/
inductive IsVerdict (sender : ℕ) (file : SContentInfo) : Action → Prop
  | setTrust (staged delivered : Option QByteArray) :
      IsVerdict sender file (.setTrust sender file staged delivered)
  | setRev (status : CheckStatus) : IsVerdict sender file (.setRev sender file status)

end Action

namespace DownloadManager

variable (env : Env) (s : State)

/-! ### The download of a file -/

section Reply

variable {file : SContentInfo} {reply : Reply}

/-- `saveDownloadedFile` with a reply: at most one write, of what was buffered, to
the staging path of the current file.  The timer runs afterwards. -/
theorem saveDownloadedFile_eq (current : s.currentContentFile = some file)
    (replying : s.currentReply = some reply) :
    ∃ fs buffer acts, saveDownloadedFile s =
        { s with
          fs := fs
          currentReply := some { reply with buffer := buffer }
          downloadTimer := true
          log := acts ++ s.log } ∧
      (acts = [] ∨ acts = [.append reply.id file.stagedPath reply.buffer]) := by
  cases s
  cases current
  cases replying
  simp only [saveDownloadedFile]
  split
  · split
    · exact ⟨_, [], [], rfl, .inl rfl⟩
    · exact ⟨_, [], [.append reply.id file.stagedPath reply.buffer], rfl, .inr rfl⟩
  · exact ⟨_, reply.buffer, [], rfl, .inl rfl⟩

/-- The verdict of a download touches the disk and the log. -/
theorem verdict_eq (sender : ℕ) (file : SContentInfo) (ok present : Bool) :
    ∃ fs acts, verdict env s sender file ok present =
        { s with fs := fs, log := acts ++ s.log } ∧
      ∀ a ∈ acts, a.IsVerdict sender file := by
  have first : ∃ fs acts,
      (if ok then
        if s.revision then setRev env s sender file .downloadOk else setTrust env s sender file
      else if s.revision then setRev env s sender file .downloadFail else s) =
        { s with fs := fs, log := acts ++ s.log } ∧
      ∀ a ∈ acts, a.IsVerdict sender file := by
    split
    · split
      · exact ⟨_, [.setRev sender file .downloadOk], rfl, by simpa using .setRev _⟩
      · exact ⟨_, [.setTrust sender file _ _], rfl, by simpa using .setTrust _ _⟩
    · split
      · exact ⟨_, [.setRev sender file .downloadFail], rfl, by simpa using .setRev _⟩
      · exact ⟨s.fs, [], rfl, by simp⟩
  obtain ⟨fs, acts, judged, verdicts⟩ := first
  unfold verdict
  rw [judged]
  simp only
  split
  · refine ⟨_, .setTrust sender file _ _ :: acts, rfl, ?_⟩
    rintro a (_ | ⟨_, mem⟩)
    · exact .setTrust _ _
    · exact verdicts a mem
  · exact ⟨fs, acts, rfl, verdicts⟩

/-- `downloadFinished` with a reply is the verdict on the current file, after which the
reply is given up and `nextDownload` is scheduled. -/
theorem downloadFinished_verdict (sender : ℕ) (current : s.currentContentFile = some file)
    (replying : s.currentReply = some reply) :
    downloadFinished env s sender =
      scheduleNextDownload { verdict env { s with downloadTimer := false } sender file
        (s.fs.fileExists file.stagedPath && !s.downloadTimeout && !reply.error)
        (s.fs.fileExists file.stagedPath) with currentReply := none } := by
  have ok : (if s.fs.fileExists file.stagedPath && !s.downloadTimeout then
      s.currentReply.map fun reply => !reply.error else some false) =
        some (s.fs.fileExists file.stagedPath && !s.downloadTimeout && !reply.error) := by
    cases s.fs.fileExists file.stagedPath && !s.downloadTimeout <;> simp [replying]
  unfold downloadFinished
  simp only [current, ok]

theorem downloadFinished_eq (sender : ℕ) (current : s.currentContentFile = some file)
    (replying : s.currentReply = some reply) :
    ∃ fs acts, downloadFinished env s sender =
        { s with
          fs := fs
          currentReply := none
          downloadTimer := false
          scheduled := s.scheduled + 1
          log := acts ++ s.log } ∧
      ∀ a ∈ acts, a.IsVerdict sender file := by
  obtain ⟨fs, acts, judged, verdicts⟩ :=
    verdict_eq env { s with downloadTimer := false } sender file
      (s.fs.fileExists file.stagedPath && !s.downloadTimeout && !reply.error)
      (s.fs.fileExists file.stagedPath)
  refine ⟨fs, acts, ?_, verdicts⟩
  rw [downloadFinished_verdict env s sender current replying, judged]
  rfl

/-- `downloadProgress` restarts the timer and counts. -/
theorem downloadProgress_eq (cb tb : ℤ) (current : s.currentContentFile = some file) :
    ∃ currentBytes lastBytes full file', downloadProgress s cb tb =
        { s with
          downloadTimer := true
          currentBytes := currentBytes
          lastBytes := lastBytes
          fullDownloadBytes := full
          currentContentFile := some file' } ∧
      SameFile file' file := by
  cases s
  cases current
  simp only [downloadProgress]
  split
  · exact ⟨_, _, _, file, rfl, .refl file⟩
  · exact ⟨_, _, _, _, rfl, .setSizeCurrent file cb⟩

/-- `downloadTimeout` with a reply: it saves what is buffered, or aborts the reply. -/
theorem downloadTimedOut_eq (replying : s.currentReply = some reply) :
    downloadTimedOut s =
      if reply.buffer ≠ [] then saveDownloadedFile { s with downloadTimer := false }
      else { s with
        downloadTimer := false
        downloadTimeout := true
        currentReply := some { reply with aborted := true }
        log := .abort reply.id :: s.log } := by
  cases s
  cases replying
  rfl

end Reply

/-! ### The size phase -/

theorem mem_answers {failure : Option FtpFailure} {command : FtpCommand} {a : Action}
    (mem : a ∈ answers failure command) : ∃ file, a = .listFinished file failure := by
  obtain ⟨file, -, rfl⟩ := List.mem_map.mp mem
  exact ⟨file, rfl⟩

/-- The file that is current after a list of files has been passed over. -/
def currentAfter (current : Option SContentInfo) (skipped : List SContentInfo) :
    Option SContentInfo := skipped.getLast?.or current

/-- **One step of the size phase.**  Either no file with a server path is left: the
connection is closed and `nextDownload` is scheduled.  Or the first such file is
listed. -/
theorem nextFtpFileOf_cases (files : List SContentInfo) :
    (∀ file ∈ files, file.serverPath = []) ∧
        nextFtpFileOf files s =
          { addFtpCommand s .close with
            currentContentFile := currentAfter s.currentContentFile files
            ftpContentFiles := []
            scheduled := s.scheduled + 1
            sizeEnds := s.sizeEnds + 1 } ∨
      ∃ skipped file rest, files = skipped ++ file :: rest ∧
        (∀ file ∈ skipped, file.serverPath = []) ∧ file.serverPath ≠ [] ∧
        nextFtpFileOf files s =
          { addFtpCommand s (.list file) with
            currentContentFile := some file
            ftpContentFiles := rest
            ftpTimeout := false
            ftpTimer := true } := by
  induction files generalizing s with
  | nil => exact .inl ⟨by simp, rfl⟩
  | cons file rest ih =>
      by_cases skip : file.serverPath = []
      · have unfolded : nextFtpFileOf (file :: rest) s =
            nextFtpFileOf rest
              { s with currentContentFile := some file, ftpContentFiles := rest } := by
          simp [nextFtpFileOf, skip]
        rw [unfolded]
        rcases ih { s with currentContentFile := some file, ftpContentFiles := rest } with
          ⟨empty, ends⟩ | ⟨skipped, next, left, split, empty, listed, lists⟩
        · refine .inl ⟨by simpa [skip] using empty, ?_⟩
          have last : currentAfter (some file) rest =
            currentAfter s.currentContentFile (file :: rest) := by
            cases rest with
            | nil => rfl
            | cons next tail =>
                rw [currentAfter, currentAfter, List.getLast?_cons_cons,
                  List.getLast?_eq_some_getLast (List.cons_ne_nil next tail)]
                rfl
          rw [ends, ← last]
          rfl
        · refine .inr ⟨file :: skipped, next, left, by simp [split], ?_, listed, ?_⟩
          · simpa [skip] using empty
          · rw [lists]
            simp [addFtpCommand]
      · refine .inr ⟨[], file, rest, rfl, by simp, skip, ?_⟩
        simp [nextFtpFileOf, skip, addFtpCommand]

/-- A listing line adds a file to the queue and to the sizes. -/
theorem appendListed_eq (size : ℤ) :
    ∃ totalBytes current files manager, appendListed s size =
      { s with
        totalBytes := totalBytes
        currentContentFile := current
        contentFiles := files
        contentManager := manager } := by
  unfold appendListed
  split
  · exact ⟨_, _, _, _, rfl⟩
  · exact ⟨_, _, _, _, rfl⟩

/-- After a timeout a listing line is ignored. -/
theorem listInfo_of_ftpTimeout (timedOut : s.ftpTimeout = true) (timer : s.ftpTimer = false)
    (info : QUrlInfo) : listInfo s info = s := by
  cases s
  cases timedOut
  cases timer
  rfl

/-- After a timeout the end of a command is ignored. -/
theorem commandFinished_of_ftpTimeout (timedOut : s.ftpTimeout = true) (id : ℕ)
    (failure : Option FtpFailure) :
    ∃ ftp, commandFinished s id failure = { s with ftp := ftp } := by
  cases failure with
  | none => exact ⟨s.ftp, if_pos timedOut⟩
  | some failure => exact ⟨s.ftp.fail failure.error, if_pos timedOut⟩

/-- The success of the login starts the listings, if the server agrees. -/
theorem commandFinished_login (heard : s.ftpTimeout = false) :
    commandFinished s s.loginCommand none =
      if s.ftp.state = .loggedIn then nextFtpFile { s with ftpTimer := false } else s := by
  rw [commandFinished, ftpCommandFinished, if_neg (by simp [heard]), if_neg Bool.false_ne_true]
  simp only [and_true]

/-- The success of any other command is ignored. -/
theorem commandFinished_success {id : ℕ} (other : id ≠ s.loginCommand) :
    commandFinished s id none = s := by
  rw [commandFinished, ftpCommandFinished]
  have notLogin : ¬ (s.ftp.state = .loggedIn ∧ s.loginCommand = id) := fun both => other both.2.symm
  simp only [Bool.false_eq_true, if_false, if_neg notLogin, ite_self]

theorem ftpDone_success {id : ℕ} (other : id ≠ s.loginCommand) (command : FtpCommand) :
    ftpDone s none id command =
      { s with log := answers none command ++ s.log, ftp := s.ftp.removeFirst } := by
  rw [ftpDone, commandFinished_success { s with log := answers none command ++ s.log } other]

/-- A failure is passed over when its code is `UnknownError`, and ends the pass
otherwise. -/
theorem commandFinished_failure (heard : s.ftpTimeout = false) (id : ℕ) (failure : FtpFailure) :
    commandFinished s id (some failure) =
      if failure.error = .unknownError then
        nextFtpFile { s with ftp := s.ftp.fail failure.error, ftpTimer := false }
      else startTimer { s with ftp := s.ftp.fail failure.error, ftpTimer := false } := by
  have coded : (failure.error = .unknownError ∨ failure.error = .noError) ↔
      failure.error = .unknownError := by
    cases failure <;> decide
  rw [commandFinished, ftpCommandFinished, if_neg (by simp [heard]), if_pos rfl]
  simp only [QFtp.error_fail, coded]

/-- `connectToFtp` queues the two commands of a login, unless the login data are
incomplete. -/
theorem connectToFtp_cases :
    connectToFtp s = (false, s) ∨
      connectToFtp s =
        (true, { s with
          ftp := (s.ftp.addCommand s.idCounter .connectToHost).addCommand (s.idCounter + 1) .login
          idCounter := s.idCounter + 2
          ftpTimeout := false
          ftpTimer := true
          loginCommand := s.idCounter + 1 }) := by
  unfold connectToFtp
  simp only
  split
  · exact .inl rfl
  · exact .inr rfl

/-- **The start of a stage.**  There is nothing to download and `nextDownload` is
scheduled, or the size phase starts, or there is no connection and the pass is
over. -/
theorem getTotalSize_cases :
    s.contentManager.contentFiles = [] ∧
        getTotalSize s =
          { s with
            ftp := {}
            ftpContentFiles := []
            scheduled := s.scheduled + 1
            sizeEnds := 1 } ∨
      s.contentManager.contentFiles ≠ [] ∧
        getTotalSize s =
          { s with
            ftp := { pending := [(s.idCounter, .connectToHost), (s.idCounter + 1, .login)] }
            idCounter := s.idCounter + 2
            ftpTimer := true
            ftpTimeout := false
            loginCommand := s.idCounter + 1
            ftpContentFiles := s.contentManager.contentFiles
            totalBytes := 0
            lastBytes := 0
            currentBytes := 0
            contentManager := s.contentManager.setTotalSize 0
            sizeEnds := 0 } ∨
      s.contentManager.contentFiles ≠ [] ∧
        getTotalSize s =
          { s with
            ftp := {}
            ftpContentFiles := s.contentManager.contentFiles
            totalBytes := 0
            lastBytes := 0
            currentBytes := 0
            contentManager := s.contentManager.setTotalSize 0
            sizeEnds := 0
            updateTimer := true
            log := .startTimer :: s.log } := by
  unfold getTotalSize
  by_cases empty : s.contentManager.contentFiles = []
  · exact .inl ⟨empty, by simp [empty, scheduleNextDownload]⟩
  · simp only [if_neg empty]
    rcases connectToFtp_cases { s with
        ftp := {}
        ftpContentFiles := s.contentManager.contentFiles
        sizeEnds := 0
        totalBytes := 0
        lastBytes := 0
        currentBytes := 0
        contentManager := s.contentManager.setTotalSize 0 } with failed | connected
    · refine .inr (.inr ⟨empty, ?_⟩)
      rw [failed]
      rfl
    · refine .inr (.inl ⟨empty, ?_⟩)
      rw [connected]
      rfl

/-- A stage logs its start and at most a failed connection. -/
theorem getTotalSize_log :
    (getTotalSize s).log = s.log ∨ (getTotalSize s).log = .startTimer :: s.log := by
  rcases getTotalSize_cases s with ⟨-, made⟩ | ⟨-, made⟩ | ⟨-, made⟩ <;> rw [made]
  · exact .inl rfl
  · exact .inl rfl
  · exact .inr rfl

theorem start_log (info : LoginInfo) : ∃ acts, (start env s info).log = acts ++ .start :: s.log :=
  (getTotalSize_log _).elim (fun logged => ⟨[], logged⟩) fun logged => ⟨[.startTimer], logged⟩

theorem startContent_log :
    (startContent env s).log = .startContent :: s.log ∨
      (startContent env s).log = .startTimer :: .startContent :: s.log :=
  getTotalSize_log _

/-! ### The end of a stage -/

theorem nextDownload_nil (empty : s.contentFiles = []) :
    nextDownload env s = if s.revision then startContent env s else endPass env s := by
  unfold nextDownload
  rw [empty]

theorem nextDownload_cons {file : SContentInfo} {rest : List SContentInfo}
    (left : s.contentFiles = file :: rest) : nextDownload env s = requestFile s file rest := by
  unfold nextDownload
  rw [left]

/-- The commit touches the disk and logs at most the new revision. -/
theorem commit_eq :
    ∃ fs acts, commit env s = { s with fs := fs, log := acts ++ s.log } ∧
      (acts = [] ∨ ∃ before, acts = [.setRevLocal before]) := by
  unfold commit
  simp only
  split
  · exact ⟨_, [.setRevLocal _], rfl, .inr ⟨_, rfl⟩⟩
  · exact ⟨_, [], rfl, .inl rfl⟩

/-- The end of a pass is one sync and one `startTimer`, after at most one commit. -/
theorem endPass_eq :
    ∃ fs manager before acts, endPass env s =
        { s with
          fs := fs
          contentManager := manager
          updateTimer := true
          log := .startTimer :: .syncContent before fs :: acts ++ s.log } ∧
      (acts = [] ∨ ∃ before, acts = [.setRevLocal before]) := by
  obtain ⟨fs, acts, committed, shape⟩ := commit_eq env s
  let synced := s.contentManager.syncContent env fs
  refine ⟨synced.2.2, synced.1, fs, acts, ?_, shape⟩
  simp only [endPass, committed, startTimer, synced, List.cons_append]

end DownloadManager

end MediaUpdater
