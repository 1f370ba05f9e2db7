import MediaUpdater.Content.ControlRemoval
import MediaUpdater.Content.Queue
import MediaUpdater.Download.StageStep

/-!
# The removal of an installed control file

At the end of a pass the sync removes a control file of the player that is not staged and
has no status.  Both statements go back to the start of the pass, which wipes the directories
of the control files and with them the statuses; what the server has said about the file is
not asked again.  A file has no status when it was never queued, and it was never queued when
the size phase passed it over: `nextFtpFile` goes on after a line that is not a regular
file and after every failure with the code `UnknownError`, whatever the server had to say.

So the removal is justified exactly as far as the size phase passes a control file over for
the right reason, which is a condition on the answers of the server (`Definitive`).

## Main results

* `Followed.next` — what one event of the first stage makes of a control file: it is still to
  be listed, or it gets its status, or the server has said that it is not there.
* `removal_definitive` — a control file that a sync removes is missing on the server.
* `removal_definitive_fails` — the server is busy for a moment.
-/

namespace MediaUpdater

open Library DownloadManager FileSystem CheckDownloadedContent

variable {env : Env} {s t : State} {e : Event} {entry : Entry}

/-! ### The answers of the server -/

/-- The server has said that the file is not there: its `LIST` has ended with no such file,
or with success and without an entry. -/
def SaidAbsent (acts : List Action) (file : SContentInfo) : Prop :=
  .listFinished file (some .noSuchFile) ∈ acts ∨
    .listFinished file none ∈ acts ∧ ∀ info, .listed file info ∉ acts

/-- The events after which the size phase passes over the file that it asked for last. -/
def Event.passesOver : Event → Bool
  | ftpList info => !info.isRegularFile
  | ftpDone failure => failure.any fun f => f.error = .unknownError
  | _ => false

/-- The event ends the `LIST` of the file with no such file. -/
def Denies (s : State) (e : Event) (file : SContentInfo) : Prop :=
  e = .ftpDone (some .noSuchFile) ∧
    s.ftp.pending.head?.bind (fun running => running.2.listed?) = some file

instance (s : State) (e : Event) (file : SContentInfo) : Decidable (Denies s e file) :=
  inferInstanceAs (Decidable (_ ∧ _))

/-- The size phase of the first stage passes a control file of the player over only when the
server denies it. -/
def PassesRightly (s : State) (e : Event) : Prop :=
  s.phase = .sizing → s.revision = true → e.passesOver = true →
    ∀ file ∈ s.asked, file.toEntry ∈ Content.playerControlFiles → Denies s e file

instance (s : State) (e : Event) : Decidable (PassesRightly s e) :=
  inferInstanceAs (Decidable (_ → _ → _ → ∀ file ∈ s.asked, _))

/-- **The events of a run whose removals are justified.** -/
structure Definitive (env : Env) (s : State) (e : Event) : Prop where
  orderly : Orderly s e
  passes : PassesRightly s e
  /-- The manifests name pairs … -/
  pairs : StartsContent s e → ∀ type, type ≠ .revision →
    ∀ x ∈ stagedEntries env s.contentManager.loginInfo.boxId s.fs type, IsPair type x
  /-- … and not the file of the statuses. -/
  statuses : StartsContent s e → ⟨str "command", str "revstorage"⟩ ∉
    stagedEntries env s.contentManager.loginInfo.boxId s.fs .music
  /-- The sync can copy files. -/
  copies : EndsPass s e → s.fs.Copies

/-! ### A control file in the first stage -/

/-- The server has answered for a control file: it has a status, or is not there. -/
def Answered (env : Env) (s : State) (entry : Entry) : Prop :=
  checkRev env s.contentManager.loginInfo.boxId s.fs entry.fileName ≠ CheckStatus.default.toInt ∨
    ∃ file : SContentInfo, file.toEntry = entry ∧ .listFinished file (some .noSuchFile) ∈ passLog s

/-- What may be the state of a control file in the first stage. -/
inductive Followed (env : Env) (s : State) (entry : Entry) : Prop
  | unlisted {file : SContentInfo} (sizing : s.phase = .sizing)
      (mem : file ∈ s.asked.toList ++ s.ftpContentFiles) (is : file.toEntry = entry)
      (path : file.serverPath ≠ [])
  | due (due : Due env (· ≠ CheckStatus.default.toInt) s entry)
  | absent {file : SContentInfo} (is : file.toEntry = entry)
      (said : .listFinished file (some .noSuchFile) ∈ passLog s)

/-- When the queue has been worked off, the server has answered. -/
theorem Followed.answered (followed : Followed env s entry) (sized : s.phase ≠ .sizing)
    (empty : s.contentFiles = []) (idle : s.currentReply = none) : Answered env s entry := by
  cases followed with
  | unlisted sizing => exact absurd sizing sized
  | due due => exact .inl (due.status empty idle)
  | absent is said => exact .inr ⟨_, is, said⟩

/-- The size phase goes on to its next file. -/
theorem Followed.of_advances {file : SContentInfo} (passing : Passing s)
    (sizing : s.phase = .sizing)
    (advances : Advances s e t) (stage : s.revision = true) (rightly : PassesRightly s e)
    (control : entry ∈ Content.playerControlFiles)
    (mem : file ∈ s.asked.toList ++ s.ftpContentFiles)
    (is : file.toEntry = entry) (path : file.serverPath ≠ []) : Followed env t entry := by
  rcases List.mem_append.mp mem with last | later
  · -- the file was asked for last, so it is queued or passed over
    have asked : s.asked = some file := by simpa using last
    have denied (skips : e.passesOver = true) : Followed env t entry := by
      obtain ⟨event, running⟩ := rightly sizing stage skips file asked (is ▸ control)
      refine .absent is ?_
      rw [advances.passLog_eq]
      refine List.mem_append_left _ ?_
      cases pending : s.ftp.pending with
      | nil => simp [pending] at running
      | cons first queued =>
          have listed : first.2.listed? = some file := by simpa [pending] using running
          rw [event]
          simp [answerLog, answers, pending, listed]
    cases advances.cause with
    | line info pending =>
        obtain ⟨file', asked', current⟩ :=
          passing.asked sizing _ (by rw [pending]; exact List.mem_cons_self) rfl
        obtain rfl := Option.some.inj (asked.symm.trans asked')
        cases regular : info.isRegularFile with
        | false => exact denied (by simp [Event.passesOver, regular])
        | true =>
            have queued : file.setSize info.size ∈ t.contentFiles := by
              rw [advances.queue]
              simp [collectedBy, regular, current]
            exact .due (.queued queued is)
    | login none =>
        rw [none] at asked
        cases asked
    | failure unknown => exact denied (by simp [Event.passesOver, unknown])
  · -- the file is still to be listed
    rcases advances.next with ⟨-, empty⟩ | ⟨still, skipped, next, split, empty, asked, -⟩
    · exact absurd (empty file later) path
    · rw [split] at later
      rcases List.mem_append.mp later with passed | rest
      · exact absurd (empty file passed) path
      · refine .unlisted still ?_ is path
        rw [asked]
        simpa using rest

/-- **What one event of the first stage makes of a control file.** -/
theorem Followed.next (followed : Followed env s entry) (passing : Passing s)
    (stage : s.revision = true) (rightly : PassesRightly s e)
    (control : entry ∈ Content.playerControlFiles) (queue : t.phase = .sizing → t.ftp.pending ≠ [])
    (steps : StageStep env s e t) : Followed env t entry := by
  cases followed with
  | @unlisted file sizing mem is path =>
      -- there is no reply in the size phase
      have idle : s.currentReply = none := passing.phase.replying (by simp [sizing])
      cases steps with
      | aside only queue' =>
          have still : t.phase = .sizing := only.phase_eq.trans sizing
          have left : t.ftpContentFiles = s.ftpContentFiles := by rw [only.rest]
          refine .unlisted still ?_ is path
          rwa [asked_eq queue' (queue still), left]
      | asks _ advances =>
          exact .of_advances passing sizing advances stage rightly control mem is path
      | requests waiting =>
          rw [sizing] at waiting
          cases waiting
      | transfers downloading | judges downloading =>
          rw [downloading.replying] at idle
          cases idle
  | due due =>
      refine .due (due.next passing stage steps fun _ _ _ _ _ => ?_)
      split <;> decide
  | absent is said =>
      obtain ⟨acts, split, -⟩ := steps.passLog_eq
      exact .absent is (split ▸ List.mem_append_right acts said)

/-! ### The start of a pass -/

/-- Every control file has a place on the server. -/
theorem serverPath_ne_nil (info : LoginInfo) (content : Content) (named : entry.fileName ≠ []) :
    ContentManager.serverPath info content entry ≠ [] := by
  unfold ContentManager.serverPath
  split <;> simp [named]

/-- **The queue of the first stage** holds all control files. -/
theorem mem_contentFiles_revision (cm : ContentManager) (fs : FileSystem)
    (control : entry ∈ Content.controlFiles) :
    ∃ file ∈ (cm.fullClear.addNetworkContent env fs .revision).1.contentFiles,
      file.toEntry = entry ∧ file.serverPath ≠ [] := by
  have named : entry.fileName ≠ [] := by
    have all : ∀ x ∈ Content.controlFiles, x.fileName ≠ [] := by decide
    exact all entry control
  let content := (Content.new env fs .revision cm.loginInfo.boxId false).1
  have map : (cm.fullClear.addNetworkContent env fs .revision).1.contentFilesMap =
      ContentManager.insertInfos cm.loginInfo content ∅ Content.controlFiles := rfl
  refine ⟨ContentManager.contentInfo cm.loginInfo content entry,
    ContentManager.mem_contentFiles.mpr ⟨entry.fileName, ?_⟩, rfl, serverPath_ne_nil _ _ named⟩
  rw [map]
  refine ContentManager.lookup_insertInfos_of_mem control fun x mem name => ?_
  have names : (Content.controlFiles.map Entry.fileName).Nodup := by decide
  exact List.inj_on_of_nodup_map names mem control name

/-- **A pass starts with all control files to be listed.** -/
theorem followed_start (info : LoginInfo) (scheduled : s.scheduled = 0)
    (idle : s.currentReply = none)
    (going : (start env s info).phase ≠ .stopped) (control : entry ∈ Content.playerControlFiles) :
    Followed env (start env s info) entry := by
  have listed : entry ∈ Content.controlFiles := List.mem_append_right _ control
  obtain ⟨file, mem, is, path⟩ :=
    mem_contentFiles_revision (s.contentManager.setLoginInfo info) s.fs listed
  obtain ⟨u, made, manager, scheduled', idle'⟩ : ∃ u, start env s info = getTotalSize u ∧
      u.contentManager =
        ((s.contentManager.setLoginInfo info).fullClear.addNetworkContent env s.fs .revision).1 ∧
      u.scheduled = 0 ∧ u.currentReply = none := by
    unfold start
    exact ⟨_, rfl, rfl, scheduled, idle⟩
  rw [← manager] at mem
  rw [made] at going ⊢
  rcases getTotalSize_cases u with ⟨none, -⟩ | ⟨-, sizes⟩ | ⟨-, fails⟩
  · rw [none] at mem
    cases mem
  · rw [sizes] at going ⊢
    refine .unlisted (phase_eq_sizing ?_ scheduled' idle') (List.mem_append_right _ mem) is path
    by_contra starters
    exact going (phase_eq_stopped starters)
  · refine absurd (phase_eq_stopped ?_) going
    rw [fails]
    simp [State.starters]

/-! ### Whole runs -/

/-- **The invariant of a pass.**  In the first stage every control file of the player is
followed; in the second one the server has answered for all of them, and the sync will find
their statuses as they are, since the second stage is about other files. -/
structure Accounted (env : Env) (s : State) : Prop where
  first : s.revision = true → (s.phase = .sizing → s.ftp.pending ≠ []) →
    ∀ entry ∈ Content.playerControlFiles, Followed env s entry
  second : s.revision = false → (∀ entry ∈ Content.playerControlFiles, Answered env s entry) ∧
    ∀ info ∈ s.contentManager.contentFiles, Placed env s.contentManager.loginInfo.boxId info

/-- Outside a pass nothing is claimed. -/
def AccountedPass (env : Env) (s : State) : Prop := s.phase ≠ .stopped → Accounted env s

/-- The second stage leaves the answers alone. -/
theorem Answered.next (answered : Answered env s entry) (stage : s.revision = false)
    (steps : StageStep env s e t) : Answered env t entry := by
  rcases answered with status | ⟨file, is, said⟩
  · refine .inl ?_
    rwa [steps.manager_eq.2, steps.checkRev_eq stage]
  · obtain ⟨acts, split, -⟩ := steps.passLog_eq
    exact .inr ⟨file, is, split ▸ List.mem_append_right acts said⟩

/-- **The second stage starts with the answers of the first.** -/
theorem accounted_startContent
    (pairs : ∀ type, type ≠ .revision →
      ∀ x ∈ stagedEntries env s.contentManager.loginInfo.boxId s.fs type, IsPair type x)
    (statuses : ⟨str "command", str "revstorage"⟩ ∉
      stagedEntries env s.contentManager.loginInfo.boxId s.fs .music)
    (answered : ∀ entry ∈ Content.playerControlFiles, Answered env s entry) :
    Accounted env (startContent env s) := by
  obtain ⟨login, placed, adverts, tracks⟩ := s.contentManager.placed_stage pairs
  obtain ⟨fs, -, files, login', -⟩ := startContent_stage env s
  have box : (startContent env s).contentManager.loginInfo = s.contentManager.loginInfo :=
    login'.trans login
  refine ⟨fun stage => ?_, fun _ => ⟨fun entry control => ?_, fun info mem => ?_⟩⟩
  · rw [startContent_revision] at stage
    cases stage
  · rcases answered entry control with status | ⟨file, is, said⟩
    · refine .inl ?_
      rw [box, fs, tracks.checkRev_eq statuses,
        adverts.checkRev_eq (not_mem_stagedAdverts pairs (by decide))]
      exact status
    · obtain ⟨acts, split, -⟩ := startContent_passLog env s
      exact .inr ⟨file, is, split ▸ List.mem_append_right acts said⟩
  · rw [box]
    refine placed info ?_
    rwa [files] at mem

/-- The line or the end of a command that `nextFtpFile` answers needs a command. -/
theorem Advances.pending_ne_nil (advances : Advances s e t) (alive : s.crashed = false)
    (takes : step env s e = some t) : s.ftp.pending ≠ [] := by
  intro empty
  rw [step_eq_react alive] at takes
  cases advances.cause <;> simp [react, empty] at takes

/-- **The step lemma.** -/
theorem AccountedPass.next (accounted : AccountedPass env s) (passing : Passing s)
    (definitive : Definitive env s e) (takes : step env s e = some t)
    (passes : PassStep env s e t) :
    AccountedPass env t := by
  intro going
  rcases passes.stage_cases going with ⟨info, stopped, rfl⟩ | ⟨waiting, starts, rfl⟩ | ⟨one, steps⟩
  · have resting := passing.resting stopped
    refine ⟨fun _ _ entry control => ?_, fun stage => ?_⟩
    · exact followed_start info resting.scheduled resting.replying going control
    · rw [start_revision] at stage
      cases stage
  · have idle := passing.phase.replying (by simp [waiting])
    have answered (entry) (control : entry ∈ Content.playerControlFiles) :
      Answered env s entry := by
      have followed :=
        (accounted (by simp [waiting])).first starts.2.2 (by simp [waiting]) entry control
      exact followed.answered (by simp [waiting]) starts.2.1 idle
    exact accounted_startContent (definitive.pairs starts) (definitive.statuses starts) answered
  · obtain ⟨first, second⟩ := accounted one.before
    refine ⟨fun stage queue entry control => ?_, fun stage => ?_⟩
    · rw [one.revision] at stage
      refine (first stage ?_ entry control).next passing stage definitive.passes control queue steps
      intro sizing
      cases steps with
      | aside only queue' =>
          have left := queue (only.phase_eq.trans sizing)
          rcases queue' with same | tail
          · rwa [same] at left
          · intro empty
            simp [tail, empty] at left
      | asks _ advances => exact advances.pending_ne_nil passing.alive takes
      | requests waiting => simp [sizing] at waiting
      | transfers downloading | judges downloading =>
          have idle := passing.phase.replying (by simp [sizing])
          rw [downloading.replying] at idle
          cases idle
    · rw [one.revision] at stage
      obtain ⟨answered, placed⟩ := second stage
      refine ⟨fun entry control => (answered entry control).next stage steps, fun info mem => ?_⟩
      rw [steps.manager_eq.2]
      exact placed info (steps.contentFiles_eq ▸ mem)

/-- The invariant holds in every state of a run whose passes are definitive. -/
theorem accounted_reachable (reached : Reachable (step env) (Definitive env) Initial s) :
    Passing s ∧ AccountedPass env s := by
  refine pass_invariant (fun _ _ definitive => definitive.orderly) (AccountedPass env)
    (fun fs going => ?_) (fun s e t passing _ accounted definitive takes passes =>
      accounted.next passing definitive takes passes) reached
  exact absurd (phase_boot fs) going

/-! ### The end of a pass -/

/-- The check of a file of the second stage touches pairs only. -/
theorem Placed.checkFile_frame {boxId : QString} {info : SContentInfo}
    (placed : Placed env boxId info) (fs : FileSystem) : ∃ type, type ≠ .revision ∧
      PairFrame env boxId type fs (checkFile env boxId fs info.toEntry info.content).2 := by
  obtain ⟨type, media, pair, content⟩ := placed
  have place : PairPlace env boxId type (info.content.filePath info.toEntry) :=
    .inr ⟨info.toEntry, .inl (by rw [content, filePath_networkRef media pair])⟩
  refine ⟨type, media, ?_⟩
  unfold checkFile
  simp only
  split
  · split
    · exact (PairFrame.remove place).trans (.removeSettings _)
    · exact .remove place
  · exact .refl fs

theorem checkAllFiles_kept {boxId : QString} (fs : FileSystem) {infos : List SContentInfo}
    (placed : ∀ info ∈ infos, Placed env boxId info) :
    (∀ name, checkRev env boxId (checkAllFiles env boxId fs infos).2 name =
      checkRev env boxId fs name) ∧
      (checkAllFiles env boxId fs infos).2.outcomes.copy = fs.outcomes.copy := by
  induction infos generalizing fs with
  | nil => exact ⟨fun _ => rfl, rfl⟩
  | cons info rest ih =>
      obtain ⟨type, media, frame⟩ := (placed info List.mem_cons_self).checkFile_frame fs
      rw [checkAllFiles]
      split
      · obtain ⟨status, copy⟩ := ih (checkFile env boxId fs info.toEntry info.content).2
          fun x mem => placed x (List.mem_cons_of_mem info mem)
        exact ⟨fun name => (status name).trans (frame.checkRev_eq media name),
          copy.trans frame.copy⟩
      · exact ⟨frame.checkRev_eq media, frame.copy⟩

theorem setRevLocal_frame {boxId : QString} {fs : FileSystem} (rev : ℤ) :
    Frame (· = env.station.localFile boxId) fs (fs.setRevLocal env boxId rev) :=
  .setSettingsValue (by rfl) _ _

/-- The commit leaves the statuses alone. -/
theorem commit_kept
    (placed : ∀ info ∈ s.contentManager.contentFiles,
    Placed env s.contentManager.loginInfo.boxId info) :
    (commit env s).contentManager = s.contentManager ∧
      (∀ name, checkRev env s.contentManager.loginInfo.boxId (commit env s).fs name =
        checkRev env s.contentManager.loginInfo.boxId s.fs name) ∧
      (commit env s).fs.outcomes.copy = s.fs.outcomes.copy := by
  obtain ⟨status, copy⟩ := checkAllFiles_kept s.fs placed
  have apart : env.station.revstorage s.contentManager.loginInfo.boxId ≠
      env.station.localFile s.contentManager.loginInfo.boxId := by
    simp [Station.revstorage, Station.localFile]
  unfold commit
  simp only
  split
  · refine ⟨rfl, fun name => ?_, copy⟩
    exact ((setRevLocal_frame _).checkRev apart name).trans (status name)
  · exact ⟨rfl, status, copy⟩

/-- The sync of a pass starts with what the commit has left. -/
theorem endPass_syncs (env : Env) (s : State) :
    let before := (commit env s).fs
    let after := ((commit env s).contentManager.syncContent env before).2.2
    ∃ acts, (endPass env s).log =
        (Action.startTimer :: Action.syncContent before after :: acts) ++ s.log ∧
      (acts = [] ∨ ∃ disk, acts = [.setRevLocal disk]) := by
  intro before after
  obtain ⟨fs, acts, committed, shape⟩ := commit_eq env s
  refine ⟨acts, ?_, shape⟩
  show Action.startTimer :: Action.syncContent before after :: (commit env s).log = _
  rw [committed]
  rfl

/-- The end of a pass syncs nothing else. -/
theorem eq_of_endPass_syncs {s u : State} (same : u.log = s.log) {before after : FileSystem}
    (emitted : Emits s (endPass env u) (.syncContent before after)) :
    before = (commit env u).fs ∧
      after = ((commit env u).contentManager.syncContent env before).2.2 := by
  obtain ⟨acts, logged, shape⟩ := endPass_syncs env u
  rw [same] at logged
  generalize (commit env u).fs = disk, (commit env u).contentManager = manager at logged ⊢
  have mem := mem_of_emits _ logged emitted
  have synced : Action.syncContent before after =
      .syncContent disk (manager.syncContent env disk).2.2 := by
    rcases shape with rfl | ⟨committed, rfl⟩ <;> simpa using mem
  cases synced
  exact ⟨rfl, rfl⟩

/-- **An installed control file is removed only when the server says it is gone**, in every
run whose answers are definitive. -/
theorem removal_definitive (reached : Reachable (step env) (Definitive env) Initial s)
    (definitive : Definitive env s e) (takes : step env s e = some t) {before after : FileSystem}
    (emitted : Emits s t (.syncContent before after)) (control : entry ∈ Content.playerControlFiles)
    (there : before.fileExists (env.station.installedControl entry) = true)
    (gone : after.fileExists (env.station.installedControl entry) = false) :
    ∃ file : SContentInfo, file.toEntry = entry ∧ SaidAbsent (passLog s) file := by
  obtain ⟨passing, accounted⟩ := accounted_reachable reached
  obtain ⟨passes, -⟩ := pass_step passing definitive.orderly takes
  obtain ⟨ends, state⟩ := passes.ends_of_emits emitted rfl rfl
  obtain ⟨answered, placed⟩ := (accounted (passing.going takes ends)).second ends.2.2
  let u : State := { s with scheduled := 0 }
  obtain ⟨manager, status, copy⟩ := commit_kept (s := u) placed
  rw [state] at emitted
  obtain ⟨disk, synced⟩ := eq_of_endPass_syncs (u := u) rfl emitted
  rw [disk] at there
  rw [synced, disk] at gone
  have default := (commit env u).contentManager.syncContent_removes
    (copy.trans (definitive.copies ends)) there gone
  rw [manager, status] at default
  rcases answered entry control with known | ⟨file, is, said⟩
  · exact absurd default known
  · exact ⟨file, is, .inl said⟩

/-! ### A timetable that the server does not have, and one that it does not list -/

/-- The answers about a control file. -/
def endings (acts : List Action) (entry : Entry) : List (Option FtpFailure) :=
  acts.filterMap fun
    | .listFinished file failure => if file.toEntry = entry then some failure else none
    | _ => none

theorem SaidAbsent.endings {acts : List Action} {file : SContentInfo}
    (said : SaidAbsent acts file) :
    some .noSuchFile ∈ endings acts file.toEntry ∨ none ∈ endings acts file.toEntry := by
  have answered (failure : Option FtpFailure) (mem : .listFinished file failure ∈ acts) :
      failure ∈ MediaUpdater.endings acts file.toEntry :=
    List.mem_filterMap.mpr ⟨_, mem, by simp⟩
  rcases said with noSuchFile | ⟨ended, -⟩
  · exact .inl (answered _ noSuchFile)
  · exact .inr (answered _ ended)

/-- The entry of the timetable. -/
def demoTimetable : Entry := ⟨str "timetable", str "timetable"⟩

/-- A disk on which a timetable is installed. -/
def FileSystem.demoInstalled : FileSystem :=
  blank.put (Env.demo.station.installedControl demoTimetable) (ascii "old")

/-- The first stage of a pass in which only the revision file is on the server, when the
`LIST` of the timetable ends with `failure`. -/
def toRevisionOnly (failure : FtpFailure) : List Event :=
  [.updateStart true, .accountReady (some .demo), .ftpState .loggedIn, .ftpDone none, .ftpDone none,
    .ftpDone (some .noSuchFile), .ftpDone (some .noSuchFile), .ftpList ⟨true, true, 10⟩,
    .ftpDone none, .ftpDone (some failure), .ftpDone (some .noSuchFile), .nextDownload,
    .netData (ascii "revision=5"), .deliver, .netFinished, .deliver]

/-- The sync at the end of the pass removes the timetable. -/
def State.removing (s : State) : Prop :=
  (s.crashed = false ∧ s.scheduled = 1 ∧ s.contentFiles = [] ∧ s.revision = false) ∧
    let before := (commit .demo { s with scheduled := 0 }).fs
    let manager := (commit .demo { s with scheduled := 0 }).contentManager
    before.fileExists (Env.demo.station.installedControl demoTimetable) = true ∧
      (manager.syncContent .demo before).2.2.fileExists
        (Env.demo.station.installedControl demoTimetable) = false

instance (s : State) : Decidable s.removing := inferInstanceAs (Decidable (_ ∧ _ ∧ _))

theorem State.removing.emits (removing : s.removing) :
    ∃ t before after, step .demo s .nextDownload = some t ∧ Emits s t (.syncContent before after) ∧
      before.fileExists (Env.demo.station.installedControl demoTimetable) = true ∧
      after.fileExists (Env.demo.station.installedControl demoTimetable) = false := by
  obtain ⟨⟨alive, scheduled, empty, second⟩, there, gone⟩ := removing
  obtain ⟨acts, logged, -⟩ := endPass_syncs .demo { s with scheduled := 0 }
  refine ⟨_, _, _, ?_, (emits_iff logged _).mpr (by simp), there, gone⟩
  rw [step_nextDownload alive scheduled, nextDownload_nil .demo { s with scheduled := 0 } empty]
  simp only [second]
  rfl

/-- The events of a stage whose answers are definitive. -/
def Undisputed (s : State) (e : Event) : Prop :=
  Orderly s e ∧ PassesRightly s e ∧ ¬ StartsContent s e ∧ ¬ EndsPass s e

instance (s : State) (e : Event) : Decidable (Undisputed s e) :=
  inferInstanceAs (Decidable (_ ∧ _ ∧ _ ∧ _))

theorem Undisputed.definitive (undisputed : Undisputed s e) : Definitive env s e :=
  ⟨undisputed.1, undisputed.2.1, fun starts => absurd starts undisputed.2.2.1,
    fun starts => absurd starts undisputed.2.2.1, fun ends => absurd ends undisputed.2.2.2⟩

/-- The server has no timetable, and the installed one goes. -/
theorem removal_definitive_demo :
    ∃ s t before after file, Reachable (step .demo) (Definitive .demo) Initial s ∧
      step .demo s .nextDownload = some t ∧ Emits s t (.syncContent before after) ∧
      before.fileExists (Env.demo.station.installedControl demoTimetable) = true ∧
      after.fileExists (Env.demo.station.installedControl demoTimetable) = false ∧
      SContentInfo.toEntry file = demoTimetable ∧ SaidAbsent (passLog s) file := by
  have plays : (execute (step .demo) Undisputed (State.boot .demoInstalled)
      (toRevisionOnly .noSuchFile)).map (fun s => decide ((s.crashed = false ∧ s.scheduled = 1 ∧
        s.revision = true ∧ s.contentManager.loginInfo = .demo ∧
        stagedEntries .demo (str "7") s.fs .music = [] ∧
        stagedEntries .demo (str "7") s.fs .advert = []) ∧
        (nextDownload .demo { s with scheduled := 0 }).removing)) = some true := by
    decide
  have copies : (execute (step .demo) Undisputed (State.boot .demoInstalled)
      (toRevisionOnly .noSuchFile)).map
        (fun s => (nextDownload .demo { s with scheduled := 0 }).fs.outcomes) = some .success := rfl
  obtain ⟨s, played, facts⟩ := Option.map_eq_some_iff.mp plays
  obtain ⟨⟨alive, scheduled, first, login, tracks, adverts⟩, removing⟩ := of_decide_eq_true facts
  rw [played, Option.map_some, Option.some.injEq] at copies
  let u := nextDownload .demo { s with scheduled := 0 }
  have before : Reachable (step .demo) (Definitive .demo) Initial s :=
    ⟨_, _, ⟨_, rfl⟩, (Run.of_execute played).mono fun _ _ undisputed => undisputed.definitive⟩
  -- no manifest has been downloaded
  have unread (type : ContentType) (media : type ≠ .revision) :
      stagedEntries .demo s.contentManager.loginInfo.boxId s.fs type = [] := by
    rw [login]
    cases type with
    | music => exact tracks
    | advert => exact adverts
    | revision => exact absurd rfl media
  have starts : Definitive .demo s .nextDownload := by
    refine ⟨trivial, fun _ _ skips => (by cases skips), fun _ type media x mem => ?_,
      fun _ mem => ?_, fun ends => ?_⟩
    · rw [unread type media] at mem
      cases mem
    · rw [unread .music (by simp)] at mem
      cases mem
    · exact absurd (first.symm.trans ends.2.2) (by simp)
  have reached : Reachable (step .demo) (Definitive .demo) Initial u :=
    before.next starts (step_nextDownload alive scheduled)
  have ends : Definitive .demo u .nextDownload := by
    refine ⟨trivial, fun _ _ skips => (by cases skips), fun starts => ?_, fun starts => ?_,
      fun _ => ?_⟩
    · exact absurd (starts.2.2.symm.trans removing.1.2.2.2) (by simp)
    · exact absurd (starts.2.2.symm.trans removing.1.2.2.2) (by simp)
    · rw [Copies, copies]
      rfl
  obtain ⟨t, disk, disk', takes', emitted, there, gone⟩ := removing.emits
  obtain ⟨file, is, said⟩ := removal_definitive reached ends takes' emitted (by decide) there gone
  exact ⟨u, t, disk, disk', file, reached, takes', emitted, there, gone, is, said⟩

/-- The server is busy when it is asked for the timetable, and the installed one goes. -/
theorem removal_definitive_fails :
    ∃ s t before after, Reachable (step .demo) Orderly Initial s ∧
      step .demo s .nextDownload = some t ∧ Emits s t (.syncContent before after) ∧
      before.fileExists (Env.demo.station.installedControl demoTimetable) = true ∧
      after.fileExists (Env.demo.station.installedControl demoTimetable) = false ∧
      ¬ ∃ file, SContentInfo.toEntry file = demoTimetable ∧ SaidAbsent (passLog s) file := by
  have plays : (execute (step .demo) Orderly (State.boot .demoInstalled)
      (toRevisionOnly .transientReply ++ [.nextDownload])).map (fun s => decide (s.removing ∧
        endings (passLog s) demoTimetable = [some .transientReply])) = some true := by
    decide
  obtain ⟨s, played, facts⟩ := Option.map_eq_some_iff.mp plays
  obtain ⟨removing, answers⟩ := of_decide_eq_true facts
  obtain ⟨t, before, after, takes, emitted, there, gone⟩ := removing.emits
  refine ⟨s, t, before, after, ⟨_, _, ⟨_, rfl⟩, .of_execute played⟩, takes, emitted, there,
    gone, ?_⟩
  rintro ⟨file, is, said⟩
  have answered := said.endings
  rw [is, answers] at answered
  simp at answered

end MediaUpdater
