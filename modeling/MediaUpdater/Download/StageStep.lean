import MediaUpdater.Content.Queue
import MediaUpdater.Download.PassStep

/-!
# One event within a stage

A pass has two stages, each with a size phase and its downloads.  `StageStep` is the part
of `PassStep` that stays within a stage, and this module says what it leaves alone: the map
of the manager, the login, and that a stage downloads nothing but the files that it was
started with.

## Main results

* `PassStep.stage_cases` — a step starts a pass, starts its second stage, or stays in a stage.
* `StageStep.stageFiles_sublist` — the files of a stage only become fewer.
* `StageStep.passLog_eq` — the log of the pass goes on.
-/

namespace MediaUpdater

open Library DownloadManager FileSystem

variable {env : Env} {s t : State} {e : Event} {reply : Reply}

/-! ### The files that are left -/

/-- A file of a stage: its names and the content that it belongs to. -/
structure StageFile where
  entry : Entry
  content : ContentRef

/-- Where the file is downloaded to. -/
def StageFile.path (file : StageFile) : Path := file.content.filePath file.entry

/-- The file of a queue entry. -/
def SContentInfo.stageFile (info : SContentInfo) : StageFile := ⟨info.toEntry, info.content⟩

/-- The files that the stage may still download. -/
def State.remaining (s : State) : List StageFile :=
  match s.phase with
  | .stopped => []
  | .sizing => (s.contentFiles ++ (s.asked.toList ++ s.ftpContentFiles)).map (·.stageFile)
  | _ => s.contentFiles.map (·.stageFile)

/-- Only outside the download stage is there more to come than the queue. -/
theorem Passing.remaining_eq (passing : Passing s)
    (busy : s.scheduled ≠ 0 ∨ s.currentReply ≠ none) :
    s.remaining = s.contentFiles.map (·.stageFile) := by
  obtain ⟨-, phase, -, -⟩ := passing
  unfold State.remaining
  generalize s.phase = kind at phase
  cases kind with
  | stopped =>
      have resting := (show Stopped s from phase).resting
      rcases busy with scheduled | replying
      · exact absurd resting.scheduled scheduled
      · exact absurd resting.replying replying
  | sizing =>
      have resting := (show Sizing s from phase).resting
      rcases busy with scheduled | replying
      · exact absurd resting.scheduled scheduled
      · exact absurd resting.replying replying
  | waiting | downloading => rfl

/-- The file that was asked for last stays so, as long as its `LIST` is queued. -/
theorem asked_eq (queue : t.ftp.pending = s.ftp.pending ∨ t.ftp.pending = s.ftp.pending.tail)
    (nonempty : t.ftp.pending ≠ []) : t.asked = s.asked := by
  rw [State.asked, State.asked]
  rcases queue with same | tail
  · rw [same]
  · rw [tail] at nonempty ⊢
    rw [List.getLast?_tail, if_neg]
    intro one
    obtain ⟨only, single⟩ := List.length_eq_one_iff.mp one
    exact nonempty (by rw [single, List.tail_cons])

/-- When only the queue of `QFtp` moves, no file is added. -/
theorem FtpOnly.remaining_sublist (only : FtpOnly s t)
    (queue : t.ftp.pending = s.ftp.pending ∨ t.ftp.pending = s.ftp.pending.tail) :
    t.remaining.Sublist s.remaining := by
  have asked : t.asked.toList.Sublist s.asked.toList := by
    by_cases empty : t.ftp.pending = []
    · rw [State.asked, empty]
      exact List.nil_sublist _
    · rw [asked_eq queue empty]
  have fields : t.contentFiles = s.contentFiles ∧ t.ftpContentFiles = s.ftpContentFiles := by
    rw [only.rest]
    exact ⟨rfl, rfl⟩
  rw [State.remaining, State.remaining, only.phase_eq, fields.1, fields.2]
  cases s.phase with
  | sizing => exact ((List.Sublist.refl _).append (asked.append (List.Sublist.refl _))).map _
  | stopped | waiting | downloading => exact List.Sublist.refl _

/-- The size phase only passes files over. -/
theorem Advances.remaining_sublist (passing : Passing s) (sizing : s.phase = .sizing)
    (advances : Advances s e t) : t.remaining.Sublist s.remaining := by
  have before : s.remaining =
      s.contentFiles.map (·.stageFile) ++
        (s.asked.toList.map (·.stageFile) ++ s.ftpContentFiles.map (·.stageFile)) := by
    simp [State.remaining, sizing]
  -- a line queues the file that was asked for last
  have collected : ((collectedBy s e).map (·.stageFile)).Sublist
      (s.asked.toList.map (·.stageFile)) := by
    cases advances.cause with
    | line info pending =>
        obtain ⟨file, asked, current⟩ :=
          passing.asked sizing _ (by rw [pending]; exact List.mem_cons_self)
          rfl
        simp only [collectedBy, asked, current]
        split
        · exact List.Sublist.refl _
        · exact List.nil_sublist _
    | login | failure => exact List.nil_sublist _
  rw [before]
  rcases advances.next with ⟨waiting, -⟩ | ⟨still, skipped, file, split, -, asked, -⟩
  · simp only [State.remaining, waiting, advances.queue, List.map_append]
    exact (List.Sublist.refl _).append (collected.trans (List.sublist_append_left _ _))
  · simp only [State.remaining, still, advances.queue, asked, split, List.map_append,
      List.append_assoc, Option.toList_some, List.map_cons, List.map_nil]
    refine (List.Sublist.refl _).append (collected.append ?_)
    exact List.sublist_append_right _ _

/-- The size phase goes on without a reply. -/
theorem Advances.replying (advances : Advances s e t) (passing' : Passing t) :
    t.currentReply = none := by
  refine passing'.phase.replying fun downloading => ?_
  rcases advances.next with ⟨waiting, -⟩ | ⟨still, -⟩
  · rw [downloading] at waiting
    cases waiting
  · rw [downloading] at still
    cases still

/-- The file that is requested next is the first of those that are left. -/
theorem Passing.remaining_cons (passing : Passing s) (waiting : s.phase = .waiting)
    {file : SContentInfo} {rest : List SContentInfo} (left : s.contentFiles = file :: rest)
    (passing' : Passing (requestFile { s with scheduled := 0 } file rest)) :
    s.remaining =
      file.stageFile :: (requestFile { s with scheduled := 0 } file rest).remaining := by
  have ready : Ready s := by
    have phase := passing.phase
    rwa [waiting] at phase
  rw [passing'.remaining_eq (.inr (by simp [requestFile])),
    passing.remaining_eq (.inl (by simp [ready.waiting.scheduled])), left]
  rfl

/-- A download leaves the other files alone. -/
theorem DownloadOnly.remaining_eq (only : DownloadOnly s t) (passing : Passing s)
    (passing' : Passing t) (downloading : Downloading s reply)
    (busy : t.scheduled ≠ 0 ∨ t.currentReply ≠ none) : t.remaining = s.remaining := by
  have queue : t.contentFiles = s.contentFiles := by rw [only]
  rw [passing'.remaining_eq busy, passing.remaining_eq (.inr (by simp [downloading.replying])),
    queue]

/-- The files that the stage downloads now or may still download. -/
def State.stageFiles (s : State) : List StageFile :=
  (s.currentReply.map fun reply => reply.file.stageFile).toList ++ s.remaining

/-- A pass that ends has not been over. -/
theorem Passing.going (passing : Passing s) (takes : step env s e = some t) (ends : EndsPass s e) :
    s.phase ≠ .stopped := by
  intro stopped
  rw [step_eq_react passing.alive, ends.1] at takes
  simp [react, (passing.resting stopped).scheduled] at takes

/-! ### The steps of a stage -/

/-- What the server answers: a line of the running `LIST`, or the end of one. -/
theorem answerLog_cases {a : Action} (mem : a ∈ answerLog s e) :
    (∃ file info, a = .listed file info ∧ e = .ftpList info ∧
        s.ftp.pending.head?.bind (fun running => running.2.listed?) = some file) ∨
      ∃ file failure, a = .listFinished file failure := by
  cases e with
  | ftpList info =>
      obtain ⟨file, running, rfl⟩ := List.mem_map.mp mem
      exact .inl ⟨file, info, rfl, rfl, by simpa using running⟩
  | ftpDone failure =>
      cases pending : s.ftp.pending with
      | nil => simp [answerLog, pending] at mem
      | cons running queued =>
          obtain ⟨file, rfl⟩ := mem_answers (by simpa [answerLog, pending] using mem)
          exact .inr ⟨file, failure, rfl⟩
  | _ => simp [answerLog] at mem

/-- The size phase logs what the server answers. -/
theorem Advances.passLog_eq (advances : Advances s e t) :
    passLog t = answerLog s e ++ passLog s := by
  refine passLog_append advances.log fun a mem => ?_
  rcases answerLog_cases mem with ⟨file, info, rfl, -⟩ | ⟨file, failure, rfl⟩ <;> rfl

/-- Both states belong to one stage of one pass. -/
structure OneStage (s t : State) : Prop where
  before : s.phase ≠ .stopped
  after : t.phase ≠ .stopped
  revision : t.revision = s.revision

/-- **What one event can do within a stage.** -/
inductive StageStep (env : Env) (s : State) (e : Event) (t : State) : Prop
  | aside (only : FtpOnly s t)
      (queue : t.ftp.pending = s.ftp.pending ∨ t.ftp.pending = s.ftp.pending.tail)
      (answers : ∃ acts, t.log = acts ++ s.log ∧ ∀ a ∈ acts, ∃ file, a = .listFinished file none)
  | asks (sizing : s.phase = .sizing) (advances : Advances s e t)
  | requests {file : SContentInfo} {rest : List SContentInfo} (waiting : s.phase = .waiting)
      (left : s.contentFiles = file :: rest)
      (state : t = requestFile { s with scheduled := 0 } file rest)
  | transfers {reply reply' : Reply} (downloading : Downloading s reply)
      (downloading' : Downloading t reply') (file : reply'.file = reply.file)
      (only : DownloadOnly s t)
      (transfer : Transfer s e t reply reply')
      (log : ∃ acts, t.log = acts ++ s.log ∧
      ∀ a ∈ acts, a.IsTransfer reply.id reply.file.stagedPath)
      (id : reply'.id = reply.id)
  | judges {reply : Reply} {file : SContentInfo} (downloading : Downloading s reply)
      (waiting : Waiting t) (event : e = .deliver) (posted : s.posted = [(reply.id, .finished)])
      (only : DownloadOnly s t) (same : SameFile file reply.file)
      (judged : Judged env s t reply file)

/-! ### The start of a stage -/

/-- `getTotalSize` touches neither the disk nor the files of the manager. -/
theorem getTotalSize_kept (s : State) :
    (getTotalSize s).fs = s.fs ∧ (getTotalSize s).currentReply = s.currentReply ∧
      (getTotalSize s).contentManager.contentFilesMap = s.contentManager.contentFilesMap ∧
      (getTotalSize s).contentManager.loginInfo = s.contentManager.loginInfo := by
  rcases getTotalSize_cases s with ⟨-, made⟩ | ⟨-, made⟩ | ⟨-, made⟩ <;> rw [made] <;>
    exact ⟨rfl, rfl, rfl, rfl⟩

/-- A stage has nothing to download but the files of its manager. -/
theorem getTotalSize_remaining (empty : s.contentFiles = []) :
    (getTotalSize s).remaining.Sublist (s.contentManager.contentFiles.map (·.stageFile)) := by
  rcases getTotalSize_cases s with ⟨none, made⟩ | ⟨-, made⟩ | ⟨-, made⟩ <;>
    rw [made, State.remaining]
  · split <;> simp [empty, none, State.asked]
  · split
    · exact List.nil_sublist _
    · simp [empty, State.asked, FtpCommand.listed?]
    · simp [empty]
  · split <;> simp [empty, State.asked]

/-- **What the second stage starts with**: the manager and the disk after both manifests have
been read, and nothing to download but the files of the manager. -/
theorem startContent_stage (env : Env) (s : State) :
    let advert := s.contentManager.clear.addNetworkContent env s.fs .advert
    let music := advert.1.addNetworkContent env advert.2 .music
    (startContent env s).fs = music.2 ∧ (startContent env s).currentReply = s.currentReply ∧
      (startContent env s).contentManager.contentFiles = music.1.contentFiles ∧
      (startContent env s).contentManager.loginInfo = music.1.loginInfo ∧
      (startContent env s).remaining.Sublist (music.1.contentFiles.map (·.stageFile)) := by
  intro advert music
  let u : State := { s with
    fs := music.2, contentManager := music.1, revision := false, contentFiles := []
    log := .startContent :: s.log }
  have made : startContent env s = getTotalSize u := rfl
  obtain ⟨fs, reply, map, login⟩ := getTotalSize_kept u
  rw [made]
  refine ⟨fs, reply, ?_, login, getTotalSize_remaining rfl⟩
  rw [ContentManager.contentFiles, map]
  rfl

theorem start_revision (env : Env) (s : State) (info : LoginInfo) :
    (start env s info).revision = true :=
  getTotalSize_revision _

theorem startContent_revision (env : Env) (s : State) : (startContent env s).revision = false :=
  getTotalSize_revision _

/-- A pass has nothing behind it when it starts. -/
theorem start_passLog (env : Env) (s : State) (info : LoginInfo) :
    ∀ a ∈ passLog (start env s info), a = .startTimer := by
  unfold start
  rcases getTotalSize_log _ with logged | logged <;> rw [passLog, logged] <;> simp [Action.isStart]

/-- The log of the pass goes on into the second stage, without a listing line. -/
theorem startContent_passLog (env : Env) (s : State) :
    ∃ acts, passLog (startContent env s) = acts ++ passLog s ∧ .startContent ∈ acts ∧
      ∀ file info, .listed file info ∉ acts := by
  rcases startContent_log env s with logged | logged
  · exact ⟨[.startContent], passLog_append logged (by simp [Action.isStart]), by simp, by simp⟩
  · exact ⟨[.startTimer, .startContent], passLog_append logged (by simp [Action.isStart]), by simp,
      by simp⟩

/-! ### The files of the second stage -/

/-- The files have names of their own and belong to network contents, so they are
downloaded to different places. -/
structure Planned (env : Env) (boxId : QString) (files : List StageFile) : Prop where
  names : (files.map fun file => file.entry.fileName).Nodup
  staged : ∀ file ∈ files, ∃ type : ContentType, type ≠ .revision ∧ IsPair type file.entry ∧
    file.content = networkRef env boxId type

namespace Planned

variable {boxId : QString} {files files' : List StageFile} {file other : StageFile}

theorem sublist (planned : Planned env boxId files) (less : files'.Sublist files) :
    Planned env boxId files' :=
  ⟨planned.names.sublist (less.map _), fun file mem => planned.staged file (less.subset mem)⟩

theorem path_eq (planned : Planned env boxId files) (mem : file ∈ files) :
    ∃ type, file.path = pairPath (env.station.boxDir boxId) type file.entry := by
  obtain ⟨type, media, pair, content⟩ := planned.staged file mem
  exact ⟨type, by rw [StageFile.path, content, filePath_networkRef media pair]⟩

/-- The staging path of a file ends with its name. -/
theorem getLast?_path (planned : Planned env boxId files) (mem : file ∈ files) :
    file.path.getLast? = some file.entry.fileName := by
  obtain ⟨type, place⟩ := planned.path_eq mem
  rw [place]
  cases type <;> simp [pairPath]

theorem path_ne_checkstorage (planned : Planned env boxId files) (mem : file ∈ files) :
    file.path ≠ env.station.checkstorage boxId := by
  obtain ⟨type, place⟩ := planned.path_eq mem
  rw [place]
  exact pairPath_ne_checkstorage env.station (.inl rfl)

/-- The other files are downloaded to other places. -/
theorem path_ne (planned : Planned env boxId (file :: files)) (mem : other ∈ files) :
    other.path ≠ file.path := by
  intro same
  have names := planned.names
  rw [List.map_cons, List.nodup_cons] at names
  refine names.1 (List.mem_map.mpr ⟨other, mem, ?_⟩)
  have last := planned.getLast?_path (List.mem_cons_of_mem file mem)
  rw [same, planned.getLast?_path List.mem_cons_self] at last
  exact (Option.some.inj last).symm

/-- The files of the stage are downloaded to the places of pairs. -/
theorem untouched (planned : Planned env boxId files) {p : Path}
    (storage : p ≠ env.station.checkstorage boxId)
    (away : ∀ type x, type ≠ .revision → pairPath (env.station.boxDir boxId) type x ≠ p) :
    ¬ (p = env.station.checkstorage boxId ∨ ∃ file ∈ files, p = file.path) := by
  rintro (same | ⟨file, mem, same⟩)
  · exact storage same
  · obtain ⟨type, media, pair, content⟩ := planned.staged file mem
    rw [StageFile.path, content, filePath_networkRef media pair] at same
    exact away type _ media same.symm

end Planned

/-- **The second stage is planned.** -/
theorem planned_startContent (idle : s.currentReply = none) (pairs : ∀ type, type ≠ .revision →
      ∀ x ∈ stagedEntries env s.contentManager.loginInfo.boxId s.fs type, IsPair type x) :
    Planned env s.contentManager.loginInfo.boxId (startContent env s).stageFiles := by
  obtain ⟨-, placed, -, -⟩ := s.contentManager.placed_stage pairs
  obtain ⟨-, reply, -, -, less⟩ := startContent_stage env s
  rw [State.stageFiles, reply, idle]
  refine Planned.sublist ⟨?_, fun file mem => ?_⟩ less
  · rw [List.map_map]
    exact ContentManager.contentFiles_nodup
      (((ContentManager.Keyed.clear _).addNetworkContent env _ _).addNetworkContent env _ _)
  · obtain ⟨info, queued, rfl⟩ := List.mem_map.mp mem
    exact placed info queued

/-! ### One event within a stage -/

/-- **What a step leads to that does not end the pass**: the start of a pass, the start of its
second stage, or another state of the same stage. -/
theorem PassStep.stage_cases (passes : PassStep env s e t) (going : t.phase ≠ .stopped) :
    (∃ info, s.phase = .stopped ∧ t = start env { s with accountPending := false } info) ∨
      (s.phase = .waiting ∧ StartsContent s e ∧ t = startContent env { s with scheduled := 0 }) ∨
      OneStage s t ∧ StageStep env s e t := by
  cases passes with
  | aside before only queue answers =>
      refine .inr (.inr ⟨⟨before, going, ?_⟩, .aside only queue answers⟩)
      rw [only.rest]
  | stopped stopped => exact absurd stopped going
  | starts info stopped event starts => exact .inl ⟨info, stopped, starts⟩
  | asks sizing advances =>
      exact .inr (.inr ⟨⟨by simp [sizing], going, advances.revision⟩, .asks sizing advances⟩)
  | content waiting starts state => exact .inr (.inl ⟨waiting, starts, state⟩)
  | ends waiting ends state => exact absurd (state ▸ phase_endPass env _) going
  | requests waiting event left state =>
      refine .inr (.inr ⟨⟨by simp [waiting], going, ?_⟩, .requests waiting left state⟩)
      rw [state]
      rfl
  | transfers busy downloading downloading' id file only transfer log =>
      refine .inr (.inr ⟨⟨by simp [busy], going, ?_⟩,
        .transfers downloading downloading' file only transfer log id⟩)
      rw [only]
  | judges busy downloading waiting event posted only same judged =>
      refine .inr (.inr ⟨⟨by simp [busy], going, ?_⟩,
        .judges downloading waiting event posted only same judged⟩)
      rw [only]

namespace StageStep

/-- The manager keeps its files and its login. -/
theorem manager_eq (steps : StageStep env s e t) :
    t.contentManager.contentFilesMap = s.contentManager.contentFilesMap ∧
      t.contentManager.loginInfo = s.contentManager.loginInfo := by
  cases steps with
  | aside only =>
      rw [only.rest]
      exact ⟨rfl, rfl⟩
  | asks _ advances => exact ⟨advances.filesMap, advances.login⟩
  | requests _ _ state =>
      rw [state]
      exact ⟨rfl, rfl⟩
  | transfers _ _ _ only | judges _ _ _ _ only =>
      rw [only]
      exact ⟨rfl, rfl⟩

theorem contentFiles_eq (steps : StageStep env s e t) :
    t.contentManager.contentFiles = s.contentManager.contentFiles := by
  rw [ContentManager.contentFiles, steps.manager_eq.1, ContentManager.contentFiles]

/-- **The files of a stage only become fewer.** -/
theorem stageFiles_sublist (steps : StageStep env s e t) (passing : Passing s)
    (passing' : Passing t) :
    t.stageFiles.Sublist s.stageFiles := by
  rw [State.stageFiles, State.stageFiles]
  cases steps with
  | aside only queue =>
      have replying : t.currentReply = s.currentReply := by rw [only.rest]
      rw [replying]
      exact (List.Sublist.refl _).append (only.remaining_sublist queue)
  | asks sizing advances =>
      rw [advances.replying passing']
      exact (advances.remaining_sublist passing sizing).trans (List.sublist_append_right _ _)
  | requests waiting left state =>
      subst state
      rw [passing.remaining_cons waiting left passing',
        passing.phase.replying (by simp [waiting])]
      exact List.Sublist.refl _
  | transfers downloading downloading' file only =>
      rw [only.remaining_eq passing passing' downloading (.inr (by simp [downloading'.replying])),
        downloading.replying, downloading'.replying]
      simp only [Option.map_some, file]
      exact List.Sublist.refl _
  | judges downloading waiting event posted only =>
      rw [only.remaining_eq passing passing' downloading (.inl (by simp [waiting.scheduled])),
        waiting.replying]
      exact List.sublist_append_right _ _

/-- **The log of the pass goes on**, and only a listing line of the size phase is logged as
one. -/
theorem passLog_eq (steps : StageStep env s e t) :
    ∃ acts, passLog t = acts ++ passLog s ∧ ∀ file info, .listed file info ∈ acts →
      s.phase = .sizing ∧ Advances s e t ∧ e = .ftpList info ∧
        s.ftp.pending.head?.bind (fun running => running.2.listed?) = some file := by
  cases steps with
  | aside _ _ answers =>
      obtain ⟨acts, logged, answers⟩ := answers
      refine ⟨acts, passLog_append logged fun a mem => ?_, fun file info mem => ?_⟩
      · obtain ⟨file, rfl⟩ := answers a mem
        rfl
      · obtain ⟨file', same⟩ := answers _ mem
        cases same
  | asks sizing advances =>
      refine ⟨_, advances.passLog_eq, fun file info mem => ?_⟩
      rcases answerLog_cases mem with ⟨file', info', same, is⟩ | ⟨file', failure, same⟩
      · cases same
        exact ⟨sizing, advances, is⟩
      · cases same
  | requests _ _ state =>
      rw [state]
      exact ⟨[.request _ _], passLog_append rfl (by simp [Action.isStart]), by simp⟩
  | transfers _ _ _ _ _ log =>
      obtain ⟨acts, logged, transfers⟩ := log
      refine ⟨acts, passLog_append logged fun a mem => ?_, fun file info mem => ?_⟩
      · cases transfers a mem <;> rfl
      · cases transfers _ mem
  | judges _ _ _ _ _ _ judged =>
      cases judged with
      | revision _ status _ _ log =>
          exact ⟨[.setRev _ _ status], passLog_append log (by simp [Action.isStart]), by simp⟩
      | content _ n _ log =>
          refine ⟨_, passLog_append log fun a mem => ?_, fun file info mem => ?_⟩
          · rw [(List.mem_replicate.mp mem).2]
            rfl
          · cases (List.mem_replicate.mp mem).2

end StageStep

/-! ### The disk in the second stage -/

/-- A verdict in the second stage touches `checkstorage` only. -/
theorem iterate_setTrust_frame {boxId : QString} {fs : FileSystem} (e : Entry) (n : ℕ) :
    Frame (· = env.station.checkstorage boxId) fs
      ((fun fs => CheckDownloadedContent.setTrust env boxId fs e)^[n] fs) := by
  induction n with
  | zero => exact .refl _ fs
  | succ n ih =>
      rw [Function.iterate_succ_apply']
      exact ih.trans (.setSettingsValue (by rfl) _ _)

namespace StageStep

variable (steps : StageStep env s e t) (second : s.revision = false)

include steps second

/-- The second stage writes to the staging paths of its files and to `checkstorage`. -/
theorem frame :
    Frame (fun p => p = env.station.checkstorage s.contentManager.loginInfo.boxId ∨
      ∃ file ∈ s.stageFiles, p = file.path) s.fs t.fs := by
  cases steps with
  | aside only =>
      have fs : t.fs = s.fs := by rw [only.rest]
      rw [fs]
      exact .refl _ s.fs
  | asks _ advances =>
      rw [advances.fs]
      exact .refl _ s.fs
  | requests _ _ state =>
      rw [state]
      exact .refl _ s.fs
  | @transfers reply _ downloading _ _ _ transfer =>
      refine transfer.frame.1.mono fun p place => .inr ⟨reply.file.stageFile, ?_, place⟩
      rw [State.stageFiles, downloading.replying]
      exact List.mem_cons_self
  | judges _ _ _ _ _ _ judged =>
      cases judged with
      | revision first => simp [second] at first
      | content _ n fs =>
          rw [fs]
          exact (iterate_setTrust_frame _ n).mono fun p place => .inl place

/-- The statuses of the control files stay. -/
theorem checkRev_eq (boxId name : QString) :
    CheckDownloadedContent.checkRev env boxId t.fs name =
      CheckDownloadedContent.checkRev env boxId s.fs name := by
  cases steps with
  | aside only => rw [only.rest]
  | asks _ advances => rw [advances.fs]
  | requests _ _ state =>
      rw [state]
      rfl
  | transfers _ _ _ _ transfer =>
      rw [CheckDownloadedContent.checkRev, FileSystem.settingsValue, transfer.frame.2]
      rfl
  | judges _ _ _ _ _ _ judged =>
      cases judged with
      | revision first => simp [second] at first
      | content _ n fs =>
          rw [fs]
          exact (iterate_setTrust_frame _ n).checkRev
            (CheckDownloadedContent.checkstorage_ne_revstorage env.station _ boxId).symm name

/-- The manifests stay. -/
theorem stagedEntries_eq {type : ContentType} (media : type ≠ .revision)
    (planned : Planned env s.contentManager.loginInfo.boxId s.stageFiles) :
    stagedEntries env s.contentManager.loginInfo.boxId t.fs type =
      stagedEntries env s.contentManager.loginInfo.boxId s.fs type := by
  have read : t.fs.read (env.station.manifestFile s.contentManager.loginInfo.boxId type) =
      s.fs.read (env.station.manifestFile s.contentManager.loginInfo.boxId type) := by
    rw [manifestFile_eq media]
    refine (steps.frame second).read _
      (planned.untouched (pairPath_ne_checkstorage env.station (.inl rfl)) ?_)
    intro type' x media'
    cases type <;> exact pairPath_ne_control env.station (.inl rfl) media' (by decide)
  simp only [stagedEntries, steps.checkRev_eq second, read]

/-- What is trusted stays trusted. -/
theorem trust_mono (entry : Entry)
    (trusted : CheckDownloadedContent.trust env s.contentManager.loginInfo.boxId s.fs entry =
      true) :
    CheckDownloadedContent.trust env s.contentManager.loginInfo.boxId t.fs entry = true := by
  cases steps with
  | aside only =>
      have fs : t.fs = s.fs := by rw [only.rest]
      rwa [fs]
  | asks _ advances => rwa [advances.fs]
  | requests _ _ state =>
      rw [state]
      exact trusted
  | transfers _ _ _ _ transfer =>
      rw [CheckDownloadedContent.trust, FileSystem.settingsValue, transfer.frame.2]
      exact trusted
  | judges _ _ _ _ _ _ judged =>
      cases judged with
      | revision first => simp [second] at first
      | content _ n fs =>
          rw [fs]
          refine Function.Iterate.rec (fun fs => CheckDownloadedContent.trust env
            s.contentManager.loginInfo.boxId fs entry = true) trusted (fun fs trusted => ?_) n
          rw [CheckDownloadedContent.trust_setTrust, trusted, Bool.or_true]

end StageStep

/-! ### The statuses of the first stage -/

/-- A control file is queued or being downloaded, or its status is one of `good`. -/
inductive Due (env : Env) (good : ℤ → Prop) (s : State) (entry : Entry) : Prop
  | queued {file : SContentInfo} (mem : file ∈ s.contentFiles) (is : file.toEntry = entry)
  | requested {reply : Reply} (replying : s.currentReply = some reply)
      (is : reply.file.toEntry = entry)
  | settled (good : good (CheckDownloadedContent.checkRev env s.contentManager.loginInfo.boxId s.fs
      entry.fileName))

namespace Due

variable {good : ℤ → Prop} {entry : Entry}

/-- When the queue has been worked off, the status is one of `good`. -/
theorem status (due : Due env good s entry) (empty : s.contentFiles = [])
    (idle : s.currentReply = none) :
    good (CheckDownloadedContent.checkRev env s.contentManager.loginInfo.boxId s.fs
      entry.fileName) := by
  cases due with
  | queued mem => simp [empty] at mem
  | requested replying => simp [idle] at replying
  | settled good => exact good

/-- **A file that is due stays due**, if the verdict on it is good. -/
theorem next (due : Due env good s entry) (passing : Passing s) (stage : s.revision = true)
    (steps : StageStep env s e t)
    (verdict : ∀ reply, s.currentReply = some reply → e = .deliver →
      s.posted = [(reply.id, .finished)] → reply.file.fileName = entry.fileName →
        good (if s.fs.fileExists reply.file.stagedPath && !s.downloadTimeout && !reply.error
          then CheckStatus.downloadOk else .downloadFail).toInt) : Due env good t entry := by
  have login := steps.manager_eq.2
  -- what is settled stays so as long as the disk is the same
  have still
    (good' : good (CheckDownloadedContent.checkRev env s.contentManager.loginInfo.boxId s.fs
      entry.fileName)) (fs : t.fs = s.fs) : Due env good t entry :=
    .settled (by rw [login, fs]; exact good')
  cases steps with
  | aside only =>
      have fields : t.contentFiles = s.contentFiles ∧ t.currentReply = s.currentReply ∧
        t.fs = s.fs := by
        rw [only.rest]
        exact ⟨rfl, rfl, rfl⟩
      cases due with
      | queued mem is => exact .queued (fields.1 ▸ mem) is
      | requested replying is => exact .requested (fields.2.1.trans replying) is
      | settled good => exact still good fields.2.2
  | asks sizing advances =>
      cases due with
      | queued mem is => exact .queued (advances.queue ▸ List.mem_append_left _ mem) is
      | requested replying =>
          rw [passing.phase.replying (by simp [sizing])] at replying
          cases replying
      | settled good => exact still good advances.fs
  | requests waiting left state =>
      subst state
      cases due with
      | queued mem is =>
          rw [left] at mem
          rcases List.mem_cons.mp mem with rfl | mem
          · exact .requested rfl is
          · exact .queued mem is
      | requested replying =>
          rw [passing.phase.replying (by simp [waiting])] at replying
          cases replying
      | settled good => exact still good rfl
  | transfers downloading downloading' file only transfer =>
      have queue : t.contentFiles = s.contentFiles := by rw [only]
      cases due with
      | queued mem is => exact .queued (queue ▸ mem) is
      | requested replying is =>
          obtain rfl := Option.some.inj (downloading.replying.symm.trans replying)
          exact .requested downloading'.replying (file ▸ is)
      | settled good =>
          refine .settled ?_
          rw [login, CheckDownloadedContent.checkRev, FileSystem.settingsValue, transfer.frame.2]
          exact good
  | @judges reply file downloading waiting event posted only same judged =>
      have queue : t.contentFiles = s.contentFiles := by rw [only]
      cases judged with
      | content other => simp [stage] at other
      | revision _ status ok fs =>
          rw [same.stagedPath] at ok
          have name : file.fileName = reply.file.fileName := congrArg Entry.fileName same.toEntry
          -- the verdict on the file itself
          have judged (own : entry.fileName = file.fileName) : Due env good t entry := by
            refine .settled ?_
            rw [login, fs, CheckDownloadedContent.checkRev_setRev, if_pos own, ok]
            exact verdict reply downloading.replying event posted (name.symm.trans own.symm)
          cases due with
          | queued mem is => exact .queued (queue ▸ mem) is
          | requested replying is =>
              obtain rfl := Option.some.inj (downloading.replying.symm.trans replying)
              exact judged (by rw [name, ← is])
          | settled good =>
              by_cases own : entry.fileName = file.fileName
              · exact judged own
              · refine .settled ?_
                rw [login, fs, CheckDownloadedContent.checkRev_setRev, if_neg own]
                exact good

end Due

end MediaUpdater
