import MediaUpdater.Download.Phase
import MediaUpdater.Download.Transfer

/-!
# One event of a pass

An inversion of `step` for the orderly runs: `PassStep` lists what one event can do
to a pass, with everything that the invariants over whole passes need to know about
it — the disk, the files that are left to list or to download, and the log.

Outside a pass nothing is said but that the disk stays the same.  In the size phase
an event either moves nothing, or ends the pass, or makes `nextFtpFile` go on to the
next file (`Advances`).  In the download stage it is one of the calls of
`nextDownload`, a transfer, or the verdict on the current file.

## Main results

* `pass_step` — every event of an orderly run is one of these steps.
* `pass_invariant` — what these steps preserve holds of every reachable state.
-/

namespace MediaUpdater

open Library DownloadManager FileSystem

variable {env : Env} {s t u : State} {e : Event} {p : Phase} {reply reply' : Reply}

/-! ### The phase of a state -/

/-- The phase, read off what is pending. -/
def State.phase (s : State) : Phase :=
  if s.starters ≠ 0 then .stopped
  else if s.scheduled ≠ 0 then .waiting
  else if s.currentReply.isSome then .downloading
  else .sizing

theorem phase_eq_stopped (starters : s.starters ≠ 0) : s.phase = .stopped := if_pos starters

theorem phase_eq_waiting (starters : s.starters = 0) (scheduled : s.scheduled ≠ 0) :
    s.phase = .waiting := by
  simp [State.phase, starters, scheduled]

theorem phase_eq_downloading (starters : s.starters = 0) (scheduled : s.scheduled = 0)
    (replying : s.currentReply = some reply) : s.phase = .downloading := by
  simp [State.phase, starters, scheduled, replying]

theorem phase_eq_sizing (starters : s.starters = 0) (scheduled : s.scheduled = 0)
    (replying : s.currentReply = none) : s.phase = .sizing := by
  simp [State.phase, starters, scheduled, replying]

/-- A state is in one phase only. -/
theorem State.InPhase.phase_eq (phase : s.InPhase p) : s.phase = p := by
  cases p with
  | stopped =>
      have stopped : Stopped s := phase
      exact phase_eq_stopped (by simp [stopped.starters])
  | sizing =>
      have sizing : Sizing s := phase
      exact phase_eq_sizing sizing.starters sizing.resting.scheduled sizing.resting.replying
  | waiting =>
      have ready : Ready s := phase
      exact phase_eq_waiting ready.starters (by simp [ready.waiting.scheduled])
  | downloading =>
      obtain ⟨⟨reply, downloading⟩, -, starters⟩ : Busy s := phase
      exact phase_eq_downloading starters downloading.scheduled downloading.replying

/-! ### The log of a pass -/

namespace Action

/-- `DownloadManager::start` is called. -/
def isStart : Action → Bool
  | start => true
  | _ => false

/-- What the server answers, and that the pass is over. -/
def isAnswer : Action → Bool
  | listed _ _ | listFinished _ _ | startTimer => true
  | _ => false

end Action

/-- What the pass that runs has done so far. -/
def passLog (s : State) : List Action := s.log.takeWhile fun a => !a.isStart

theorem passLog_append {acts : List Action} (logged : t.log = acts ++ s.log)
    (others : ∀ a ∈ acts, a.isStart = false) : passLog t = acts ++ passLog s := by
  rw [passLog, logged, List.takeWhile_append_of_pos (by simpa using others)]
  rfl

/-! ### The size phase -/

/-- The file of the `LIST` that was sent last. -/
def State.asked (s : State) : Option SContentInfo :=
  s.ftp.pending.getLast?.bind fun queued => queued.2.listed?

/-- What an event adds to the queue: a line for a regular file adds the current file. -/
def collectedBy (s : State) : Event → List SContentInfo
  | .ftpList info =>
      if info.isRegularFile then
        (s.currentContentFile.map fun file => file.setSize info.size).toList
      else []
  | _ => []

/-- What the server answers with an event. -/
def answerLog (s : State) : Event → List Action
  | .ftpList info =>
      (s.ftp.pending.head?.bind fun running => running.2.listed?).toList.map fun file =>
        .listed file info
  | .ftpDone failure =>
      (s.ftp.pending.head?.map fun running => answers failure running.2).getD []
  | _ => []

/-- Why `nextFtpFile` is called: for a line of a listing, for the success of the login, or
for a failure that is passed over. -/
inductive Cause (s : State) : Event → Prop
  | line (info : QUrlInfo) {id : ℕ} {file : SContentInfo} {queued : List (ℕ × FtpCommand)}
      (pending : s.ftp.pending = (id, .list file) :: queued) : Cause s (.ftpList info)
  | login (asked : s.asked = none) : Cause s (.ftpDone none)
  | failure {failure : FtpFailure} (unknown : failure.error = .unknownError) :
      Cause s (.ftpDone (some failure))

/-- `nextFtpFile` is called: the size phase ends, or lists the next file that has a
server path. -/
structure Advances (s : State) (e : Event) (t : State) : Prop where
  cause : Cause s e
  fs : t.fs = s.fs
  revision : t.revision = s.revision
  filesMap : t.contentManager.contentFilesMap = s.contentManager.contentFilesMap
  login : t.contentManager.loginInfo = s.contentManager.loginInfo
  queue : t.contentFiles = s.contentFiles ++ collectedBy s e
  log : t.log = answerLog s e ++ s.log
  heard : t.ftpTimeout = false
  next : t.phase = .waiting ∧ (∀ file ∈ s.ftpContentFiles, file.serverPath = []) ∨
    t.phase = .sizing ∧ ∃ skipped file, s.ftpContentFiles = skipped ++ file :: t.ftpContentFiles ∧
      (∀ file ∈ skipped, file.serverPath = []) ∧ t.asked = some file ∧
      t.currentContentFile = some file

/-- The state in which `nextFtpFile` is called. -/
structure Calls (s : State) (e : Event) (u : State) (drop : QFtp → QFtp) : Prop where
  fs : u.fs = s.fs
  revision : u.revision = s.revision
  filesMap : u.contentManager.contentFilesMap = s.contentManager.contentFilesMap
  login : u.contentManager.loginInfo = s.contentManager.loginInfo
  queue : u.contentFiles = s.contentFiles ++ collectedBy s e
  log : u.log = answerLog s e ++ s.log
  left : u.ftpContentFiles = s.ftpContentFiles
  heard : u.ftpTimeout = false
  resting : u.starters = 0 ∧ u.scheduled = 0 ∧ u.currentReply = none
  /-- What `QFtp` does to its queue afterwards keeps the new command. -/
  last : ∀ id command, (drop (u.ftp.addCommand id command)).pending.getLast? = some (id, command)

theorem Calls.advances (drop : QFtp → QFtp) (calls : Calls s e u drop) (cause : Cause s e) :
    Advances s e { nextFtpFile u with ftp := drop (nextFtpFile u).ftp } := by
  obtain ⟨fs, revision, filesMap, login, queue, log, left, heard, ⟨starters, scheduled, replying⟩,
    last⟩ := calls
  rcases nextFtpFileOf_cases u u.ftpContentFiles with
    ⟨empty, ended⟩ | ⟨skipped, file, rest, split, empty, -, listed⟩
  · rw [nextFtpFile, ended]
    refine ⟨cause, fs, revision, filesMap, login, queue, log, heard, .inl ⟨?_, ?_⟩⟩
    · exact phase_eq_waiting starters (Nat.succ_ne_zero u.scheduled)
    · rwa [← left]
  · rw [nextFtpFile, listed]
    refine ⟨cause, fs, revision, filesMap, login, queue, log, rfl,
      .inr ⟨?_, skipped, file, ?_, empty, ?_, rfl⟩⟩
    · exact phase_eq_sizing starters scheduled replying
    · rw [← left, split]
    · simp [State.asked, addFtpCommand, last, FtpCommand.listed?]

/-! ### One event of a pass -/

/-- The event starts the second stage. -/
def StartsContent (s : State) (e : Event) : Prop :=
  e = .nextDownload ∧ s.contentFiles = [] ∧ s.revision = true

instance (s : State) (e : Event) : Decidable (StartsContent s e) :=
  inferInstanceAs (Decidable (_ ∧ _ ∧ _))

/-- The event ends the pass. -/
def EndsPass (s : State) (e : Event) : Prop :=
  e = .nextDownload ∧ s.contentFiles = [] ∧ s.revision = false

instance (s : State) (e : Event) : Decidable (EndsPass s e) :=
  inferInstanceAs (Decidable (_ ∧ _ ∧ _))

/-- **What one event can do to a pass.** -/
inductive PassStep (env : Env) (s : State) (e : Event) (t : State) : Prop
  /-- The queue of `QFtp` moves, and nothing else. -/
  | aside (going : s.phase ≠ .stopped) (only : FtpOnly s t)
      (queue : t.ftp.pending = s.ftp.pending ∨ t.ftp.pending = s.ftp.pending.tail)
      (answers : ∃ acts, t.log = acts ++ s.log ∧ ∀ a ∈ acts, ∃ file, a = .listFinished file none)
  /-- The pass is over. -/
  | stopped (stopped : t.phase = .stopped) (fs : t.fs = s.fs)
      (answers : ∃ acts, t.log = acts ++ s.log ∧ ∀ a ∈ acts, a.isAnswer)
  | starts (info : LoginInfo) (stopped : s.phase = .stopped) (event : e = .accountReady (some info))
      (starts : t = start env { s with accountPending := false } info)
  | asks (sizing : s.phase = .sizing) (advances : Advances s e t)
  | content (waiting : s.phase = .waiting) (starts : StartsContent s e)
      (state : t = startContent env { s with scheduled := 0 })
  | ends (waiting : s.phase = .waiting) (ends : EndsPass s e)
      (state : t = endPass env { s with scheduled := 0 })
  | requests {file : SContentInfo} {rest : List SContentInfo} (waiting : s.phase = .waiting)
      (event : e = .nextDownload) (left : s.contentFiles = file :: rest)
      (state : t = requestFile { s with scheduled := 0 } file rest)
  | transfers {reply reply' : Reply} (busy : s.phase = .downloading)
      (downloading : Downloading s reply)
      (downloading' : Downloading t reply') (id : reply'.id = reply.id)
      (file : reply'.file = reply.file) (only : DownloadOnly s t)
      (transfer : Transfer s e t reply reply')
      (log : ∃ acts, t.log = acts ++ s.log ∧
      ∀ a ∈ acts, a.IsTransfer reply.id reply.file.stagedPath)
  | judges {reply : Reply} {file : SContentInfo} (busy : s.phase = .downloading)
      (downloading : Downloading s reply)
      (waiting : Waiting t) (event : e = .deliver) (posted : s.posted = [(reply.id, .finished)])
      (only : DownloadOnly s t) (same : SameFile file reply.file)
      (judged : Judged env s t reply file)

/-! ### The log of one event -/

/-- Everything but the verdicts on downloads and what ends a pass. -/
def Action.isQuiet : Action → Bool
  | .setTrust _ _ _ _ | .setRev _ _ _ | .setRevLocal _ | .syncContent _ _ => false
  | _ => true

theorem isQuiet_answerLog (s : State) (e : Event) : ∀ a ∈ answerLog s e, a.isQuiet := by
  intro a mem
  cases e with
  | ftpList info =>
      obtain ⟨file, -, rfl⟩ := List.mem_map.mp mem
      rfl
  | ftpDone failure =>
      cases pending : s.ftp.pending with
      | nil => simp [answerLog, pending] at mem
      | cons running queued =>
          obtain ⟨file, rfl⟩ := mem_answers (by simpa [answerLog, pending] using mem)
          rfl
  | _ => simp [answerLog] at mem

theorem getTotalSize_quiet (acts : List Action) (logged : u.log = acts ++ s.log)
    (quiet : ∀ a ∈ acts, a.isQuiet) :
    ∃ acts, (getTotalSize u).log = acts ++ s.log ∧ ∀ a ∈ acts, a.isQuiet := by
  rcases getTotalSize_log u with same | failed
  · exact ⟨acts, same.trans logged, quiet⟩
  · refine ⟨.startTimer :: acts, by rw [failed, logged, List.cons_append], ?_⟩
    rintro a (_ | ⟨_, mem⟩)
    · rfl
    · exact quiet a mem

/-- **Only the end of a pass and the end of a download are not quiet.** -/
theorem PassStep.loud (passes : PassStep env s e t) {a : Action} (emitted : Emits s t a)
    (loud : a.isQuiet = false) :
    EndsPass s e ∧ t = endPass env { s with scheduled := 0 } ∨
      ∃ reply file, Downloading s reply ∧ s.posted = [(reply.id, .finished)] ∧
        SameFile file reply.file ∧ Judged env s t reply file := by
  have quiet (acts : List Action) (logged : t.log = acts ++ s.log) (quiet : ∀ a ∈ acts, a.isQuiet) :
      False := by
    have heard := quiet a (mem_of_emits acts logged emitted)
    rw [loud] at heard
    cases heard
  cases passes with
  | aside _ _ _ answers =>
      obtain ⟨acts, logged, answers⟩ := answers
      refine (quiet acts logged fun a mem => ?_).elim
      obtain ⟨file, rfl⟩ := answers a mem
      rfl
  | stopped _ _ answers =>
      obtain ⟨acts, logged, answers⟩ := answers
      refine (quiet acts logged fun a mem => ?_).elim
      have answer := answers a mem
      cases a <;> first | rfl | cases answer
  | starts info _ _ starts =>
      obtain ⟨acts, logged, heard⟩ : ∃ acts, t.log = acts ++ s.log ∧ ∀ a ∈ acts, a.isQuiet := by
        rw [starts]
        exact getTotalSize_quiet [.start] rfl (by simp [Action.isQuiet])
      exact (quiet acts logged heard).elim
  | asks _ advances => exact (quiet _ advances.log (isQuiet_answerLog s e)).elim
  | content _ _ state =>
      obtain ⟨acts, logged, heard⟩ : ∃ acts, t.log = acts ++ s.log ∧ ∀ a ∈ acts, a.isQuiet := by
        rw [state]
        exact getTotalSize_quiet [.startContent] rfl (by simp [Action.isQuiet])
      exact (quiet acts logged heard).elim
  | ends _ ends state => exact .inl ⟨ends, state⟩
  | requests _ _ _ state =>
      rw [state] at quiet
      exact (quiet [.request _ _] rfl (by simp [Action.isQuiet])).elim
  | transfers _ _ _ _ _ _ _ log =>
      obtain ⟨acts, logged, transfers⟩ := log
      refine (quiet acts logged fun a mem => ?_).elim
      cases transfers a mem <;> rfl
  | judges _ downloading _ _ posted _ same judged =>
      exact .inr ⟨_, _, downloading, posted, same, judged⟩

/-- The verdicts on downloads. -/
def Action.isVerdict : Action → Bool
  | .setTrust _ _ _ _ | .setRev _ _ _ => true
  | _ => false

/-- The end of a download does nothing but judge it. -/
theorem Judged.isVerdict {file : SContentInfo} (judged : Judged env s t reply file) {a : Action}
    (emitted : Emits s t a) : a.isVerdict = true := by
  cases judged with
  | revision _ status _ _ log =>
      have mem := mem_of_emits [.setRev reply.id file status] log emitted
      rw [List.mem_singleton.mp mem]
      rfl
  | content _ n _ log =>
      have mem := mem_of_emits _ log emitted
      rw [(List.mem_replicate.mp mem).2]
      rfl

/-- The end of a pass judges nothing. -/
theorem endPass_isVerdict {a : Action}
    (emitted : Emits s (endPass env { s with scheduled := 0 }) a) :
    a.isVerdict = false := by
  obtain ⟨fs, manager, before, acts, ended, shape⟩ := endPass_eq env { s with scheduled := 0 }
  have logged : (endPass env { s with scheduled := 0 }).log =
      (.startTimer :: .syncContent before fs :: acts) ++ s.log := by rw [ended]
  have mem := mem_of_emits _ logged emitted
  rcases shape with rfl | ⟨disk, rfl⟩ <;>
    simp only [List.mem_cons, List.not_mem_nil, or_false] at mem
  · rcases mem with rfl | rfl <;> rfl
  · rcases mem with rfl | rfl | rfl <;> rfl

/-- **Only the end of a download is a verdict.** -/
theorem PassStep.judges_of_emits (passes : PassStep env s e t) {a : Action} (emitted : Emits s t a)
    (verdict : a.isVerdict = true) : ∃ reply file, Downloading s reply ∧
      s.posted = [(reply.id, .finished)] ∧ SameFile file reply.file ∧
      Judged env s t reply file := by
  have loud : a.isQuiet = false := by
    cases a <;> first | rfl | cases verdict
  refine (passes.loud emitted loud).resolve_left ?_
  rintro ⟨-, state⟩
  rw [endPass_isVerdict (state ▸ emitted)] at verdict
  cases verdict

/-- **Only the end of a pass commits and syncs.** -/
theorem PassStep.ends_of_emits (passes : PassStep env s e t) {a : Action} (emitted : Emits s t a)
    (loud : a.isQuiet = false) (other : a.isVerdict = false) :
    EndsPass s e ∧ t = endPass env { s with scheduled := 0 } := by
  refine (passes.loud emitted loud).resolve_right ?_
  rintro ⟨reply, file, -, -, -, judged⟩
  rw [judged.isVerdict emitted] at other
  cases other

/-! ### What is known of an orderly run -/

/-- A state of an orderly run, with what `PassStep` rests on. -/
structure Passing (s : State) : Prop where
  alive : s.crashed = false
  phase : s.InPhase s.phase
  /-- While a `LIST` is pending, the current file is the one that was asked for last. -/
  asked : s.phase = .sizing → ∀ running ∈ s.ftp.pending, running.2.listed?.isSome →
    ∃ file, s.asked = some file ∧ s.currentContentFile = some file
  /-- In the download stage the handlers of `QFtp` listen, or there is nothing to hear. -/
  heard : s.phase = .waiting ∨ s.phase = .downloading →
    s.ftpTimeout = false ∨ s.ftp.pending = []

theorem Passing.resting (passing : Passing s) (stopped : s.phase = .stopped) : Resting s := by
  have phase := passing.phase
  rw [stopped] at phase
  exact (show Stopped s from phase).resting

/-! ### The steps of each phase -/

theorem phase_boot (fs : FileSystem) : (State.boot fs).phase = .stopped :=
  phase_eq_stopped Nat.one_ne_zero

theorem phase_restart (s : State) : s.restart.phase = .stopped := phase_eq_stopped Nat.one_ne_zero

/-- Outside the size phase the answers of the FTP server move nothing. -/
theorem FtpQuiet.passStep (quiet : FtpQuiet s) (going : s.phase ≠ .stopped)
    (heard : s.ftpTimeout = false ∨ s.ftp.pending = []) (alive : s.crashed = false) (ftp : e.isFtp)
    (orderly : Orderly s e) (takes : step env s e = some t) : PassStep env s e t := by
  obtain ⟨only, -⟩ := quiet.next alive ftp orderly takes
  rw [step_eq_react alive] at takes
  -- a pending command can only end with success
  have ends (nonempty : s.ftp.pending ≠ []) : s.ftpTimeout = false ∧ 0 < s.sizeEnds ∧
    LoginDone s := by
    have listening : s.ftpTimeout = false := heard.resolve_right nonempty
    exact ⟨listening, by simpa [listening, nonempty] using quiet.deaf⟩
  cases e with
  | ftpState state =>
      obtain rfl := Option.some.inj takes
      exact .aside going only (.inl rfl) ⟨[], rfl, by simp⟩
  | ftpList info =>
      cases pending : s.ftp.pending with
      | nil => simp [react, pending] at takes
      | cons running queued =>
          obtain ⟨listening, ended, -⟩ := ends (by simp [pending])
          have open_ := orderly listening
          omega
  | ftpDone failure =>
      cases pending : s.ftp.pending with
      | nil => simp [react, pending] at takes
      | cons running queued =>
          obtain ⟨id, command⟩ := running
          simp only [react, pending, List.head?_cons, Option.map_some, Option.some.injEq] at takes
          obtain ⟨listening, ended, login⟩ := ends (by simp [pending])
          obtain rfl : failure = none := by
            by_contra failed
            have open_ := orderly (Option.isSome_iff_ne_none.mpr failed) listening
            omega
          have other : id ≠ s.loginCommand := login (id, command) (by simp [pending])
          rw [ftpDone_success s other] at takes
          subst takes
          refine .aside going only (.inr rfl) ⟨answers none command, rfl, fun a mem => ?_⟩
          exact mem_answers mem
  | _ => cases ftp

/-- A listing line in the size phase. -/
theorem Sizing.ftpList_advances (sizing : Sizing s) {info : QUrlInfo}
    (takes : react env s (.ftpList info) = some t) : Advances s (.ftpList info) t := by
  obtain ⟨⟨scheduled, replying, posted, downloadTimer⟩, -, timeout, ends, queue, login,
    starters⟩ := sizing
  cases running : s.ftp.pending.head?.bind fun running => running.2.listed? with
  | none => simp [react, running] at takes
  | some file =>
      simp only [react, running, Option.some.injEq] at takes
      subst takes
      obtain ⟨id, queued, pending⟩ : ∃ id queued, s.ftp.pending = (id, .list file) :: queued := by
        cases pending : s.ftp.pending with
        | nil => simp [pending] at running
        | cons first queued =>
            obtain ⟨id, command⟩ := first
            simp only [pending, List.head?_cons, Option.bind_some] at running
            cases command with
            | list file' =>
                obtain rfl := Option.some.inj running
                exact ⟨id, queued, rfl⟩
            | _ => cases running
      have last (id : ℕ) (command : FtpCommand) :
          (s.ftp.addCommand id command).pending.getLast? = some (id, command) := by simp
      have logged : answerLog s (.ftpList info) = [.listed file info] := by
        simp [answerLog, running]
      rw [listInfo, if_neg (by simp [timeout])]
      refine Calls.advances (fun ftp => ftp) ?_ (.line info pending)
      cases regular : info.isRegularFile with
      | false =>
          exact {
            fs := rfl, revision := rfl, filesMap := rfl, login := rfl, left := rfl
            queue := by simp [collectedBy, regular]
            log := by rw [logged]; rfl
            heard := timeout
            resting := ⟨starters, scheduled, replying⟩
            last := last }
      | true =>
          simp only [if_true, appendListed]
          split
          next none =>
            exact {
              fs := rfl, revision := rfl, filesMap := rfl, login := rfl, left := rfl
              queue := by simp [collectedBy, regular, none]
              log := by rw [logged]; rfl
              heard := timeout
              resting := ⟨starters, scheduled, replying⟩
              last := last }
          next current some =>
            exact {
              fs := rfl, revision := rfl, filesMap := rfl, login := rfl, left := rfl
              queue := by simp [collectedBy, regular, some]
              log := by rw [logged]; rfl
              heard := timeout
              resting := ⟨starters, scheduled, replying⟩
              last := last }

/-- The end of a command in the size phase. -/
theorem Sizing.ftpDone_passStep (sizing : Sizing s) {failure : Option FtpFailure}
    (takes : react env s (.ftpDone failure) = some t) : PassStep env s (.ftpDone failure) t := by
  have phase : s.phase = .sizing := State.InPhase.phase_eq (p := .sizing) sizing
  obtain ⟨⟨scheduled, replying, posted, downloadTimer⟩, timer, timeout, ends, queue, login,
    starters⟩ := sizing
  cases pending : s.ftp.pending with
  | nil => simp [react, pending] at takes
  | cons running queued =>
      obtain ⟨id, command⟩ := running
      simp only [react, pending, List.head?_cons, Option.map_some, Option.some.injEq] at takes
      subst takes
      have logged : answerLog s (.ftpDone failure) = answers failure command := by
        simp [answerLog, pending]
      have silent : ∀ a ∈ answers failure command, ∃ file, a = .listFinished file failure :=
        fun a mem => mem_answers mem
      cases failure with
      | none =>
          by_cases isLogin : id = s.loginCommand
          · -- the login is alone in the queue
            obtain ⟨rfl, rfl⟩ : queued = [] ∧ command = .login := by
              cases queue with
              | connecting id' other pending' =>
                  rw [pending] at pending'
                  simp only [List.cons.injEq, Prod.mk.injEq] at pending'
                  exact absurd (isLogin.symm.trans pending'.1.1).symm other
              | loggingIn pending' => simp_all
              | listing done => exact absurd isLogin (done (id, command) (by simp [pending]))
            subst isLogin
            have handled :=
              commandFinished_login { s with log := answers none .login ++ s.log } timeout
            by_cases loggedIn : s.ftp.state = .loggedIn
            · rw [ftpDone, handled, if_pos loggedIn]
              have asked : s.asked = none := by simp [State.asked, pending, FtpCommand.listed?]
              refine .asks phase (Calls.advances QFtp.removeFirst ?_ (.login asked))
              exact {
                fs := rfl, revision := rfl, filesMap := rfl, login := rfl, left := rfl
                queue := by simp [collectedBy]
                log := by rw [logged]
                heard := timeout
                resting := ⟨starters, scheduled, replying⟩
                last := fun id' command' => by simp [pending] }
            · obtain ⟨done, only⟩ := FtpOnly.ftpDone s.ftp (handled.trans (if_neg loggedIn))
              refine .aside (by simp [phase]) only (.inr ?_) ⟨answers none .login, ?_, silent⟩
              · rw [done]
                rfl
              · rw [done]
          · obtain ⟨done, only⟩ := FtpOnly.ftpDone (s := s) s.ftp
              (commandFinished_success _ isLogin)
            refine .aside (by simp [phase]) only (.inr ?_) ⟨answers none command, ?_, silent⟩
            · rw [done]
              rfl
            · rw [done]
      | some failure =>
          rw [ftpDone, commandFinished_failure
            { s with log := answers (some failure) command ++ s.log } timeout]
          split
          next unknown =>
            refine .asks phase (Calls.advances QFtp.removeFirst ?_ (.failure unknown))
            exact {
              fs := rfl, revision := rfl, filesMap := rfl, login := rfl, left := rfl
              queue := by simp [collectedBy]
              log := by rw [logged]
              heard := timeout
              resting := ⟨starters, scheduled, replying⟩
              last := fun id' command' => by simp [pending] }
          · refine .stopped (phase_eq_stopped ?_) rfl
              ⟨.startTimer :: answers (some failure) command, rfl, ?_⟩
            · simp [State.starters, startTimer]
            · rintro a (_ | ⟨_, mem⟩)
              · rfl
              · obtain ⟨file, rfl⟩ := silent a mem
                rfl

/-- The size phase. -/
theorem Sizing.passStep (sizing : Sizing s) (alive : s.crashed = false)
    (takes : step env s e = some t) : PassStep env s e t := by
  have reacts := (step_eq_react alive).symm.trans takes
  have phase : s.phase = .sizing := State.InPhase.phase_eq (p := .sizing) sizing
  cases e with
  | restart =>
      obtain rfl := Option.some.inj reacts
      exact .stopped (phase_restart s) rfl ⟨[], rfl, by simp⟩
  | updateStart => exact (no_updateStart sizing.starters alive takes).elim
  | accountReady => exact (no_accountReady sizing.starters alive takes).elim
  | ftpState state =>
      obtain rfl := Option.some.inj reacts
      exact .aside (by simp [phase]) ⟨rfl, [], rfl, by simp⟩ (.inl rfl) ⟨[], rfl, by simp⟩
  | ftpList info => exact .asks phase (sizing.ftpList_advances reacts)
  | ftpDone failure => exact sizing.ftpDone_passStep reacts
  | ftpTimer =>
      rw [react, Option.ite_none_right_eq_some] at reacts
      obtain rfl := Option.some.inj reacts.2
      refine .stopped (phase_eq_stopped ?_) rfl ⟨[.startTimer], rfl, by simp [Action.isAnswer]⟩
      simp [State.starters, ftpTimedOut, startTimer]
  | _ => exact (sizing.resting.no_download alive takes rfl).elim

/-- Between two passes. -/
theorem Stopped.passStep (stopped : Stopped s) (alive : s.crashed = false) (orderly : Orderly s e)
    (takes : step env s e = some t) : PassStep env s e t := by
  have reacts := (step_eq_react alive).symm.trans takes
  have phase : s.phase = .stopped := State.InPhase.phase_eq (p := .stopped) stopped
  have ftpStep (ftp : e.isFtp) : PassStep env s e t := by
    obtain ⟨only, -⟩ := stopped.quiet.next alive ftp orderly takes
    obtain ⟨acts, logged, answers⟩ := only.log
    refine .stopped (phase_eq_stopped ?_) ?_ ⟨acts, logged, fun a mem => ?_⟩
    · rw [only.rest]
      exact ne_of_eq_of_ne stopped.starters Nat.one_ne_zero
    · rw [only.rest]
    · obtain ⟨file, failure, info, rfl | rfl⟩ := answers a mem <;> rfl
  cases e with
  | restart =>
      obtain rfl := Option.some.inj reacts
      exact .stopped (phase_restart s) rfl ⟨[], rfl, by simp⟩
  | updateStart accepted =>
      obtain ⟨one, updateTimer, startScheduled, accountPending, rfl⟩ :=
        updateStart_next stopped.starters reacts
      exact .stopped (phase_eq_stopped (ne_of_eq_of_ne one Nat.one_ne_zero)) rfl ⟨[], rfl, by simp⟩
  | accountReady info =>
      rw [react, Option.ite_none_right_eq_some] at reacts
      obtain rfl := Option.some.inj reacts.2
      cases info with
      | none =>
          refine .stopped (phase_eq_stopped ?_) rfl ⟨[], rfl, by simp⟩
          simp [State.starters, accountReady]
      | some info => exact .starts info phase rfl rfl
  | ftpState | ftpList | ftpDone => exact ftpStep rfl
  | ftpTimer => exact (stopped.quiet.no_ftpTimer alive takes).elim
  | _ => exact (stopped.resting.no_download alive takes rfl).elim

/-- Waiting for a scheduled `nextDownload`. -/
theorem Ready.passStep (ready : Ready s) (heard : s.ftpTimeout = false ∨ s.ftp.pending = [])
    (alive : s.crashed = false) (orderly : Orderly s e) (takes : step env s e = some t) :
    PassStep env s e t := by
  have phase : s.phase = .waiting := State.InPhase.phase_eq (p := .waiting) ready
  cases e with
  | restart =>
      obtain rfl := Option.some.inj ((step_eq_react alive).symm.trans takes)
      exact .stopped (phase_restart s) rfl ⟨[], rfl, by simp⟩
  | updateStart => exact (no_updateStart ready.starters alive takes).elim
  | accountReady => exact (no_accountReady ready.starters alive takes).elim
  | ftpState | ftpList | ftpDone =>
      exact ready.quiet.passStep (by simp [phase]) heard alive rfl orderly takes
  | ftpTimer => exact (ready.quiet.no_ftpTimer alive takes).elim
  | nextDownload =>
      obtain ⟨-, rfl⟩ := ready.waiting.next alive rfl takes
      by_cases empty : s.contentFiles = []
      · rw [nextDownload_nil env { s with scheduled := 0 } empty]
        by_cases revision : s.revision = true
        · rw [if_pos revision]
          exact .content phase ⟨rfl, empty, revision⟩ rfl
        · rw [if_neg revision]
          exact .ends phase ⟨rfl, empty, by simpa using revision⟩ rfl
      · obtain ⟨file, rest, left⟩ := List.exists_cons_of_ne_nil empty
        rw [nextDownload_cons env { s with scheduled := 0 } left]
        exact .requests phase rfl left rfl
  | _ => exact absurd (ready.waiting.next alive rfl takes).1 (by simp)

/-- A download. -/
theorem Busy.passStep (busy : Busy s) (heard : s.ftpTimeout = false ∨ s.ftp.pending = [])
    (alive : s.crashed = false) (orderly : Orderly s e) (takes : step env s e = some t) :
    PassStep env s e t := by
  have phase : s.phase = .downloading := State.InPhase.phase_eq (p := .downloading) busy
  have stageStep (stage : e.isStage) : PassStep env s e t := by
    obtain ⟨reply, downloading⟩ := busy.downloading
    cases downloading.inverted alive stage takes with
    | transfers downloading' id file only transfer log =>
        exact .transfers phase downloading downloading' id file only transfer log
    | judges waiting posted only same judged =>
        exact .judges phase downloading waiting rfl posted only same judged
  cases e with
  | restart =>
      obtain rfl := Option.some.inj ((step_eq_react alive).symm.trans takes)
      exact .stopped (phase_restart s) rfl ⟨[], rfl, by simp⟩
  | updateStart => exact (no_updateStart busy.starters alive takes).elim
  | accountReady => exact (no_accountReady busy.starters alive takes).elim
  | ftpState | ftpList | ftpDone =>
      exact busy.quiet.passStep (by simp [phase]) heard alive rfl orderly takes
  | ftpTimer => exact (busy.quiet.no_ftpTimer alive takes).elim
  | _ => exact stageStep rfl

/-! ### The step lemma -/

/-- What `getTotalSize` leaves for the handlers of `QFtp`. -/
theorem getTotalSize_passing (s : State) :
    (∀ running ∈ (getTotalSize s).ftp.pending, running.2.listed?.isSome = false) ∧
      ((getTotalSize s).ftpTimeout = false ∨ (getTotalSize s).ftp.pending = []) := by
  rcases getTotalSize_cases s with ⟨-, made⟩ | ⟨-, made⟩ | ⟨-, made⟩ <;> rw [made]
  · exact ⟨by simp, .inr rfl⟩
  · exact ⟨by simp [FtpCommand.listed?], .inl rfl⟩
  · exact ⟨by simp, .inr rfl⟩

/-- The phase goes on when only the queue of `QFtp` moves. -/
theorem FtpOnly.phase_eq (only : FtpOnly s t) : t.phase = s.phase := by
  rw [only.rest]
  rfl

theorem DownloadOnly.ftp_eq (only : DownloadOnly s t) :
    t.ftpTimeout = s.ftpTimeout ∧ t.ftp = s.ftp := by
  rw [only]
  exact ⟨rfl, rfl⟩

/-- The size phase has no reply and nothing scheduled. -/
theorem State.InPhase.not_sizing (phase : t.InPhase t.phase)
    (busy : t.scheduled ≠ 0 ∨ t.currentReply ≠ none) : t.phase ≠ .sizing := by
  intro sizing
  rw [sizing] at phase
  have resting := (show Sizing t from phase).resting
  exact busy.elim (fun scheduled => scheduled resting.scheduled) fun reply => reply resting.replying

theorem getTotalSize_revision (s : State) : (getTotalSize s).revision = s.revision := by
  rcases getTotalSize_cases s with ⟨-, made⟩ | ⟨-, made⟩ | ⟨-, made⟩ <;> rw [made]

theorem phase_endPass (env : Env) (s : State) : (endPass env s).phase = .stopped := by
  obtain ⟨fs, manager, before, acts, ended, -⟩ := endPass_eq env s
  refine phase_eq_stopped ?_
  rw [ended]
  simp [State.starters]

theorem Passing.next (passing : Passing s) (alive : t.crashed = false) (phase : t.InPhase t.phase)
    (passes : PassStep env s e t) : Passing t := by
  -- the download stage changes nothing of `QFtp`
  have downloads (busy : t.scheduled ≠ 0 ∨ t.currentReply ≠ none)
      (going : s.phase = .waiting ∨ s.phase = .downloading)
      (timeout : t.ftpTimeout = s.ftpTimeout) (ftp : t.ftp = s.ftp) : Passing t := by
    refine ⟨alive, phase, fun sizing => absurd sizing (phase.not_sizing busy), fun _ => ?_⟩
    rw [timeout, ftp]
    exact passing.heard going
  -- a stage starts with the login
  have starting (u : State) (made : t = getTotalSize u) : Passing t := by
    obtain ⟨noList, heard⟩ := getTotalSize_passing u
    rw [← made] at noList heard
    refine ⟨alive, phase, fun _ running mem list => ?_, fun _ => heard⟩
    rw [noList running mem] at list
    cases list
  have nowhere (stopped : t.phase = .stopped) : Passing t :=
    ⟨alive, phase, fun sizing => by simp [stopped] at sizing,
    fun going => by simp [stopped] at going⟩
  cases passes with
  | aside going only queue answers =>
      have fields : t.currentContentFile = s.currentContentFile ∧ t.ftpTimeout = s.ftpTimeout := by
        rw [only.rest]
        exact ⟨rfl, rfl⟩
      have subset (running) (mem : running ∈ t.ftp.pending) : running ∈ s.ftp.pending := by
        rcases queue with same | tail
        · exact same ▸ mem
        · exact List.mem_of_mem_tail (tail ▸ mem)
      refine ⟨alive, phase, fun sizing running mem list => ?_, fun stage => ?_⟩
      · rw [only.phase_eq] at sizing
        obtain ⟨file, asked, current⟩ := passing.asked sizing running (subset running mem) list
        refine ⟨file, ?_, fields.1.trans current⟩
        rw [← asked, State.asked, State.asked]
        rcases queue with same | tail
        · rw [same]
        · rw [tail] at mem ⊢
          cases pending : s.ftp.pending with
          | nil => simp [pending] at mem
          | cons first others =>
              cases others with
              | nil => simp [pending] at mem
              | cons second others => rfl
      · rw [only.phase_eq] at stage
        refine (passing.heard stage).imp (fields.2.trans ·) fun empty => ?_
        refine List.eq_nil_iff_forall_not_mem.mpr fun running mem => ?_
        simpa [empty] using subset running mem
  | stopped stopped => exact nowhere stopped
  | starts info stopped event starts =>
      unfold start at starts
      exact starting _ starts
  | asks sizing advances =>
      refine ⟨alive, phase, fun sizing' _ _ _ => ?_, fun _ => .inl advances.heard⟩
      rcases advances.next with ⟨waiting, -⟩ | ⟨-, skipped, file, -, -, asked, current⟩
      · simp [sizing'] at waiting
      · exact ⟨file, asked, current⟩
  | content waiting starts state => exact starting _ state
  | ends waiting ends state =>
      rw [state] at nowhere ⊢
      exact nowhere (phase_endPass env { s with scheduled := 0 })
  | requests waiting event left state =>
      subst state
      exact downloads (.inr (by simp [requestFile])) (.inl waiting) rfl rfl
  | transfers busy downloading downloading' id file only transfer log =>
      obtain ⟨timeout, ftp⟩ := only.ftp_eq
      exact downloads (.inr (by simp [downloading'.replying])) (.inr busy) timeout ftp
  | judges busy downloading waiting event posted only same judged =>
      obtain ⟨timeout, ftp⟩ := only.ftp_eq
      exact downloads (.inl (by simp [waiting.scheduled])) (.inr busy) timeout ftp

/-- **One event of an orderly run.** -/
theorem pass_step (passing : Passing s) (orderly : Orderly s e) (takes : step env s e = some t) :
    PassStep env s e t ∧ Passing t := by
  have passes : PassStep env s e t := by
    obtain ⟨alive, phase, -, heard⟩ := passing
    generalize s.phase = kind at phase heard
    cases kind with
    | stopped => exact Stopped.passStep phase alive orderly takes
    | sizing => exact Sizing.passStep phase alive takes
    | waiting => exact Ready.passStep phase (heard (.inl rfl)) alive orderly takes
    | downloading => exact Busy.passStep phase (heard (.inr rfl)) alive orderly takes
  obtain ⟨q, moves⟩ := phase_step passing.phase passing.alive orderly takes
  exact ⟨passes, passing.next moves.alive (moves.phase.phase_eq ▸ moves.phase) passes⟩

theorem passing_boot (fs : FileSystem) : Passing (State.boot fs) := by
  have phase := phase_boot fs
  refine ⟨rfl, ?_, fun sizing => by simp [phase] at sizing, fun stage => by simp [phase] at stage⟩
  rw [phase]
  exact ⟨⟨rfl, rfl, rfl, rfl⟩, ⟨Nat.zero_le 1, rfl, .inr (.inl rfl)⟩, rfl⟩

/-- **Invariants of passes.**  What every `PassStep` of a run preserves holds in every
state that the run reaches; the run is orderly. -/
theorem pass_invariant {ok : State → Event → Prop} (orderly : ∀ s e, ok s e → Orderly s e)
    (Inv : State → Prop) (initially : ∀ fs, Inv (State.boot fs))
    (preserves : ∀ s e t, Passing s → Passing t → Inv s → ok s e → step env s e = some t →
      PassStep env s e t → Inv t)
    (reached : Reachable (step env) ok Initial s) : Passing s ∧ Inv s := by
  refine reached.invariant (fun s => Passing s ∧ Inv s) ?_ ?_
  · rintro s ⟨fs, rfl⟩
    exact ⟨passing_boot fs, initially fs⟩
  · rintro s e t - ⟨passing, inv⟩ meets takes
    obtain ⟨passes, passing'⟩ := pass_step passing (orderly s e meets) takes
    exact ⟨passing', preserves s e t passing passing' inv meets takes passes⟩

end MediaUpdater
