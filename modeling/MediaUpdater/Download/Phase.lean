import MediaUpdater.Download.Stage

/-!
# The phases of a pass

Seen from outside, the updater is always in one of four phases: between two
passes, in a size phase, waiting for a scheduled `nextDownload`, or downloading.
`Phase.Next` is the order in which they may follow one another.  A phase says
which single thing is pending, so that two passes or two downloads at once would
need a state that is in two phases.

The code keeps to this order as long as the FTP server is *orderly*: once the size
phase of a stage has scheduled `nextDownload`, no further listing line arrives and
no command fails.  `QFtp` does not promise that — a listing may have several lines,
and the final `QUIT` may fail — and the handlers do not check it, so
`Orderly` is a condition on the run.

## Main results

* `phase_step` — one event moves the phase along `Phase.Next`.
* `phase_reachable` — every reachable state of an orderly run is in a phase.
-/

namespace MediaUpdater

open Library DownloadManager

variable {env : Env} {s t : State} {e : Event}

/-! ### Phases -/

/-- What an updater is busy with. -/
inductive Phase where
  /-- No pass is running; the controller will start the next one. -/
  | stopped
  /-- `QFtp` is asked for the sizes of the files of a stage. -/
  | sizing
  /-- A `nextDownload` is scheduled. -/
  | waiting
  /-- A reply is outstanding. -/
  | downloading
  deriving DecidableEq, Repr

/-- The order of the phases.  Only a pass that is over is followed by a new one, only
a scheduled `nextDownload` by a download, and a download ends by scheduling
`nextDownload`. -/
inductive Phase.Next : Phase → Phase → Prop
  | stay (p : Phase) : Next p p
  | start : Next .stopped .sizing
  | startEmpty : Next .stopped .waiting
  | sized : Next .sizing .waiting
  | request : Next .waiting .downloading
  | downloaded : Next .downloading .waiting
  | content : Next .waiting .sizing
  | finish (p : Phase) : Next p .stopped

/-- The orderly answers of an FTP server.  While `mFtpTimeout` is set the handlers
ignore everything. -/
def Orderly (s : State) : Event → Prop
  | .ftpList _ => s.ftpTimeout = false → s.sizeEnds = 0
  | .ftpDone failure => failure.isSome → s.ftpTimeout = false → s.sizeEnds = 0
  | _ => True

instance (s : State) : DecidablePred (Orderly s)
  | .ftpList _ => inferInstanceAs (Decidable (s.ftpTimeout = false → s.sizeEnds = 0))
  | .ftpDone failure =>
      inferInstanceAs (Decidable (failure.isSome → s.ftpTimeout = false → s.sizeEnds = 0))
  | .restart | .updateStart _ | .accountReady _ | .ftpState _ | .ftpTimer | .nextDownload
  | .netData _ | .netProgress _ _ | .netError | .netFinished | .deliver | .downloadTimer =>
      .isTrue trivial

/-! ### The states of a phase -/

/-- Nothing of a download is pending. -/
structure Resting (s : State) : Prop where
  scheduled : s.scheduled = 0
  replying : s.currentReply = none
  posted : s.posted = []
  downloadTimer : s.downloadTimer = false

/-- How many things will make the controller start a pass. -/
def State.starters (s : State) : ℕ :=
  s.updateTimer.toNat + s.startScheduled.toNat + s.accountPending.toNat

/-- The login has been answered or dropped. -/
def LoginDone (s : State) : Prop := ∀ running ∈ s.ftp.pending, running.1 ≠ s.loginCommand

/-- The queue of a size phase: the login is still to come, or it is running, or it is
done. -/
inductive SizeQueue (s : State) : Prop
  | connecting (id : ℕ) (other : id ≠ s.loginCommand)
      (pending : s.ftp.pending = [(id, .connectToHost), (s.loginCommand, .login)])
  | loggingIn (pending : s.ftp.pending = [(s.loginCommand, .login)])
  | listing (done : LoginDone s)

/-- The answers of the FTP server that an orderly run still allows will be ignored. -/
structure FtpQuiet (s : State) : Prop where
  /-- The size phase has scheduled `nextDownload` at most once. -/
  once : s.sizeEnds ≤ 1
  timer : s.ftpTimer = false
  deaf : s.ftpTimeout = true ∨ s.ftp.pending = [] ∨ 0 < s.sizeEnds ∧ LoginDone s

/-- Between two passes. -/
structure Stopped (s : State) : Prop where
  resting : Resting s
  quiet : FtpQuiet s
  starters : s.starters = 1

/-- In a size phase. -/
structure Sizing (s : State) : Prop where
  resting : Resting s
  timer : s.ftpTimer = true
  timeout : s.ftpTimeout = false
  ends : s.sizeEnds = 0
  queue : SizeQueue s
  login : s.loginCommand < s.idCounter
  starters : s.starters = 0

/-- Waiting for a scheduled `nextDownload`. -/
structure Ready (s : State) : Prop where
  waiting : Waiting s
  quiet : FtpQuiet s
  starters : s.starters = 0

/-- Downloading. -/
structure Busy (s : State) : Prop where
  downloading : ∃ reply, Downloading s reply
  quiet : FtpQuiet s
  starters : s.starters = 0

/-- The states of a phase. -/
def State.InPhase (s : State) : Phase → Prop
  | .stopped => Stopped s
  | .sizing => Sizing s
  | .waiting => Ready s
  | .downloading => Busy s

/-- What one event may do to the phase: it follows the order of the phases, the pass
is over when `startTimer` is emitted, and `DownloadManager::start` is called only
when no pass is running. -/
structure Moves (s t : State) (p q : Phase) : Prop where
  next : Phase.Next p q
  phase : t.InPhase q
  alive : t.crashed = false
  startTimer : Emits s t .startTimer → q = .stopped
  start : Emits s t .start → p = .stopped

/-! ### Events that do not happen in a phase -/

theorem Resting.no_download (resting : Resting s) (alive : s.crashed = false)
    (takes : step env s e = some t) (stage : e.isStage) : False := by
  obtain ⟨scheduled, replying, posted, downloadTimer⟩ := resting
  rw [step_eq_react alive] at takes
  cases e with
  | nextDownload => simp [react, scheduled] at takes
  | deliver => simp [react, posted] at takes
  | downloadTimer => simp [react, downloadTimer] at takes
  | netData | netProgress | netError | netFinished =>
      simp [react, State.activeReply, replying] at takes
  | _ => cases stage

theorem no_updateStart (starters : s.starters = 0) (alive : s.crashed = false) {accepted : Bool}
    (takes : step env s (.updateStart accepted) = some t) : False := by
  rw [step_eq_react alive] at takes
  simp only [State.starters, Nat.add_eq_zero_iff, Bool.toNat_eq_zero] at starters
  simp [react, starters.1.1, starters.1.2] at takes

theorem no_accountReady (starters : s.starters = 0) (alive : s.crashed = false)
    {info : Option LoginInfo} (takes : step env s (.accountReady info) = some t) : False := by
  rw [step_eq_react alive] at takes
  simp only [State.starters, Nat.add_eq_zero_iff, Bool.toNat_eq_zero] at starters
  simp [react, starters.2] at takes

theorem FtpQuiet.no_ftpTimer (quiet : FtpQuiet s) (alive : s.crashed = false)
    (takes : step env s .ftpTimer = some t) : False := by
  rw [step_eq_react alive] at takes
  simp [react, quiet.timer] at takes

/-! ### A quiet FTP connection -/

/-- Only the queue of `QFtp` has moved, and nothing but its answers is logged. -/
structure FtpOnly (s t : State) : Prop where
  rest : t = { s with ftp := t.ftp, log := t.log }
  log : ∃ acts, t.log = acts ++ s.log ∧ ∀ a ∈ acts, ∃ file failure info,
    a = .listed file info ∨ a = .listFinished file failure

namespace FtpOnly

variable {u : State}

theorem refl (s : State) : FtpOnly s s := ⟨rfl, [], rfl, by simp⟩

theorem trans (first : FtpOnly s t) (second : FtpOnly t u) : FtpOnly s u := by
  obtain ⟨rest, acts, logged, answers⟩ := first
  obtain ⟨rest', acts', logged', answers'⟩ := second
  refine ⟨?_, acts' ++ acts, ?_, ?_⟩
  · rw [rest', rest]
  · rw [logged', logged, List.append_assoc]
  · intro a mem
    exact (List.mem_append.mp mem).elim (answers' a) (answers a)

theorem not_emits (only : FtpOnly s t) {a : Action}
    (other : ∀ file failure info, a ≠ .listed file info ∧ a ≠ .listFinished file failure) :
    ¬ Emits s t a := by
  obtain ⟨-, acts, logged, answers⟩ := only
  rw [emits_iff logged]
  intro mem
  obtain ⟨file, failure, info, same | same⟩ := answers a mem
  · exact (other file failure info).1 same
  · exact (other file failure info).2 same

end FtpOnly

/-- The end of a command that no handler acts on. -/
theorem FtpOnly.ftpDone {failure : Option FtpFailure} {id : ℕ} {command : FtpCommand} (ftp : QFtp)
    (ignored : commandFinished { s with log := answers failure command ++ s.log } id failure =
      { s with log := answers failure command ++ s.log, ftp := ftp }) :
    MediaUpdater.ftpDone s failure id command =
        { s with ftp := ftp.removeFirst, log := answers failure command ++ s.log } ∧
      FtpOnly s (MediaUpdater.ftpDone s failure id command) := by
  have done : MediaUpdater.ftpDone s failure id command =
      { s with ftp := ftp.removeFirst, log := answers failure command ++ s.log } := by
    rw [MediaUpdater.ftpDone, ignored]
  refine ⟨done, ?_⟩
  rw [done]
  refine ⟨rfl, answers failure command, rfl, fun a mem => ?_⟩
  obtain ⟨file, same⟩ := mem_answers mem
  exact ⟨file, failure, ⟨false, false, 0⟩, .inr same⟩

/-- **A quiet connection stays quiet.**  The handlers of `QFtp`'s signals do
nothing. -/
theorem FtpQuiet.next (quiet : FtpQuiet s) (alive : s.crashed = false) (ftp : e.isFtp)
    (orderly : Orderly s e) (takes : step env s e = some t) : FtpOnly s t ∧ FtpQuiet t := by
  rw [step_eq_react alive] at takes
  obtain ⟨once, timer, deaf⟩ := quiet
  cases e with
  | ftpState state =>
      obtain rfl := Option.some.inj takes
      exact ⟨⟨rfl, [], rfl, by simp⟩, once, timer, deaf⟩
  | ftpList info =>
      cases running : s.ftp.pending.head?.bind fun running => running.2.listed? with
      | none => simp [react, running] at takes
      | some file =>
          simp only [react, running, Option.some.injEq] at takes
          have timedOut : s.ftpTimeout = true := by
            rcases deaf with timedOut | empty | ⟨ended, -⟩
            · exact timedOut
            · simp [empty] at running
            · by_contra heard
              have := orderly (by simpa using heard)
              omega
          subst takes
          rw [listInfo_of_ftpTimeout (s := { s with log := .listed file info :: s.log })
            timedOut timer]
          exact ⟨⟨rfl, [.listed file info], rfl, by simp⟩, once, timer, .inl timedOut⟩
  | ftpDone failure =>
      cases pending : s.ftp.pending with
      | nil => simp [react, pending] at takes
      | cons running queued =>
          obtain ⟨id, command⟩ := running
          simp only [react, pending, List.head?_cons, Option.map_some, Option.some.injEq] at takes
          subst takes
          by_cases timedOut : s.ftpTimeout = true
          · obtain ⟨ftp, ignored⟩ := commandFinished_of_ftpTimeout
              (s := { s with log := answers failure command ++ s.log }) timedOut id failure
            obtain ⟨done, only⟩ := FtpOnly.ftpDone ftp ignored
            refine ⟨only, ?_⟩
            rw [done]
            exact ⟨once, timer, .inl timedOut⟩
          · have heard : s.ftpTimeout = false := by simpa using timedOut
            obtain ⟨ended, login⟩ : 0 < s.sizeEnds ∧ LoginDone s := by
              simpa [timedOut, pending] using deaf
            obtain rfl : failure = none := by
              by_contra failed
              have := orderly (Option.isSome_iff_ne_none.mpr failed) heard
              omega
            have other : id ≠ s.loginCommand := login (id, command) (by simp [pending])
            obtain ⟨done, only⟩ := FtpOnly.ftpDone (s := s) s.ftp
              (commandFinished_success
                (s := { s with log := answers none command ++ s.log }) other)
            refine ⟨only, ?_⟩
            rw [done]
            refine ⟨once, timer, .inr (.inr ⟨ended, fun running mem => login running ?_⟩)⟩
            exact List.mem_of_mem_tail mem
  | _ => cases ftp

/-! ### Moves between the phases -/

variable {p q : Phase}

/-- Only the size phase listens to the FTP server. -/
theorem State.InPhase.of_ftpOnly (phase : s.InPhase p) (notSizing : p ≠ .sizing)
    (only : FtpOnly s t) (quiet : FtpQuiet t) : t.InPhase p := by
  have rest := only.rest
  cases p with
  | stopped =>
      refine ⟨?_, quiet, ?_⟩ <;> rw [rest]
      · exact ⟨phase.resting.1, phase.resting.2, phase.resting.3, phase.resting.4⟩
      · exact phase.starters
  | sizing => exact absurd rfl notSizing
  | waiting =>
      refine ⟨?_, quiet, ?_⟩ <;> rw [rest]
      · exact ⟨phase.waiting.1, phase.waiting.2, phase.waiting.3, phase.waiting.4⟩
      · exact phase.starters
  | downloading =>
      obtain ⟨⟨reply, downloading⟩, -, starters⟩ := phase
      refine ⟨⟨reply, ?_⟩, quiet, ?_⟩ <;> rw [rest]
      · exact ⟨downloading.1, downloading.2, downloading.3, downloading.4⟩
      · exact starters

theorem State.InPhase.quiet (phase : s.InPhase p) (notSizing : p ≠ .sizing) : FtpQuiet s := by
  cases p with
  | stopped => exact Stopped.quiet phase
  | sizing => exact absurd rfl notSizing
  | waiting => exact Ready.quiet phase
  | downloading => exact Busy.quiet phase

/-- Only a download has a reply. -/
theorem State.InPhase.replying (phase : s.InPhase p) (notDownloading : p ≠ .downloading) :
    s.currentReply = none := by
  cases p with
  | stopped => exact (Stopped.resting phase).replying
  | sizing => exact (Sizing.resting phase).replying
  | waiting => exact (Ready.waiting phase).replying
  | downloading => exact absurd rfl notDownloading

/-- Outside the size phase the FTP server moves nothing. -/
theorem moves_of_quiet (phase : s.InPhase p) (notSizing : p ≠ .sizing) (alive : s.crashed = false)
    (ftp : e.isFtp) (orderly : Orderly s e) (takes : step env s e = some t) : Moves s t p p := by
  obtain ⟨only, quiet⟩ := (phase.quiet notSizing).next alive ftp orderly takes
  refine ⟨.stay p, phase.of_ftpOnly notSizing only quiet, ?_, fun emitted => ?_, fun emitted => ?_⟩
  · rw [only.rest]
    exact alive
  · exact absurd emitted (only.not_emits fun _ _ _ => ⟨by simp, by simp⟩)
  · exact absurd emitted (only.not_emits fun _ _ _ => ⟨by simp, by simp⟩)

/-- A process that starts again is between two passes. -/
theorem moves_restart (s : State) (p : Phase) : Moves s s.restart p .stopped := by
  have silent (a : Action) : ¬ Emits s s.restart a := by
    rw [emits_iff (show s.restart.log = [] ++ s.log from rfl)]
    simp
  exact ⟨.finish p, ⟨⟨rfl, rfl, rfl, rfl⟩, ⟨Nat.zero_le 1, rfl, .inr (.inl rfl)⟩, rfl⟩, rfl,
    fun _ => rfl, fun emitted => absurd emitted (silent _)⟩

/-- The start of a stage leads to its size phase, to its first `nextDownload`, or to
the end of the pass. -/
theorem getTotalSize_phase (resting : Resting s) (timer : s.ftpTimer = false)
    (starters : s.starters = 0) :
    ∃ q acts, q ≠ .downloading ∧ (getTotalSize s).InPhase q ∧
      (getTotalSize s).crashed = s.crashed ∧ (getTotalSize s).log = acts ++ s.log ∧
      (acts = [] ∨ acts = [.startTimer] ∧ q = .stopped) := by
  obtain ⟨scheduled, replying, posted, downloadTimer⟩ := resting
  rcases getTotalSize_cases s with ⟨-, made⟩ | ⟨-, made⟩ | ⟨-, made⟩
  all_goals rw [made]
  · refine ⟨.waiting, [], by simp, ?_, rfl, rfl, .inl rfl⟩
    exact ⟨⟨by simp [scheduled], replying, posted, downloadTimer⟩,
      ⟨le_rfl, timer, .inr (.inl rfl)⟩, starters⟩
  · refine ⟨.sizing, [], by simp, ?_, rfl, rfl, .inl rfl⟩
    exact ⟨⟨scheduled, replying, posted, downloadTimer⟩, rfl, rfl, rfl,
      .connecting s.idCounter (by simp) rfl, by simp, starters⟩
  · refine ⟨.stopped, [.startTimer], by simp, ?_, rfl, rfl, .inr ⟨rfl, rfl⟩⟩
    refine ⟨⟨scheduled, replying, posted, downloadTimer⟩,
      ⟨Nat.zero_le 1, timer, .inr (.inl rfl)⟩, ?_⟩
    simp only [State.starters, Nat.add_eq_zero_iff] at starters ⊢
    simp [starters.1.2, starters.2]

/-- The controller asks for the account data, or waits for its timer. -/
theorem updateStart_next {accepted : Bool} (one : s.starters = 1)
    (takes : react env s (.updateStart accepted) = some t) :
    t.starters = 1 ∧ ∃ updateTimer startScheduled accountPending,
      t = { s with
        updateTimer := updateTimer
        startScheduled := startScheduled
        accountPending := accountPending } := by
  unfold State.starters at one
  rw [react] at takes
  split at takes
  case isTrue scheduled =>
    obtain rfl := Option.some.inj takes
    obtain ⟨timer, pending⟩ : s.updateTimer.toNat = 0 ∧ s.accountPending.toNat = 0 := by
      rw [scheduled] at one
      simp only [Bool.toNat_true] at one
      omega
    cases accepted with
    | false => exact ⟨rfl, true, false, false, rfl⟩
    | true => exact ⟨by simp [State.starters, updateStart, timer], s.updateTimer, false, true, rfl⟩
  case isFalse scheduled =>
    split at takes
    case isTrue timer =>
      obtain rfl := Option.some.inj takes
      have first : s.startScheduled.toNat = 0 := by simpa using scheduled
      cases accepted with
      | false =>
          exact ⟨by simp [State.starters, updateStart, first], true, s.startScheduled, false, rfl⟩
      | true =>
          exact ⟨by simp [State.starters, updateStart, first], false, s.startScheduled, true, rfl⟩
    case isFalse => cases takes

/-- The account data arrive: the pass starts, or the controller waits again. -/
theorem Stopped.accountReady_moves (stopped : Stopped s) (alive : s.crashed = false)
    {info : Option LoginInfo} (takes : react env s (.accountReady info) = some t) :
    ∃ q, Moves s t .stopped q := by
  obtain ⟨⟨scheduled, replying, posted, downloadTimer⟩, quiet, one⟩ := stopped
  rw [react, Option.ite_none_right_eq_some] at takes
  obtain ⟨pending, took⟩ := takes
  obtain rfl := Option.some.inj took
  obtain ⟨timer, first⟩ : s.updateTimer.toNat = 0 ∧ s.startScheduled.toNat = 0 := by
    unfold State.starters at one
    rw [pending, Bool.toNat_true] at one
    omega
  cases info with
  | none =>
      refine ⟨.stopped, .stay _, ⟨⟨scheduled, replying, posted, downloadTimer⟩,
        ⟨quiet.once, quiet.timer, quiet.deaf⟩, ?_⟩, alive, fun _ => rfl, fun _ => rfl⟩
      simp [State.starters, accountReady, first]
  | some info =>
      obtain ⟨q, acts, notDownloading, phase, crashed, logged, shape⟩ :=
        getTotalSize_phase (s := { s with
          accountPending := false
          fs := ((s.contentManager.setLoginInfo info).fullClear.addNetworkContent env s.fs
            .revision).2
          contentManager := ((s.contentManager.setLoginInfo info).fullClear.addNetworkContent env
            s.fs .revision).1
          revision := true
          contentFiles := []
          log := .start :: s.log })
          ⟨scheduled, replying, posted, downloadTimer⟩ quiet.timer
          (by simp [State.starters, timer, first])
      refine ⟨q, ?_, phase, crashed.trans alive, fun emitted => ?_, fun _ => rfl⟩
      · cases q with
        | stopped => exact .stay _
        | sizing => exact .start
        | waiting => exact .startEmpty
        | downloading => exact absurd rfl notDownloading
      · have mem := mem_of_emits _ (logged.trans (List.append_cons acts .start s.log)) emitted
        rcases shape with rfl | ⟨-, stopped⟩
        · simp at mem
        · exact stopped

/-- Between two passes. -/
theorem Stopped.moves (stopped : Stopped s) (alive : s.crashed = false) (orderly : Orderly s e)
    (takes : step env s e = some t) : ∃ q, Moves s t .stopped q := by
  cases e with
  | restart =>
      obtain rfl := Option.some.inj ((step_eq_react alive).symm.trans takes)
      exact ⟨.stopped, moves_restart s .stopped⟩
  | updateStart accepted =>
      rw [step_eq_react alive] at takes
      obtain ⟨one, updateTimer, startScheduled, accountPending, rfl⟩ :=
        updateStart_next stopped.starters takes
      obtain ⟨⟨scheduled, replying, posted, downloadTimer⟩, ⟨once, timer, deaf⟩, -⟩ := stopped
      exact ⟨.stopped, .stay _, ⟨⟨scheduled, replying, posted, downloadTimer⟩,
        ⟨once, timer, deaf⟩, one⟩, alive, fun _ => rfl, fun _ => rfl⟩
  | accountReady info =>
      rw [step_eq_react alive] at takes
      exact stopped.accountReady_moves alive takes
  | ftpState | ftpList | ftpDone =>
      exact ⟨.stopped, moves_of_quiet (p := .stopped) stopped (by simp) alive rfl orderly takes⟩
  | ftpTimer => exact (stopped.quiet.no_ftpTimer alive takes).elim
  | _ => exact (stopped.resting.no_download alive takes rfl).elim

/-! ### The size phase -/

/-- `nextFtpFile` in a size phase: the phase goes on or ends.  `drop` is what `QFtp`
does to its queue afterwards. -/
theorem nextFtpFile_phase (drop : QFtp → QFtp) (resting : Resting s) (timer : s.ftpTimer = false)
    (ends : s.sizeEnds = 0) (starters : s.starters = 0)
    (login : s.loginCommand < s.idCounter)
    (done : ∀ command, ∀ running ∈ (drop (s.ftp.addCommand s.idCounter command)).pending,
      running.1 ≠ s.loginCommand) :
    ∃ q, (q = .sizing ∨ q = .waiting) ∧
      State.InPhase { nextFtpFile s with ftp := drop (nextFtpFile s).ftp } q ∧
      (nextFtpFile s).log = s.log ∧ (nextFtpFile s).crashed = s.crashed := by
  obtain ⟨scheduled, replying, posted, downloadTimer⟩ := resting
  rcases nextFtpFileOf_cases s s.ftpContentFiles with
    ⟨-, ended⟩ | ⟨skipped, file, rest, -, -, -, listed⟩
  · refine ⟨.waiting, .inr rfl, ?_, ?_, ?_⟩ <;> rw [nextFtpFile, ended]
    · refine ⟨⟨by simp [scheduled], replying, posted, downloadTimer⟩, ?_, starters⟩
      exact ⟨by simp [ends], timer, .inr (.inr ⟨by simp, done .close⟩)⟩
    · rfl
    · rfl
  · refine ⟨.sizing, .inl rfl, ?_, ?_, ?_⟩ <;> rw [nextFtpFile, listed]
    · exact ⟨⟨scheduled, replying, posted, downloadTimer⟩, rfl, rfl, ends,
        .listing (done (.list file)), Nat.lt_succ_of_lt login, starters⟩
    · rfl
    · rfl

/-- The same as a move from the size phase. -/
theorem Sizing.moves_nextFtpFile (drop : QFtp → QFtp) {u : State} {acts : List Action}
    (resting : Resting u) (timer : u.ftpTimer = false) (ends : u.sizeEnds = 0)
    (starters : u.starters = 0) (login : u.loginCommand < u.idCounter)
    (done : ∀ command, ∀ running ∈ (drop (u.ftp.addCommand u.idCounter command)).pending,
      running.1 ≠ u.loginCommand)
    (alive : u.crashed = false) (logged : u.log = acts ++ s.log)
    (answers : ∀ a ∈ acts, ∃ file failure info,
      a = .listed file info ∨ a = .listFinished file failure) :
    ∃ q, Moves s { nextFtpFile u with ftp := drop (nextFtpFile u).ftp } .sizing q := by
  obtain ⟨q, shape, phase, unlogged, crashed⟩ :=
    nextFtpFile_phase drop resting timer ends starters login done
  have silent (a : Action) (emitted : Emits s
      { nextFtpFile u with ftp := drop (nextFtpFile u).ftp } a) : a ∈ acts :=
    mem_of_emits acts (unlogged.trans logged) emitted
  refine ⟨q, ?_, phase, crashed.trans alive, fun emitted => ?_, fun emitted => ?_⟩
  · rcases shape with rfl | rfl
    · exact .stay _
    · exact .sized
  · obtain ⟨file, failure, info, same | same⟩ := answers _ (silent _ emitted) <;> cases same
  · obtain ⟨file, failure, info, same | same⟩ := answers _ (silent _ emitted) <;> cases same

/-- An answer that no handler acts on. -/
theorem Sizing.moves_of_ftpOnly (only : FtpOnly s t) (alive : s.crashed = false)
    (sizing : Sizing t) : ∃ q, Moves s t .sizing q := by
  refine ⟨.sizing, .stay _, sizing, ?_, fun emitted => ?_, fun emitted => ?_⟩
  · rw [only.rest]
    exact alive
  · exact absurd emitted (only.not_emits fun _ _ _ => ⟨by simp, by simp⟩)
  · exact absurd emitted (only.not_emits fun _ _ _ => ⟨by simp, by simp⟩)

/-- A listing line in the size phase. -/
theorem Sizing.ftpList_moves (sizing : Sizing s) (alive : s.crashed = false) {info : QUrlInfo}
    (takes : react env s (.ftpList info) = some t) : ∃ q, Moves s t .sizing q := by
  obtain ⟨⟨scheduled, replying, posted, downloadTimer⟩, -, timeout, ends, queue, login,
    starters⟩ := sizing
  cases running : s.ftp.pending.head?.bind fun running => running.2.listed? with
  | none => simp [react, running] at takes
  | some file =>
      simp only [react, running, Option.some.injEq] at takes
      subst takes
      have done : LoginDone s := by
        cases queue with
        | connecting id other pending => simp [pending, FtpCommand.listed?] at running
        | loggingIn pending => simp [pending, FtpCommand.listed?] at running
        | listing done => exact done
      have done' (command : FtpCommand) :
          ∀ running ∈ (s.ftp.addCommand s.idCounter command).pending,
            running.1 ≠ s.loginCommand := by
        intro running mem
        rcases List.mem_append.mp mem with before | new
        · exact done running before
        · rw [List.mem_singleton.mp new]
          exact Nat.ne_of_gt login
      have answer : ∀ a ∈ [Action.listed file info], ∃ file failure info,
          a = .listed file info ∨ a = .listFinished file failure := by
        simp
      obtain ⟨totalBytes, current, files, manager, appended⟩ := appendListed_eq
        { s with log := .listed file info :: s.log, ftpTimer := false } info.size
      rw [listInfo, if_neg (by simp [timeout]), appended]
      split
      · exact Sizing.moves_nextFtpFile id ⟨scheduled, replying, posted, downloadTimer⟩ rfl ends
          starters login done' alive rfl answer
      · exact Sizing.moves_nextFtpFile id ⟨scheduled, replying, posted, downloadTimer⟩ rfl ends
          starters login done' alive rfl answer

/-- The end of a command in the size phase. -/
theorem Sizing.ftpDone_moves (sizing : Sizing s) (alive : s.crashed = false)
    {failure : Option FtpFailure} (takes : react env s (.ftpDone failure) = some t) :
    ∃ q, Moves s t .sizing q := by
  obtain ⟨⟨scheduled, replying, posted, downloadTimer⟩, timer, timeout, ends, queue, login,
    starters⟩ := sizing
  cases pending : s.ftp.pending with
  | nil => simp [react, pending] at takes
  | cons running queued =>
      obtain ⟨id, command⟩ := running
      simp only [react, pending, List.head?_cons, Option.map_some, Option.some.injEq] at takes
      subst takes
      have answer : ∀ a ∈ answers failure command, ∃ file failure info,
          a = .listed file info ∨ a = .listFinished file failure := by
        intro a mem
        obtain ⟨file, same⟩ := mem_answers mem
        exact ⟨file, failure, ⟨false, false, 0⟩, .inr same⟩
      cases failure with
      | none =>
          by_cases isLogin : id = s.loginCommand
          · -- the login is alone in the queue: nothing is queued before it is answered
            obtain ⟨rfl, rfl⟩ : queued = [] ∧ command = .login := by
              cases queue with
              | connecting id' other pending' =>
                  rw [pending] at pending'
                  simp only [List.cons.injEq, Prod.mk.injEq] at pending'
                  exact absurd (isLogin.symm.trans pending'.1.1).symm other
              | loggingIn pending' => simp_all
              | listing done => exact absurd isLogin (done (id, command) (by simp [pending]))
            subst isLogin
            have handled :=
              commandFinished_login { s with log := answers none .login ++ s.log } timeout
            by_cases loggedIn : s.ftp.state = .loggedIn
            · rw [ftpDone, handled, if_pos loggedIn]
              refine Sizing.moves_nextFtpFile QFtp.removeFirst
                ⟨scheduled, replying, posted, downloadTimer⟩ rfl ends starters login ?_ alive rfl
                answer
              intro command' running mem
              obtain rfl : running = (s.idCounter, command') := by simpa [pending] using mem
              exact Nat.ne_of_gt login
            · obtain ⟨done, only⟩ :=
                FtpOnly.ftpDone s.ftp (handled.trans (if_neg loggedIn))
              refine Sizing.moves_of_ftpOnly only alive ?_
              rw [done]
              exact ⟨⟨scheduled, replying, posted, downloadTimer⟩, timer, timeout, ends,
                .listing (by simp [LoginDone, pending]), login, starters⟩
          · obtain ⟨done, only⟩ := FtpOnly.ftpDone (s := s) s.ftp
              (commandFinished_success _ isLogin)
            refine Sizing.moves_of_ftpOnly only alive ?_
            rw [done]
            refine ⟨⟨scheduled, replying, posted, downloadTimer⟩, timer, timeout, ends, ?_, login,
              starters⟩
            cases queue with
            | connecting id' other pending' => exact .loggingIn (by simp [pending'])
            | loggingIn pending' => simp_all
            | listing done =>
                exact .listing fun running mem => done running (List.mem_of_mem_tail mem)
      | some failure =>
          rw [ftpDone, commandFinished_failure
            { s with log := answers (some failure) command ++ s.log } timeout]
          split
          · refine Sizing.moves_nextFtpFile QFtp.removeFirst
              ⟨scheduled, replying, posted, downloadTimer⟩ rfl ends starters login ?_ alive rfl
              answer
            intro command' running mem
            obtain rfl : running = (s.idCounter, command') := by simpa [pending] using mem
            exact Nat.ne_of_gt login
          · refine ⟨.stopped, .finish _, ⟨⟨scheduled, replying, posted, downloadTimer⟩,
              ⟨by simp [startTimer, ends], rfl, .inr (.inl (by simp [startTimer, pending]))⟩, ?_⟩,
              alive, fun _ => rfl, fun emitted => ?_⟩
            · simp only [State.starters, Nat.add_eq_zero_iff] at starters ⊢
              simp [startTimer, starters.1.2, starters.2]
            · have mem := mem_of_emits (.startTimer :: answers (some failure) command) rfl emitted
              obtain ⟨file, same⟩ := mem_answers (by simpa using mem)
              cases same

/-- The size phase. -/
theorem Sizing.moves (sizing : Sizing s) (alive : s.crashed = false)
    (takes : step env s e = some t) : ∃ q, Moves s t .sizing q := by
  have reacts := (step_eq_react alive).symm.trans takes
  cases e with
  | restart =>
      obtain rfl := Option.some.inj reacts
      exact ⟨.stopped, moves_restart s .sizing⟩
  | updateStart => exact (no_updateStart sizing.starters alive takes).elim
  | accountReady => exact (no_accountReady sizing.starters alive takes).elim
  | ftpState state =>
      obtain rfl := Option.some.inj reacts
      obtain ⟨⟨scheduled, replying, posted, downloadTimer⟩, timer, timeout, ends, queue, login,
        starters⟩ := sizing
      refine Sizing.moves_of_ftpOnly ⟨rfl, [], rfl, by simp⟩ alive
        ⟨⟨scheduled, replying, posted, downloadTimer⟩, timer, timeout, ends, ?_, login, starters⟩
      cases queue with
      | connecting id other pending => exact .connecting id other pending
      | loggingIn pending => exact .loggingIn pending
      | listing done => exact .listing done
  | ftpList info => exact sizing.ftpList_moves alive reacts
  | ftpDone failure => exact sizing.ftpDone_moves alive reacts
  | ftpTimer =>
      obtain ⟨⟨scheduled, replying, posted, downloadTimer⟩, timer, timeout, ends, queue, login,
        starters⟩ := sizing
      simp only [react, timer, if_true, Option.some.injEq] at reacts
      subst reacts
      refine ⟨.stopped, .finish _, ⟨⟨scheduled, replying, posted, downloadTimer⟩,
        ⟨by simp [ftpTimedOut, addFtpCommand, startTimer, ends], rfl, .inl rfl⟩, ?_⟩, alive,
        fun _ => rfl, fun emitted => ?_⟩
      · simp only [State.starters, Nat.add_eq_zero_iff] at starters ⊢
        simp [ftpTimedOut, addFtpCommand, startTimer, starters.1.2, starters.2]
      · have mem := mem_of_emits [.startTimer] rfl emitted
        simp at mem
  | _ => exact (sizing.resting.no_download alive takes rfl).elim

/-! ### The download stage -/

/-- The scheduled `nextDownload` finds the list empty: the second stage starts, or the
pass ends. -/
theorem Ready.stage_moves (ready : Ready s) (alive : s.crashed = false)
    (empty : s.contentFiles = []) :
    ∃ q, Moves s (nextDownload env { s with scheduled := 0 }) .waiting q := by
  obtain ⟨⟨scheduled, replying, posted, downloadTimer⟩, quiet, starters⟩ := ready
  rw [nextDownload_nil env { s with scheduled := 0 } empty]
  split
  · let added := s.contentManager.clear.addNetworkContent env s.fs .advert
    let both := added.1.addNetworkContent env added.2 .music
    obtain ⟨q, acts, notDownloading, phase, crashed, logged, shape⟩ :=
      getTotalSize_phase (s := { s with
        scheduled := 0
        fs := both.2
        contentManager := both.1
        revision := false
        contentFiles := []
        log := .startContent :: s.log }) ⟨rfl, replying, posted, downloadTimer⟩ quiet.timer starters
    have did (a : Action) (emitted : Emits s (startContent env { s with scheduled := 0 }) a) :
        a ∈ acts ++ [.startContent] :=
      mem_of_emits _ (logged.trans (List.append_cons acts .startContent s.log)) emitted
    refine ⟨q, ?_, phase, crashed.trans alive, fun emitted => ?_, fun emitted => ?_⟩
    · cases q with
      | stopped => exact .finish _
      | sizing => exact .content
      | waiting => exact .stay _
      | downloading => exact absurd rfl notDownloading
    · rcases shape with rfl | ⟨-, stopped⟩
      · simpa using did _ emitted
      · exact stopped
    · rcases shape with rfl | ⟨rfl, -⟩ <;> simpa using did _ emitted
  · obtain ⟨fs, manager, before, commits, ended, once⟩ :=
      endPass_eq env { s with scheduled := 0 }
    rw [ended]
    refine ⟨.stopped, .finish _, ⟨⟨rfl, replying, posted, downloadTimer⟩,
      ⟨quiet.once, quiet.timer, quiet.deaf⟩, ?_⟩, alive, fun _ => rfl, fun emitted => ?_⟩
    · simp only [State.starters, Nat.add_eq_zero_iff] at starters ⊢
      simp [starters.1.2, starters.2]
    · have mem := mem_of_emits (.startTimer :: .syncContent before fs :: commits) rfl emitted
      rcases once with rfl | ⟨disk, rfl⟩ <;> simp at mem

/-- Waiting for a scheduled `nextDownload`. -/
theorem Ready.moves (ready : Ready s) (alive : s.crashed = false) (orderly : Orderly s e)
    (takes : step env s e = some t) : ∃ q, Moves s t .waiting q := by
  cases e with
  | restart =>
      obtain rfl := Option.some.inj ((step_eq_react alive).symm.trans takes)
      exact ⟨.stopped, moves_restart s .waiting⟩
  | updateStart => exact (no_updateStart ready.starters alive takes).elim
  | accountReady => exact (no_accountReady ready.starters alive takes).elim
  | ftpState | ftpList | ftpDone =>
      exact ⟨.waiting, moves_of_quiet (p := .waiting) ready (by simp) alive rfl orderly takes⟩
  | ftpTimer => exact (ready.quiet.no_ftpTimer alive takes).elim
  | nextDownload =>
      obtain ⟨-, rfl⟩ := ready.waiting.next alive rfl takes
      by_cases empty : s.contentFiles = []
      · exact ready.stage_moves alive empty
      · obtain ⟨file, rest, left⟩ := List.exists_cons_of_ne_nil empty
        rw [nextDownload_cons env { s with scheduled := 0 } left]
        have did (a : Action)
            (emitted : Emits s (requestFile { s with scheduled := 0 } file rest) a) :
            a ∈ [Action.request s.replies file] := mem_of_emits _ rfl emitted
        exact ⟨.downloading, .request, ⟨⟨_, ready.waiting.request file rest⟩,
          ⟨ready.quiet.once, ready.quiet.timer, ready.quiet.deaf⟩, ready.starters⟩, alive,
          fun emitted => by simpa using did _ emitted, fun emitted => by simpa using did _ emitted⟩
  | _ => exact absurd (ready.waiting.next alive rfl takes).1 (by simp)

/-- A download. -/
theorem Busy.moves (busy : Busy s) (alive : s.crashed = false) (orderly : Orderly s e)
    (takes : step env s e = some t) : ∃ q, Moves s t .downloading q := by
  have stageMoves (stage : e.isStage) : ∃ q, Moves s t .downloading q := by
    obtain ⟨⟨reply, downloading⟩, ⟨once, timer, deaf⟩, starters⟩ := busy
    obtain ⟨acts, logged, only, progress⟩ := downloading.progresses alive stage takes
    have quiet : FtpQuiet t := by
      rw [only]
      exact ⟨once, timer, deaf⟩
    have none : t.starters = 0 := by
      rw [only]
      exact starters
    have alive' : t.crashed = false := by
      rw [only]
      exact alive
    have silent (a : Action) (other : ¬ a.isDownload) : ¬ Emits s t a := by
      rw [emits_iff logged]
      intro mem
      cases progress with
      | goesOn _ _ _ transfers => exact other (transfers a mem).isDownload
      | ends _ _ _ verdicts => exact other (verdicts a mem).isDownload
    have never {P : Prop} (a : Action) (other : ¬ a.isDownload) (emitted : Emits s t a) : P :=
      absurd emitted (silent a other)
    cases progress with
    | goesOn downloading' _ _ _ =>
        exact ⟨.downloading, .stay _, ⟨⟨_, downloading'⟩, quiet, none⟩, alive',
          never _ (by simp [Action.isDownload]), never _ (by simp [Action.isDownload])⟩
    | ends waiting _ _ _ =>
        exact ⟨.waiting, .downloaded, ⟨waiting, quiet, none⟩, alive',
          never _ (by simp [Action.isDownload]), never _ (by simp [Action.isDownload])⟩
  cases e with
  | restart =>
      obtain rfl := Option.some.inj ((step_eq_react alive).symm.trans takes)
      exact ⟨.stopped, moves_restart s .downloading⟩
  | updateStart => exact (no_updateStart busy.starters alive takes).elim
  | accountReady => exact (no_accountReady busy.starters alive takes).elim
  | ftpState | ftpList | ftpDone =>
      exact ⟨.downloading, moves_of_quiet (p := .downloading) busy (by simp) alive rfl orderly
        takes⟩
  | ftpTimer => exact (busy.quiet.no_ftpTimer alive takes).elim
  | _ => exact stageMoves rfl

/-- **The step lemma of the phases.** -/
theorem phase_step (phase : s.InPhase p) (alive : s.crashed = false) (orderly : Orderly s e)
    (takes : step env s e = some t) : ∃ q, Moves s t p q := by
  cases p with
  | stopped => exact Stopped.moves phase alive orderly takes
  | sizing => exact Sizing.moves phase alive takes
  | waiting => exact Ready.moves phase alive orderly takes
  | downloading => exact Busy.moves phase alive orderly takes

/-- **Every reachable state of an orderly run is in a phase**, and no handler has met
a null pointer. -/
theorem phase_reachable (reached : Reachable (step env) Orderly Initial s) :
    s.crashed = false ∧ ∃ p, s.InPhase p := by
  refine reached.invariant (fun s => s.crashed = false ∧ ∃ p, s.InPhase p) ?_ ?_
  · rintro s ⟨fs, rfl⟩
    exact ⟨rfl, .stopped, ⟨rfl, rfl, rfl, rfl⟩, ⟨Nat.zero_le 1, rfl, .inr (.inl rfl)⟩, rfl⟩
  · rintro s e t - ⟨alive, p, phase⟩ orderly takes
    obtain ⟨q, moves⟩ := phase_step phase alive orderly takes
    exact ⟨moves.alive, q, moves.phase⟩

end MediaUpdater
