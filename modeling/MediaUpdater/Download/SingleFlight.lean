import MediaUpdater.Download.Phase

/-!
# One thing at a time

In an orderly run a pass waits for one thing at a time — an FTP answer, a
scheduled `nextDownload` or a reply — and passes do not overlap.  Both are read
off the phases of `MediaUpdater.Download.Phase`.

Neither holds of every run.  A listing line or a failure that arrives when the
size phase has already scheduled `nextDownload` is handled as if the phase were
still going on: `nextFtpFile` finds its list empty once more and schedules a
second chain of downloads, and a fatal error emits `startTimer` while the files
are being downloaded.

## Main results

* `single_flight`, `single_flight_fails` — at most one thing is pending.
* `passes_never_overlap`, `passes_overlap` — `startTimer` is emitted when the pass
  is over.
-/

namespace MediaUpdater

open Library DownloadManager

variable {env : Env} {s t : State} {e : Event}

/-! ### Single flight -/

/-- The server can still give an answer that a handler acts on. -/
def AwaitsFtp (env : Env) (s : State) : Prop :=
  ∃ e t, e.isFtp ∧ Orderly s e ∧ step env s e = some t ∧ ¬ FtpOnly s t

/-- At most one thing is pending: an FTP answer to act on, a `nextDownload` or a
reply. -/
structure SingleFlight (env : Env) (s : State) : Prop where
  /-- One `nextDownload` at most, and no reply with it. -/
  scheduled : s.scheduled + s.currentReply.isSome.toNat ≤ 1
  /-- Neither of them while the size phase waits for an answer. -/
  awaitsFtp : AwaitsFtp env s → s.scheduled = 0 ∧ s.currentReply = none
  /-- The size phase has scheduled `nextDownload` at most once. -/
  sizeEnds : s.sizeEnds ≤ 1
  /-- A request is made only when no reply is outstanding. -/
  request : ∀ t, step env s .nextDownload = some t → s.currentReply = none

/-- Outside a size phase no answer is acted on. -/
theorem FtpQuiet.not_awaitsFtp (quiet : FtpQuiet s) (alive : s.crashed = false) :
    ¬ AwaitsFtp env s := by
  rintro ⟨e, t, ftp, orderly, takes, acts⟩
  exact acts (quiet.next alive ftp orderly takes).1

/-- **Single-flight downloading**, in every reachable state of an orderly run. -/
theorem single_flight (reached : Reachable (step env) Orderly Initial s) : SingleFlight env s := by
  obtain ⟨alive, p, phase⟩ := phase_reachable reached
  cases p with
  | stopped =>
      have stopped : Stopped s := phase
      have replying := stopped.resting.replying
      exact ⟨by simp [stopped.resting.scheduled, replying],
        fun _ => ⟨stopped.resting.scheduled, replying⟩, stopped.quiet.once, fun _ _ => replying⟩
  | sizing =>
      have sizing : Sizing s := phase
      have replying := sizing.resting.replying
      exact ⟨by simp [sizing.resting.scheduled, replying],
        fun _ => ⟨sizing.resting.scheduled, replying⟩, by simp [sizing.ends], fun _ _ => replying⟩
  | waiting =>
      have ready : Ready s := phase
      have replying := ready.waiting.replying
      exact ⟨by simp [ready.waiting.scheduled, replying],
        fun awaits => absurd awaits (ready.quiet.not_awaitsFtp alive), ready.quiet.once,
        fun _ _ => replying⟩
  | downloading =>
      obtain ⟨⟨reply, downloading⟩, quiet, -⟩ : Busy s := phase
      refine ⟨by simp [downloading.scheduled, downloading.replying],
        fun awaits => absurd awaits (quiet.not_awaitsFtp alive), quiet.once, fun t takes => ?_⟩
      rw [step_eq_react alive] at takes
      simp [react, downloading.scheduled] at takes

/-! #### A run that is not orderly -/

/-- A line of a listing that is a regular file. -/
def QUrlInfo.regular (size : ℤ) : QUrlInfo := ⟨true, true, size⟩

/-- A pass up to the last `LIST` of its first size phase, with one line for each of the
other control files. -/
def toLastListing : List Event :=
  [.updateStart true, .accountReady (some .demo), .ftpState .loggedIn, .ftpDone none, .ftpDone none,
    .ftpList (.regular 1), .ftpDone none, .ftpList (.regular 1), .ftpDone none,
    .ftpList (.regular 1), .ftpDone none, .ftpList (.regular 1), .ftpDone none]

/-- A second line in the listing of the last control file schedules a second
`nextDownload`. -/
theorem single_flight_fails :
    ∃ s, Reachable (step .demo) (fun _ _ => True) Initial s ∧ ¬ SingleFlight .demo s := by
  have plays : (execute (step .demo) (fun _ _ => True) (State.boot .blank)
      (toLastListing ++ [.ftpList (.regular 1), .ftpList (.regular 1)])).map State.scheduled =
        some 2 := by
    decide
  obtain ⟨s, played, twice⟩ := Option.map_eq_some_iff.mp plays
  refine ⟨s, ⟨_, _, ⟨.blank, rfl⟩, .of_execute played⟩, fun flight => ?_⟩
  have once := flight.scheduled
  omega

/-- An orderly run to the first download of a pass. -/
theorem single_flight_demo :
    ∃ s, (s.scheduled = 1 ∧ s.contentFiles.length = 5) ∧ SingleFlight .demo s := by
  have plays : (execute (step .demo) Orderly (State.boot .blank)
      (toLastListing ++ [.ftpList (.regular 1), .ftpDone none])).map
        (fun s => (s.scheduled, s.contentFiles.length)) = some (1, 5) := by
    decide
  obtain ⟨s, played, facts⟩ := Option.map_eq_some_iff.mp plays
  exact ⟨s, by simpa using facts, single_flight ⟨_, _, ⟨.blank, rfl⟩, .of_execute played⟩⟩

/-! ### Passes do not overlap -/

/-- The pass is over: no `nextDownload` is scheduled, no reply is outstanding, no signal
is queued, no timer of the pass runs, and whatever the FTP server still answers is
ignored. -/
structure PassOver (env : Env) (s : State) : Prop where
  resting : Resting s
  ftpTimer : s.ftpTimer = false
  deaf : ∀ es t, Run (step env) (fun s e => e.isFtp ∧ Orderly s e) s es t → FtpOnly s t

theorem Stopped.passOver (stopped : Stopped s) (alive : s.crashed = false) : PassOver env s := by
  refine ⟨stopped.resting, stopped.quiet.timer, fun es t run => ?_⟩
  have ignores := run.invariant (fun t => t.crashed = false ∧ FtpQuiet t ∧ FtpOnly s t) ?_
    ⟨alive, stopped.quiet, .refl s⟩
  · exact ignores.2.2
  · rintro u e v ⟨alive, quiet, only⟩ ⟨ftp, orderly⟩ takes
    obtain ⟨only', quiet'⟩ := quiet.next alive ftp orderly takes
    refine ⟨?_, quiet', only.trans only'⟩
    rw [only'.rest]
    exact alive

/-- **Update passes never overlap** in an orderly run: `startTimer` is emitted into a
state in which the pass is over, and `DownloadManager::start` is called only in such
a state. -/
theorem passes_never_overlap (reached : Reachable (step env) Orderly Initial s)
    (orderly : Orderly s e) (takes : step env s e = some t) :
    (Emits s t .startTimer → PassOver env t) ∧ (Emits s t .start → PassOver env s) := by
  obtain ⟨alive, p, phase⟩ := phase_reachable reached
  obtain ⟨q, moves⟩ := phase_step phase alive orderly takes
  constructor
  · intro emitted
    obtain rfl := moves.startTimer emitted
    exact Stopped.passOver moves.phase moves.alive
  · intro emitted
    obtain rfl := moves.start emitted
    exact Stopped.passOver phase alive

/-- A pass that starts: no other pass is running. -/
theorem passes_never_overlap_demo :
    ∃ s, s.accountPending = true ∧ PassOver .demo s := by
  have plays : (execute (step .demo) Orderly (State.boot .blank) [.updateStart true]).map
      (fun s => (s.crashed, s.accountPending)) = some (false, true) := by
    decide
  obtain ⟨s, played, facts⟩ := Option.map_eq_some_iff.mp plays
  simp only [Prod.mk.injEq] at facts
  obtain ⟨alive, pending⟩ := facts
  have takes : step .demo s (.accountReady (some .demo)) =
      some (start .demo { s with accountPending := false } .demo) := by
    rw [step_eq_react alive]
    simp [react, pending, accountReady]
  obtain ⟨acts, started⟩ := start_log .demo { s with accountPending := false } .demo
  have overlap := passes_never_overlap (e := .accountReady (some .demo))
    ⟨_, _, ⟨.blank, rfl⟩, .of_execute played⟩ trivial takes
  exact ⟨s, pending, overlap.2 ⟨acts ++ [.start], by simpa using started, by simp⟩⟩

/-- A `QUIT` that fails because the connection is gone emits `startTimer`, whatever the
download stage is doing. -/
theorem step_quit_notConnected (env : Env) {id : ℕ} (alive : s.crashed = false)
    (heard : s.ftpTimeout = false)
    (pending : s.ftp.pending = [(id, .close)]) :
    ∃ t, step env s (.ftpDone (some .notConnected)) = some t ∧ Emits s t .startTimer ∧
      t.scheduled = s.scheduled := by
  refine ⟨ftpDone s (some .notConnected) id .close, ?_, ?_⟩
  · rw [step_eq_react alive]
    simp [react, pending]
  · rw [ftpDone, commandFinished_failure
      { s with log := answers (some .notConnected) .close ++ s.log } heard]
    exact ⟨⟨[.startTimer], rfl, by simp⟩, rfl⟩

/-- The control connection is gone when the size phase closes it, so the `QUIT` fails:
the pass is declared over when its first download is about to start. -/
theorem passes_overlap :
    ∃ s e t, Reachable (step .demo) (fun _ _ => True) Initial s ∧ step .demo s e = some t ∧
      Emits s t .startTimer ∧ ¬ PassOver .demo t := by
  have plays : (execute (step .demo) (fun _ _ => True) (State.boot .blank)
      (toLastListing ++ [.ftpList (.regular 1), .ftpDone none])).map
        (fun s => (s.crashed, s.ftpTimeout, s.ftp.pending, s.scheduled)) =
        some (false, false, [(7, .close)], 1) := by
    decide
  obtain ⟨s, played, facts⟩ := Option.map_eq_some_iff.mp plays
  simp only [Prod.mk.injEq] at facts
  obtain ⟨alive, heard, pending, scheduled⟩ := facts
  obtain ⟨t, takes, emitted, same⟩ := step_quit_notConnected .demo alive heard pending
  refine ⟨s, _, t, ⟨_, _, ⟨.blank, rfl⟩, .of_execute played⟩, takes, emitted, fun stopped => ?_⟩
  have none := stopped.resting.scheduled
  omega

end MediaUpdater
