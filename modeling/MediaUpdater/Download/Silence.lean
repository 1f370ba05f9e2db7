import MediaUpdater.Download.SingleFlight

/-!
# A silent server

When the server says nothing more, a pass is driven by its two timers alone.  The
network then delivers only what it still owes: the `error` and `finished` signals
of a reply that was aborted, and `finished` of a reply that has already failed.

`patience` bounds the number of events that such a pass has left.  Every one of
them lowers it, with one exception: `downloadTimeout` that finds bytes in the
buffer calls `saveDownloadedFile`, which starts the timer again even when the file
cannot be opened and the bytes stay where they are.  So the events are bounded as
long as a file with bytes waiting for it can be opened (`Opens`), and a file that
can never be opened keeps the timer firing forever.

## Main results

* `patience_step` — every event of a silent server lowers the patience.
* `attended_reachable` — a reply that is still outstanding has its timer running.
* `silent_server_ends_pass`, `silent_server_stalls` — a silent server ends the pass.
-/

namespace MediaUpdater

open Library DownloadManager FileSystem

variable {env : Env} {s t : State} {e : Event}

/-! ### Silence -/

/-- The network still owes `finished` to the reply: it was aborted, or it has failed. -/
def Reply.owesFinished (reply : Reply) : Bool := reply.aborted || reply.error

/-- The events of a pass whose server is silent. -/
def Silent (s : State) : Event → Prop
  | .ftpTimer | .nextDownload | .deliver | .downloadTimer => True
  | .netError => ∃ reply ∈ s.currentReply, reply.aborted ∧ reply.error = false
  | .netFinished => ∃ reply ∈ s.currentReply, reply.owesFinished
  | _ => False

/-- The bytes that wait in the buffer of the current reply. -/
def State.buffered (s : State) : ℕ :=
  (s.currentReply.map fun reply => reply.buffer.length).getD 0

/-- When the download timer fires and bytes wait in the buffer, the file can be
opened. -/
def Opens (s : State) : Event → Prop
  | .downloadTimer => 0 < s.buffered → s.fs.outcomes.openAppend.head = true
  | _ => True

instance (s : State) : DecidablePred (Silent s)
  | .ftpTimer | .nextDownload | .deliver | .downloadTimer => .isTrue trivial
  | .netError => inferInstanceAs
      (Decidable (∃ reply ∈ s.currentReply, reply.aborted ∧ reply.error = false))
  | .netFinished => inferInstanceAs (Decidable (∃ reply ∈ s.currentReply, reply.owesFinished))
  | .restart | .updateStart _ | .accountReady _ | .ftpState _ | .ftpList _ | .ftpDone _ | .netData _
  | .netProgress _ _ => .isFalse id

instance (s : State) : DecidablePred (Opens s)
  | .downloadTimer =>
      inferInstanceAs (Decidable (0 < s.buffered → s.fs.outcomes.openAppend.head = true))
  | .restart | .updateStart _ | .accountReady _ | .ftpState _ | .ftpList _ | .ftpDone _ | .ftpTimer
  | .nextDownload | .netData _ | .netProgress _ _ | .netError | .netFinished | .deliver =>
      .isTrue trivial

/-- What is still to come from a reply when the server is silent: its bytes are saved,
it fails, it finishes. -/
def Reply.patience (reply : Reply) : ℕ :=
  (!reply.buffer.isEmpty).toNat + 3 * (!reply.error).toNat + 3 * (!reply.finished).toNat

/-- A bound for the events that a silent server leaves. -/
def State.patience (s : State) : ℕ :=
  s.downloadTimer.toNat + s.ftpTimer.toNat + s.revision.toNat + s.scheduled + 2 * s.posted.length +
    7 * s.contentFiles.length + (s.currentReply.map Reply.patience).getD 0

namespace Silent

theorem orderly (silent : Silent s e) : Orderly s e := by
  cases e with
  | ftpList | ftpDone => exact absurd silent id
  | _ => trivial

theorem not_isRestart (silent : Silent s e) : e.isRestart = false := by
  cases e with
  | restart => exact absurd silent id
  | _ => rfl

/-- The events of a silent server belong to the download stage, except for the FTP
timer. -/
theorem isStage (silent : Silent s e) (other : e ≠ .ftpTimer) : e.isStage := by
  cases e with
  | ftpTimer => exact absurd rfl other
  | nextDownload | deliver | downloadTimer | netError | netFinished => rfl
  | _ => exact absurd silent id

end Silent

/-! ### Every event lowers the patience -/

namespace Reply

variable (reply : Reply)

theorem patience_saved_le : { reply with buffer := [] }.patience ≤ reply.patience := by
  simp [patience]

theorem patience_saved_lt (waits : reply.buffer ≠ []) :
    { reply with buffer := [] }.patience < reply.patience := by
  have one : (!reply.buffer.isEmpty).toNat = 1 := by simp [waits]
  simp only [patience, one, List.isEmpty_nil, Bool.not_true, Bool.toNat_false]
  omega

/-- A reply that was just requested. -/
theorem patience_requested (id : ℕ) (file : SContentInfo) :
    ({ id := id, file := file } : Reply).patience = 6 := rfl

end Reply

section Patience

variable (s)

theorem patience_stopped_le : { s with downloadTimer := false }.patience ≤ s.patience := by
  simp [State.patience]

/-- A signal that the reply emits is paid for by what it leaves of the reply. -/
theorem patience_emits {reply reply' : Reply} (signal : Signal)
    (replying : s.currentReply = some reply) (less : reply'.patience + 3 ≤ reply.patience) :
    (s.emits reply' signal).patience < s.patience := by
  simp [State.patience, State.emits, replying]
  omega

/-- Saving starts the timer; the buffer can only shrink. -/
theorem patience_saveDownloadedFile :
    (saveDownloadedFile s).patience ≤ { s with downloadTimer := false }.patience + 1 := by
  unfold saveDownloadedFile
  split
  · exact Nat.le_succ _
  · simp only
    split
    · split
      · exact Nat.le_succ _
      next reply replying =>
        have less := reply.patience_saved_le
        split <;> simp [State.patience, replying] <;> omega
    · simp [State.patience]
      omega

/-- When the file opens, the bytes that waited are gone. -/
theorem patience_saveDownloadedFile_lt (opens : s.fs.outcomes.openAppend.head = true)
    {reply : Reply} (replying : s.currentReply = some reply) (waits : reply.buffer ≠ []) :
    (saveDownloadedFile s).patience < { s with downloadTimer := true }.patience := by
  have less := reply.patience_saved_lt waits
  unfold saveDownloadedFile
  split
  · simp [State.patience, crash]
  · simp only [openAppend_fst, opens, if_true]
    split
    next none => simp [replying] at none
    next reply' replying' =>
      obtain rfl := Option.some.inj (replying.symm.trans replying')
      rw [if_neg waits]
      simp [State.patience, replying]
      omega

/-- The buffer is empty when the file opens. -/
theorem buffered_saveDownloadedFile (opens : s.fs.outcomes.openAppend.head = true)
    {file : SContentInfo} (current : s.currentContentFile = some file) :
    (saveDownloadedFile s).buffered = 0 := by
  unfold saveDownloadedFile
  split
  next none => simp [current] at none
  · simp only [openAppend_fst, opens, if_true]
    split
    next none => simp [State.buffered, crash, none]
    · split <;> simp [State.buffered]

/-- `downloadFinished` gives the reply up and schedules one call. -/
theorem patience_downloadFinished (sender : ℕ) :
    (downloadFinished env s sender).patience ≤ { s with downloadTimer := false }.patience + 1 := by
  unfold downloadFinished
  simp only
  split
  · exact Nat.le_succ _
  next file current =>
    split
    · exact Nat.le_succ _
    next ok tested =>
      obtain ⟨fs, acts, judged, -⟩ :=
        verdict_eq env { s with downloadTimer := false } sender file ok
          (s.fs.fileExists file.stagedPath)
      rw [judged]
      simp [State.patience, scheduleNextDownload]
      omega

/-- The timer is all that `downloadProgress` starts. -/
theorem patience_downloadProgress (cb tb : ℤ) :
    (downloadProgress s cb tb).patience ≤ s.patience + 1 := by
  have timer (b : Bool) : b.toNat ≤ 1 := Bool.toNat_le b
  unfold downloadProgress
  simp only
  split
  · simp [State.patience]
    omega
  · split
    · split <;> simp [State.patience, crash] <;> omega
    · simp [State.patience]
      omega

/-- The start of a stage schedules one call or waits for the FTP server. -/
theorem patience_getTotalSize : (getTotalSize s).patience ≤ s.patience + 1 := by
  rcases getTotalSize_cases s with ⟨-, made⟩ | ⟨-, made⟩ | ⟨-, made⟩ <;> rw [made] <;>
    simp [State.patience] <;> omega

/-- A scheduled `nextDownload` uses up itself, a file or the first stage. -/
theorem patience_nextDownload (n : ℕ) (scheduled : s.scheduled = n + 1) :
    (nextDownload env { s with scheduled := n }).patience < s.patience := by
  by_cases empty : s.contentFiles = []
  · rw [nextDownload_nil env { s with scheduled := n } empty]
    split
    next first =>
      have started : (startContent env { s with scheduled := n }).patience ≤
          { s with scheduled := n, revision := false, contentFiles := [] }.patience + 1 :=
        patience_getTotalSize _
      have first' : s.revision = true := first
      refine started.trans_lt ?_
      simp [State.patience, scheduled, empty, first']
      omega
    · obtain ⟨fs, manager, before, acts, ended, -⟩ := endPass_eq env { s with scheduled := n }
      rw [ended]
      simp [State.patience, scheduled]
  · obtain ⟨file, rest, left⟩ := List.exists_cons_of_ne_nil empty
    rw [nextDownload_cons env { s with scheduled := n } left]
    have fresh := Reply.patience_requested s.replies file
    have timer := Bool.toNat_le s.downloadTimer
    simp [State.patience, requestFile, scheduled, left, fresh]
    omega

end Patience

/-- **Every event of a silent server lowers the patience.** -/
theorem patience_step (silent : Silent s e) (opens : Opens s e)
    (takes : step env s e = some t) : t.patience < s.patience := by
  rw [step_eq_react (alive_of_step silent.not_isRestart takes)] at takes
  cases e with
  | ftpTimer =>
      rw [react, Option.ite_none_right_eq_some] at takes
      obtain ⟨runs, fired⟩ := takes
      obtain rfl := Option.some.inj fired
      simp [State.patience, ftpTimedOut, startTimer, addFtpCommand, runs]
  | nextDownload =>
      simp only [react] at takes
      split at takes
      · cases takes
      next n scheduled =>
        obtain rfl := Option.some.inj takes
        exact patience_nextDownload s n scheduled
  | deliver =>
      simp only [react] at takes
      split at takes
      · cases takes
      next sender signal rest posted =>
        obtain rfl := Option.some.inj takes
        have taken : { s with posted := rest }.patience + 2 = s.patience := by
          simp [State.patience, posted]
          omega
        have stopped := patience_stopped_le { s with posted := rest }
        have handled : (deliver env { s with posted := rest } sender signal).patience ≤
            { s with posted := rest }.patience + 1 := by
          cases signal with
          | readyRead =>
              have saved := patience_saveDownloadedFile { s with posted := rest }
              exact saved.trans (Nat.succ_le_succ stopped)
          | downloadProgress cb tb => exact patience_downloadProgress _ cb tb
          | error => exact stopped.trans (Nat.le_succ _)
          | finished =>
              have finished :
                  (downloadFinished env { s with posted := rest } sender).patience ≤ _ :=
                patience_downloadFinished { s with posted := rest } sender
              exact finished.trans (Nat.succ_le_succ stopped)
        omega
  | downloadTimer =>
      rw [react, Option.ite_none_right_eq_some] at takes
      obtain ⟨runs, fired⟩ := takes
      obtain rfl := Option.some.inj fired
      have stopped : { s with downloadTimer := false }.patience < s.patience := by
        simp [State.patience, runs]
      unfold downloadTimedOut
      simp only
      split
      · exact stopped
      next reply replying =>
        split
        next waits =>
          have buffered : 0 < s.buffered := by
            simpa [State.buffered, replying] using List.length_pos_iff.mpr waits
          have saved := patience_saveDownloadedFile_lt { s with downloadTimer := false }
            (opens buffered) replying waits
          refine saved.trans_eq ?_
          simp [State.patience, runs]
        · refine lt_of_eq_of_lt ?_ stopped
          simp [State.patience, replying, Reply.patience]
  | netError =>
      obtain ⟨reply, replying, -, unfailed⟩ := silent
      simp only [react, activeReply_eq replying] at takes
      split at takes
      · cases takes
      · obtain rfl := Option.some.inj takes
        exact patience_emits s .error replying (by simp [Reply.patience, unfailed]; omega)
  | netFinished =>
      obtain ⟨reply, replying, -⟩ := silent
      simp only [react, activeReply_eq replying] at takes
      split at takes
      · cases takes
      next unfinished =>
        obtain rfl := Option.some.inj takes
        exact patience_emits s .finished replying (by simp [Reply.patience, unfinished])
  | _ => exact absurd silent id

/-! ### An outstanding reply has its timer running -/

/-- The reply is looked after: unless it is aborted or has failed, the download timer is
running; and an `error` in the queue is the failure of this reply. -/
structure Attended (s : State) (reply : Reply) : Prop where
  timer : reply.owesFinished = false → s.downloadTimer = true
  failed : ∀ sender, (sender, Signal.error) ∈ s.posted → reply.error = true

namespace Attended

variable {reply reply' : Reply}

/-- The timer was started again. -/
theorem of_timer (attended : Attended s reply) (timer : t.downloadTimer = true)
    (posted : t.posted ⊆ s.posted) (error : reply'.error = reply.error) : Attended t reply' := by
  refine ⟨fun _ => timer, fun sender mem => ?_⟩
  rw [error]
  exact attended.failed sender (posted mem)

/-- Nothing that matters has changed. -/
theorem congr (attended : Attended s reply) (timer : t.downloadTimer = s.downloadTimer)
    (posted : t.posted = s.posted) : Attended t reply :=
  ⟨fun owes => timer.trans (attended.timer owes),
    fun sender mem => attended.failed sender (posted ▸ mem)⟩

/-- The reply emits a signal; it emits `error` when it fails. -/
theorem emits (attended : Attended s reply) (signal : Signal)
    (aborted : reply'.aborted = reply.aborted)
    (error : signal ≠ .error ∧ reply'.error = reply.error ∨ reply'.error = true) :
    Attended (s.emits reply' signal) reply' := by
  rcases error with ⟨other, error⟩ | failed
  · refine ⟨fun owes => attended.timer ?_, fun sender mem => ?_⟩
    · simpa [Reply.owesFinished, aborted, error] using owes
    · rw [error]
      refine attended.failed sender ?_
      simpa [State.emits, other.symm] using mem
  · exact ⟨fun owes => by simp [Reply.owesFinished, failed] at owes, fun _ _ => failed⟩

end Attended

/-- Every event of a download keeps the reply attended. -/
theorem Downloading.attended {reply : Reply} (downloading : Downloading s reply)
    (attended : Attended s reply) (alive : s.crashed = false) (stage : e.isStage)
    (takes : step env s e = some t) :
    ∀ reply', t.currentReply = some reply' → Attended t reply' := by
  rw [step_eq_react alive] at takes
  have replying := downloading.replying
  obtain ⟨file, current, -⟩ := downloading.current
  have emitted (change : Reply → Reply) (signal : Signal)
      (aborted : (change reply).aborted = reply.aborted)
      (error : signal ≠ .error ∧ (change reply).error = reply.error ∨ (change reply).error = true)
      (takes : s.activeReply.map (fun reply => s.emits (change reply) signal) = some t) :
      ∀ reply', t.currentReply = some reply' → Attended t reply' := by
    rw [activeReply_eq replying] at takes
    split at takes
    · cases takes
    · obtain rfl := Option.some.inj takes
      rintro reply' ⟨⟩
      exact attended.emits signal aborted error
  cases e with
  | nextDownload => simp [react, downloading.scheduled] at takes
  | netData bytes => exact emitted _ .readyRead rfl (.inl ⟨by simp, rfl⟩) takes
  | netProgress cb tb => exact emitted _ (.downloadProgress cb tb) rfl (.inl ⟨by simp, rfl⟩) takes
  | netError => exact emitted _ .error rfl (.inr rfl) takes
  | netFinished => exact emitted _ .finished rfl (.inl ⟨by simp, rfl⟩) takes
  | downloadTimer =>
      rw [react, Option.ite_none_right_eq_some] at takes
      obtain ⟨-, fired⟩ := takes
      obtain rfl := Option.some.inj fired
      rw [downloadTimedOut_eq s replying]
      split
      · obtain ⟨fs, buffer, acts, saved, -⟩ :=
          saveDownloadedFile_eq { s with downloadTimer := false } current replying
        rw [saved]
        rintro reply' ⟨⟩
        exact attended.of_timer rfl (List.Subset.refl _) rfl
      · rintro reply' ⟨⟩
        exact ⟨fun owes => by simp [Reply.owesFinished] at owes, attended.failed⟩
  | deliver =>
      simp only [react] at takes
      split at takes
      · cases takes
      next sender signal rest posted =>
        obtain rfl := Option.some.inj takes
        have fewer : rest ⊆ s.posted := by
          rw [posted]
          exact List.subset_cons_self _ _
        cases signal with
        | readyRead =>
            obtain ⟨fs, buffer, acts, saved, -⟩ :=
              saveDownloadedFile_eq { s with posted := rest } current replying
            simp only [deliver]
            rw [saved]
            rintro reply' ⟨⟩
            exact attended.of_timer rfl fewer rfl
        | downloadProgress cb tb =>
            obtain ⟨currentBytes, lastBytes, full, file', progressed, -⟩ :=
              downloadProgress_eq { s with posted := rest } cb tb current
            simp only [deliver]
            rw [progressed]
            intro reply' replying'
            obtain rfl := Option.some.inj (replying.symm.trans replying')
            exact attended.of_timer rfl fewer rfl
        | error =>
            intro reply' replying'
            obtain rfl := Option.some.inj (replying.symm.trans replying')
            have failed := attended.failed sender (by simp [posted])
            exact ⟨fun owes => by simp [Reply.owesFinished, failed] at owes, fun _ _ => failed⟩
        | finished =>
            obtain ⟨fs, acts, finished, -⟩ :=
              downloadFinished_eq env { s with posted := rest } sender current replying
            simp only [deliver]
            rw [finished]
            intro reply' none
            cases none
  | _ => cases stage

/-- A scheduled `nextDownload` that finds the list empty starts the second stage or ends
the pass: the reply is left alone, and the controller is called only by
`startTimer`. -/
theorem nextDownload_nil_frame (env : Env) (s : State) (empty : s.contentFiles = []) :
    (nextDownload env s).currentReply = s.currentReply ∧
      ∃ acts, (nextDownload env s).log = acts ++ s.log ∧
        (.startTimer ∈ acts ∨ (nextDownload env s).starters = s.starters) := by
  rw [nextDownload_nil env s empty]
  split
  · unfold startContent
    simp only
    rcases getTotalSize_cases _ with ⟨-, made⟩ | ⟨-, made⟩ | ⟨-, made⟩ <;> rw [made]
    · exact ⟨rfl, [.startContent], rfl, .inr rfl⟩
    · exact ⟨rfl, [.startContent], rfl, .inr rfl⟩
    · exact ⟨rfl, [.startTimer, .startContent], rfl, .inl (by simp)⟩
  · obtain ⟨fs, manager, before, acts, ended, -⟩ := endPass_eq env s
    rw [ended]
    exact ⟨rfl, .startTimer :: .syncContent before fs :: acts, rfl, .inl (by simp)⟩

/-- **In every reachable state of an orderly run an outstanding reply is attended.** -/
theorem attended_reachable (reached : Reachable (step env) Orderly Initial s) :
    ∀ reply, s.currentReply = some reply → Attended s reply := by
  refine reached.invariant (fun s => ∀ reply, s.currentReply = some reply → Attended s reply) ?_ ?_
  · rintro s ⟨fs, rfl⟩ reply none
    cases none
  intro s e t reached attended orderly takes
  obtain ⟨alive, p, phase⟩ := phase_reachable reached
  have reacts := (step_eq_react alive).symm.trans takes
  -- a step into a phase without a reply
  have away {q : Phase} (phase : t.InPhase q) (other : q ≠ .downloading) :
      ∀ reply, t.currentReply = some reply → Attended t reply := by
    intro reply replying
    rw [phase.replying other] at replying
    cases replying
  obtain ⟨q, moves⟩ := phase_step phase alive orderly takes
  have next := moves.next
  cases p with
  | stopped => exact away moves.phase (by rintro rfl; cases next)
  | sizing => exact away moves.phase (by rintro rfl; cases next)
  | waiting =>
      have ready : Ready s := phase
      cases e with
      | ftpState | ftpList | ftpDone =>
          have still := moves_of_quiet (p := .waiting) phase (by simp) alive rfl orderly takes
          exact away still.phase (by simp)
      | restart =>
          obtain rfl := Option.some.inj reacts
          exact away (moves_restart s .waiting).phase (by simp)
      | updateStart => exact (no_updateStart ready.starters alive takes).elim
      | accountReady => exact (no_accountReady ready.starters alive takes).elim
      | ftpTimer => exact (ready.quiet.no_ftpTimer alive takes).elim
      | nextDownload =>
          obtain ⟨-, rfl⟩ := ready.waiting.next alive rfl takes
          by_cases empty : s.contentFiles = []
          · intro reply replying
            have none := (nextDownload_nil_frame env { s with scheduled := 0 } empty).1
            rw [none, ready.waiting.replying] at replying
            cases replying
          · obtain ⟨file, rest, left⟩ := List.exists_cons_of_ne_nil empty
            rw [nextDownload_cons env { s with scheduled := 0 } left]
            rintro reply ⟨⟩
            refine ⟨fun _ => rfl, fun sender mem => ?_⟩
            simp [requestFile, ready.waiting.posted] at mem
      | _ => exact absurd (ready.waiting.next alive rfl takes).1 (by simp)
  | downloading =>
      obtain ⟨⟨reply, downloading⟩, quiet, starters⟩ : Busy s := phase
      have before := attended reply downloading.replying
      cases e with
      | ftpState | ftpList | ftpDone =>
          obtain ⟨only, -⟩ := quiet.next alive rfl orderly takes
          intro reply' replying
          rw [only.rest] at replying ⊢
          exact (attended reply' replying).congr rfl rfl
      | restart =>
          obtain rfl := Option.some.inj reacts
          exact away (moves_restart s .downloading).phase (by simp)
      | updateStart => exact (no_updateStart starters alive takes).elim
      | accountReady => exact (no_accountReady starters alive takes).elim
      | ftpTimer => exact (quiet.no_ftpTimer alive takes).elim
      | _ => exact downloading.attended before alive rfl takes

/-! ### The pass ends -/

/-- The FTP timer ends the pass. -/
theorem ftpTimer_emits (alive : s.crashed = false) (takes : step env s .ftpTimer = some t) :
    Emits s t .startTimer := by
  rw [step_eq_react alive, react, Option.ite_none_right_eq_some] at takes
  obtain ⟨-, fired⟩ := takes
  obtain rfl := Option.some.inj fired
  exact ⟨[.startTimer], rfl, by simp⟩

/-- **The download timer** aborts the reply or takes bytes from its buffer. -/
theorem downloadTimer_progress (reached : Reachable (step env) Orderly Initial s)
    (opens : Opens s .downloadTimer) (takes : step env s .downloadTimer = some t) :
    (∃ id, Emits s t (.abort id)) ∨ t.buffered < s.buffered := by
  obtain ⟨alive, p, phase⟩ := phase_reachable reached
  have outstanding : p = .downloading := by
    by_contra other
    have timer : s.downloadTimer = false := by
      cases p with
      | stopped => exact (Stopped.resting phase).downloadTimer
      | sizing => exact (Sizing.resting phase).downloadTimer
      | waiting => exact (Ready.waiting phase).downloadTimer
      | downloading => exact absurd rfl other
    rw [step_eq_react alive] at takes
    simp [react, timer] at takes
  subst outstanding
  obtain ⟨⟨reply, downloading⟩, -, -⟩ : Busy s := phase
  obtain ⟨file, current, -⟩ := downloading.current
  have replying := downloading.replying
  rw [step_eq_react alive, react, Option.ite_none_right_eq_some] at takes
  obtain ⟨-, fired⟩ := takes
  obtain rfl := Option.some.inj fired
  rw [downloadTimedOut_eq s replying]
  split
  next waits =>
    have buffered : s.buffered = reply.buffer.length := by simp [State.buffered, replying]
    have some : 0 < reply.buffer.length := List.length_pos_iff.mpr waits
    refine .inr ?_
    rw [buffered_saveDownloadedFile { s with downloadTimer := false } (opens (buffered ▸ some))
      current, buffered]
    exact some
  · exact .inl ⟨reply.id, [.abort reply.id], rfl, by simp⟩

/-- A silent server's event leaves the controller alone unless `startTimer` is
emitted. -/
theorem silent_step (reached : Reachable (step env) Orderly Initial s) (silent : Silent s e)
    (takes : step env s e = some t) :
    ∃ acts, t.log = acts ++ s.log ∧ (.startTimer ∈ acts ∨ t.starters = s.starters) := by
  obtain ⟨alive, p, phase⟩ := phase_reachable reached
  by_cases ftp : e = .ftpTimer
  · subst ftp
    obtain ⟨acts, logged, emitted⟩ := ftpTimer_emits alive takes
    exact ⟨acts, logged, .inl emitted⟩
  have stage := silent.isStage ftp
  cases p with
  | stopped => exact ((Stopped.resting phase).no_download alive takes stage).elim
  | sizing => exact ((Sizing.resting phase).no_download alive takes stage).elim
  | waiting =>
      obtain ⟨rfl, rfl⟩ := (Ready.waiting phase).next alive stage takes
      by_cases empty : s.contentFiles = []
      · exact (nextDownload_nil_frame env { s with scheduled := 0 } empty).2
      · obtain ⟨file, rest, left⟩ := List.exists_cons_of_ne_nil empty
        rw [nextDownload_cons env { s with scheduled := 0 } left]
        exact ⟨[.request s.replies file], rfl, .inr rfl⟩
  | downloading =>
      obtain ⟨⟨reply, downloading⟩, -, -⟩ : Busy s := phase
      obtain ⟨acts, logged, only, -⟩ := downloading.progresses alive stage takes
      refine ⟨acts, logged, .inr ?_⟩
      rw [only]
      rfl

/-- **A pass that is not over is never stuck**: a timer runs, or a call or a signal is
pending. -/
theorem silent_enabled (reached : Reachable (step env) Orderly Initial s)
    (running : s.starters = 0) : ∃ e t, Silent s e ∧ step env s e = some t := by
  obtain ⟨alive, p, phase⟩ := phase_reachable reached
  have enabled {e : Event} (silent : Silent s e) (reacts : (react env s e).isSome) :
      ∃ e t, Silent s e ∧ step env s e = some t := by
    obtain ⟨t, reacts⟩ := Option.isSome_iff_exists.mp reacts
    exact ⟨e, t, silent, (step_eq_react alive).trans reacts⟩
  cases p with
  | stopped =>
      have one := Stopped.starters phase
      omega
  | sizing => exact enabled (e := .ftpTimer) trivial (by simp [react, Sizing.timer phase])
  | waiting =>
      exact enabled (e := .nextDownload) trivial
        (by simp [react, (Ready.waiting phase).scheduled])
  | downloading =>
      obtain ⟨⟨reply, downloading⟩, -, -⟩ : Busy s := phase
      have replying := downloading.replying
      have attended := attended_reachable reached reply replying
      cases posted : s.posted with
      | cons signal rest => exact enabled (e := .deliver) trivial (by simp [react, posted])
      | nil =>
          have unfinished : reply.finished = false := by
            obtain ⟨signals, -, split⟩ := downloading.queued
            cases finished : reply.finished with
            | false => rfl
            | true => simp [posted, finished] at split
          cases owes : reply.owesFinished with
          | true =>
              exact enabled (e := .netFinished) ⟨reply, replying, owes⟩
                (by simp [react, activeReply_eq replying, unfinished])
          | false =>
              exact enabled (e := .downloadTimer) trivial (by simp [react, attended.timer owes])

/-- What the two timers do in a state. -/
structure TimersProgress (env : Env) (s : State) : Prop where
  /-- The download timer aborts the reply or takes bytes from its buffer. -/
  download : ∀ t, Opens s .downloadTimer → step env s .downloadTimer = some t →
    (∃ id, Emits s t (.abort id)) ∨ t.buffered < s.buffered
  /-- The FTP timer ends the pass. -/
  ftp : ∀ t, step env s .ftpTimer = some t → Emits s t .startTimer

/-- **A silent server cannot hold up a pass**, as long as a file for which bytes wait can
be opened: the events that follow are bounded in number, each firing of a timer makes
progress, and when nothing can happen any more `startTimer` has been emitted. -/
theorem silent_server_ends_pass (reached : Reachable (step env) Orderly Initial s)
    (run : Run (step env) (fun s e => Silent s e ∧ Opens s e) s es t) :
    es.length ≤ s.patience ∧ TimersProgress env t ∧
      (s.starters = 0 → (∀ e u, Silent t e → step env t e ≠ some u) → Emits s t .startTimer) := by
  have bound : es.length + t.patience ≤ s.patience :=
    run.length_add_measure_le fun _ _ _ meets takes => patience_step meets.1 meets.2 takes
  have reached' : Reachable (step env) Orderly Initial t :=
    reached.run (run.mono fun _ _ meets => meets.1.orderly)
  refine ⟨by omega, ⟨fun u opens takes => downloadTimer_progress reached' opens takes,
    fun u takes => ?_⟩, fun running stuck => ?_⟩
  · exact ftpTimer_emits (alive_of_step rfl takes) takes
  · have tracked := run.invariant (fun u => Reachable (step env) Orderly Initial u ∧
        ∃ acts, u.log = acts ++ s.log ∧ (.startTimer ∈ acts ∨ u.starters = s.starters)) ?_
        ⟨reached, [], rfl, .inr rfl⟩
    · obtain ⟨-, acts, logged, emitted | same⟩ := tracked
      · exact ⟨acts, logged, emitted⟩
      · obtain ⟨e, u, silent, takes⟩ := silent_enabled reached' (same.trans running)
        exact absurd takes (stuck e u silent)
    · rintro u e v ⟨reached, acts, logged, outcome⟩ ⟨silent, -⟩ takes
      refine ⟨reached.next silent.orderly takes, ?_⟩
      obtain ⟨acts', logged', outcome'⟩ := silent_step reached silent takes
      refine ⟨acts' ++ acts, by rw [logged', logged, List.append_assoc], ?_⟩
      rcases outcome with before | same
      · exact .inl (List.mem_append_right acts' before)
      · rcases outcome' with now | same'
        · exact .inl (List.mem_append_left acts now)
        · exact .inr (same'.trans same)

/-- A pass in which the server has a single control file, up to the first bytes of its
download. -/
def toOnlyDownload : List Event :=
  [.updateStart true, .accountReady (some .demo), .ftpState .loggedIn, .ftpDone none, .ftpDone none,
    .ftpList (.regular 2), .ftpDone none, .ftpDone (some .noSuchFile), .ftpDone (some .noSuchFile),
    .ftpDone (some .noSuchFile), .ftpDone (some .noSuchFile), .nextDownload, .netData [1, 2]]

/-- A pass whose only download is cut short: two bytes are saved, the reply is aborted, and
the pass ends. -/
theorem silent_server_ends_pass_demo :
    ∃ s t, (s.buffered = 2 ∧ t.buffered = 0) ∧ Emits s t .startTimer := by
  have plays : (execute (step .demo) Orderly (State.boot .blank) toOnlyDownload).map
      (fun s => (s.buffered, s.starters,
        (execute (step .demo) (fun s e => Silent s e ∧ Opens s e) s
          [.deliver, .downloadTimer, .netFinished, .deliver, .nextDownload, .nextDownload]).map
          fun t => (t.scheduled + t.posted.length, t.downloadTimer || t.ftpTimer,
            t.currentReply.isSome))) = some (2, 0, some (0, false, false)) := by
    decide
  obtain ⟨s, played, facts⟩ := Option.map_eq_some_iff.mp plays
  simp only [Prod.mk.injEq] at facts
  obtain ⟨buffered, running, silent⟩ := facts
  obtain ⟨t, ends, facts⟩ := Option.map_eq_some_iff.mp silent
  simp only [Prod.mk.injEq, Nat.add_eq_zero_iff, List.length_eq_zero_iff, Bool.or_eq_false_iff,
    Option.isSome_eq_false_iff, Option.isNone_iff_eq_none] at facts
  obtain ⟨⟨scheduled, posted⟩, ⟨downloadTimer, ftpTimer⟩, none⟩ := facts
  obtain ⟨-, -, stopped⟩ :=
    silent_server_ends_pass ⟨_, _, ⟨_, rfl⟩, .of_execute played⟩ (.of_execute ends)
  refine ⟨s, t, ⟨buffered, by simp [State.buffered, none]⟩,
    stopped running fun e u silent takes => ?_⟩
  rw [step_eq_react (alive_of_step silent.not_isRestart takes)] at takes
  cases e with
  | ftpTimer | nextDownload | deliver | downloadTimer | netError | netFinished =>
      simp [react, State.activeReply, scheduled, posted, downloadTimer, ftpTimer, none] at takes
  | _ => exact absurd silent id

/-! ### A file that cannot be opened -/

/-- A disk on which no file can be opened for appending. -/
def FileSystem.demoReadOnly : FileSystem :=
  { FileSystem.blank with outcomes := { Outcomes.success with openAppend := .const false } }

/-- When the file can never be opened, the download timer fires and nothing changes. -/
theorem step_downloadTimer_stalls {reply : Reply} {file : SContentInfo}
    (alive : s.crashed = false) (timer : s.downloadTimer = true)
    (current : s.currentContentFile = some file) (replying : s.currentReply = some reply)
    (waits : reply.buffer ≠ []) (never : s.fs.outcomes.openAppend = .const false) :
    step env s .downloadTimer = some s := by
  rw [step_eq_react alive, react, if_pos timer, downloadTimedOut_eq s replying, if_pos waits]
  obtain ⟨⟨files, settings, outcomes, toLower⟩, _⟩ := s
  obtain ⟨remove, removeRecursively, openAppend, write, openRead, rename, copy⟩ := outcomes
  cases timer
  cases current
  cases never
  rfl

/-- The bytes of the first download can never be saved: the download timer fires as often
as one likes, and the pass does not end. -/
theorem silent_server_stalls :
    ∃ s, Reachable (step .demo) Orderly Initial s ∧ s.starters = 0 ∧
      ∀ n, Run (step .demo) Silent s (List.replicate n .downloadTimer) s := by
  have plays : (execute (step .demo) Orderly (State.boot .demoReadOnly) toOnlyDownload).map
      (fun s => ((s.crashed, s.downloadTimer, s.starters), s.currentContentFile.isSome,
        s.currentReply.map Reply.buffer)) = some ((false, true, 0), true, some [1, 2]) := by
    decide
  have never : (execute (step .demo) Orderly (State.boot .demoReadOnly) toOnlyDownload).map
      (fun s => s.fs.outcomes.openAppend) = some (.const false) := rfl
  obtain ⟨s, played, facts⟩ := Option.map_eq_some_iff.mp plays
  rw [played, Option.map_some, Option.some.injEq] at never
  simp only [Prod.mk.injEq] at facts
  obtain ⟨⟨alive, timer, running⟩, isSome, buffer⟩ := facts
  obtain ⟨file, current⟩ := Option.isSome_iff_exists.mp isSome
  obtain ⟨reply, replying, waits⟩ := Option.map_eq_some_iff.mp buffer
  have stalls : step .demo s .downloadTimer = some s :=
    step_downloadTimer_stalls alive timer current replying (by simp [waits]) never
  refine ⟨s, ⟨_, _, ⟨_, rfl⟩, .of_execute played⟩, running, fun n => ?_⟩
  induction n with
  | zero => exact .nil s
  | succ n ih => exact .cons trivial stalls ih

end MediaUpdater
