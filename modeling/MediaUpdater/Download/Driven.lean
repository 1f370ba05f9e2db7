import MediaUpdater.Download.Handlers

/-!
# The updater does not stall

Every handler leaves something behind that will call a handler again: a timer, a
scheduled call, a request that will be answered, a reply that will finish, or the
`finished` signal of a reply in the event queue.  This needs nothing of the server and
of the order of its answers; the only way to come to a halt is a null pointer.

The download timer is not among these things.  `replyError` stops it, and it may be
left running when no reply is outstanding, where its firing dereferences `mCurrentReply`.

## Main results

* `driven_step` — what one event leaves behind.
* `updater_never_stalls` — in every reachable state of every run the process has died
  or one of these things is pending, and the event that it leads to can happen.
-/

namespace MediaUpdater

open Library DownloadManager

variable {env : Env} {s t : State} {e : Event}

/-! ### What drives the updater -/

/-- Something is pending that will call a handler. -/
inductive Driven (s : State) : Prop
  | ftpTimer (active : s.ftpTimer = true)
  | nextDownload (scheduled : 0 < s.scheduled)
  | updateTimer (active : s.updateTimer = true)
  | start (scheduled : s.startScheduled = true)
  | account (pending : s.accountPending = true)
  | reply (reply : Reply) (replying : s.currentReply = some reply)
      (unfinished : reply.finished = false)
  | finished (sender : ℕ) (queued : (sender, Signal.finished) ∈ s.posted)

namespace Event

/-- The events by which the pending things show: timers fire, scheduled calls run,
requests are answered, replies finish and queued signals are delivered. -/
def isDriver : Event → Bool
  | updateStart _ | accountReady _ | ftpTimer | nextDownload | netFinished | deliver => true
  | _ => false

end Event

/-- While `mFtpTimer` runs the answers of the server are heard. -/
def HearsFtp (s : State) : Prop := s.ftpTimer = true → s.ftpTimeout = false

/-- What a handler leaves behind. -/
def LeavesDriven (s : State) : Prop := HearsFtp s ∧ (s.crashed = true ∨ Driven s)

/-- What drives the updater can happen. -/
theorem Driven.enabled (driven : Driven s) (alive : s.crashed = false) :
    ∃ e, e.isDriver ∧ (step env s e).isSome := by
  simp only [step_eq_react alive]
  cases driven with
  | ftpTimer active => exact ⟨.ftpTimer, rfl, by simp [react, active]⟩
  | nextDownload scheduled =>
      obtain ⟨n, scheduled⟩ := Nat.exists_eq_add_of_lt scheduled
      rw [Nat.zero_add] at scheduled
      exact ⟨.nextDownload, rfl, by simp [react, scheduled]⟩
  | updateTimer active =>
      refine ⟨.updateStart true, rfl, ?_⟩
      cases scheduled : s.startScheduled <;> simp [react, scheduled, active]
  | start scheduled => exact ⟨.updateStart true, rfl, by simp [react, scheduled]⟩
  | account pending => exact ⟨.accountReady none, rfl, by simp [react, pending]⟩
  | reply reply replying unfinished =>
      exact ⟨.netFinished, rfl, by simp [react, activeReply_eq replying, unfinished]⟩
  | finished sender queued =>
      obtain ⟨signal, rest, posted⟩ := List.exists_cons_of_ne_nil (List.ne_nil_of_mem queued)
      exact ⟨.deliver, rfl, by simp [react, posted]⟩

/-! ### Handlers that leave everything pending -/

/-- All that was pending is still pending. -/
structure Keeps (s t : State) : Prop where
  ftpTimer : t.ftpTimer = s.ftpTimer
  ftpTimeout : t.ftpTimeout = s.ftpTimeout
  scheduled : s.scheduled ≤ t.scheduled
  updateTimer : t.updateTimer = s.updateTimer
  startScheduled : t.startScheduled = s.startScheduled
  accountPending : t.accountPending = s.accountPending
  replying : t.currentReply.map Reply.finished = s.currentReply.map Reply.finished
  posted : t.posted = s.posted

namespace Keeps

theorem refl (s : State) : Keeps s s := ⟨rfl, rfl, le_rfl, rfl, rfl, rfl, rfl, rfl⟩

theorem driven (keeps : Keeps s t) (driven : Driven s) : Driven t := by
  cases driven with
  | ftpTimer active => exact .ftpTimer (keeps.ftpTimer.trans active)
  | nextDownload scheduled => exact .nextDownload (scheduled.trans_le keeps.scheduled)
  | updateTimer active => exact .updateTimer (keeps.updateTimer.trans active)
  | start scheduled => exact .start (keeps.startScheduled.trans scheduled)
  | account pending => exact .account (keeps.accountPending.trans pending)
  | reply reply replying unfinished =>
      have same := keeps.replying
      rw [replying, Option.map_some, unfinished] at same
      obtain ⟨reply', replying', unfinished'⟩ := Option.map_eq_some_iff.mp same
      exact .reply reply' replying' unfinished'
  | finished sender queued => exact .finished sender (keeps.posted ▸ queued)

theorem hears (keeps : Keeps s t) (hears : HearsFtp s) : HearsFtp t := by
  unfold HearsFtp
  rw [keeps.ftpTimer, keeps.ftpTimeout]
  exact hears

theorem leaves (keeps : Keeps s t) (hears : HearsFtp s) (driven : Driven s) : LeavesDriven t :=
  ⟨keeps.hears hears, .inr (keeps.driven driven)⟩

end Keeps

theorem saveDownloadedFile_keeps (s : State) : Keeps s (saveDownloadedFile s) := by
  cases current : s.currentContentFile with
  | none =>
      simp only [saveDownloadedFile, current]
      exact { Keeps.refl s with }
  | some file =>
      cases replying : s.currentReply with
      | none =>
          simp only [saveDownloadedFile, current]
          split
          · simp only [replying]
            exact { Keeps.refl s with replying := by simp [crash, replying] }
          · exact { Keeps.refl s with replying := by simp [replying] }
      | some reply =>
          obtain ⟨fs, buffer, acts, saved, -⟩ := saveDownloadedFile_eq s current replying
          rw [saved]
          exact { Keeps.refl s with replying := by simp [replying] }

theorem downloadProgress_keeps (s : State) (cb tb : ℤ) : Keeps s (downloadProgress s cb tb) := by
  unfold downloadProgress
  simp only
  split
  · exact { Keeps.refl s with }
  · split
    · split <;> exact { Keeps.refl s with }
    · exact { Keeps.refl s with }

theorem downloadTimedOut_keeps (s : State) : Keeps s (downloadTimedOut s) := by
  cases replying : s.currentReply with
  | none =>
      simp only [downloadTimedOut, replying]
      exact { Keeps.refl s with replying := by simp [crash, replying] }
  | some reply =>
      rw [downloadTimedOut_eq s replying]
      split
      · exact { saveDownloadedFile_keeps { s with downloadTimer := false } with }
      · exact { Keeps.refl s with replying := by simp [replying] }

/-! ### Handlers that leave something new -/

/-- The size phase goes on with a timer, or schedules `nextDownload`. -/
theorem nextFtpFile_leaves (hears : HearsFtp s) : LeavesDriven (nextFtpFile s) := by
  rcases nextFtpFileOf_cases s s.ftpContentFiles with ⟨-, ended⟩ | ⟨_, file, rest, -, -, -, lists⟩
  · rw [nextFtpFile, ended]
    exact ⟨hears, .inr (.nextDownload (Nat.succ_pos _))⟩
  · rw [nextFtpFile, lists]
    exact ⟨fun _ => rfl, .inr (.ftpTimer rfl)⟩

theorem getTotalSize_leaves (hears : HearsFtp s) : LeavesDriven (getTotalSize s) := by
  rcases getTotalSize_cases s with ⟨-, made⟩ | ⟨-, made⟩ | ⟨-, made⟩ <;> rw [made]
  · exact ⟨hears, .inr (.nextDownload (Nat.succ_pos _))⟩
  · exact ⟨fun _ => rfl, .inr (.ftpTimer rfl)⟩
  · exact ⟨hears, .inr (.updateTimer rfl)⟩

theorem nextDownload_leaves (hears : HearsFtp s) : LeavesDriven (nextDownload env s) := by
  cases left : s.contentFiles with
  | nil =>
      rw [nextDownload_nil env s left]
      split
      · exact getTotalSize_leaves hears
      · obtain ⟨fs, manager, before, acts, ended, -⟩ := endPass_eq env s
        rw [ended]
        exact ⟨hears, .inr (.updateTimer rfl)⟩
  | cons file rest =>
      rw [nextDownload_cons env s left]
      exact ⟨hears, .inr (.reply _ rfl rfl)⟩

theorem downloadFinished_leaves (hears : HearsFtp s) (sender : ℕ) :
    LeavesDriven (downloadFinished env s sender) := by
  unfold downloadFinished
  simp only
  split
  · exact ⟨hears, .inl rfl⟩
  · split
    · exact ⟨hears, .inl rfl⟩
    next file _ _ ok _ =>
      obtain ⟨fs, acts, judged, -⟩ :=
        verdict_eq env { s with downloadTimer := false } sender file ok
        (s.fs.fileExists file.stagedPath)
      rw [judged]
      exact ⟨hears, .inr (.nextDownload (Nat.succ_pos _))⟩

/-- A line of a listing goes on with the size phase, unless nobody listens any more. -/
theorem listInfo_leaves (hears : HearsFtp s) (driven : Driven s) (info : QUrlInfo) :
    LeavesDriven (listInfo s info) := by
  by_cases timedOut : s.ftpTimeout = true
  · have idle : s.ftpTimer = false := by
      by_contra active
      rw [Bool.not_eq_false] at active
      simp [hears active] at timedOut
    rw [listInfo_of_ftpTimeout s timedOut idle]
    exact ⟨hears, .inr driven⟩
  · have silent : HearsFtp { s with ftpTimer := false } := fun active => by cases active
    unfold listInfo
    simp only [if_neg timedOut]
    apply nextFtpFile_leaves
    split
    · obtain ⟨_, _, _, _, listed⟩ := appendListed_eq { s with ftpTimer := false } info.size
      rw [listed]
      exact silent
    · exact silent

/-- The end of a command goes on with the size phase, ends the pass, or changes nothing. -/
theorem commandFinished_leaves (hears : HearsFtp s) (driven : Driven s) (id : ℕ)
    (failure : Option FtpFailure) : LeavesDriven (commandFinished s id failure) := by
  cases timedOut : s.ftpTimeout with
  | true =>
      obtain ⟨ftp, ignored⟩ := commandFinished_of_ftpTimeout s timedOut id failure
      rw [ignored]
      exact Keeps.leaves (s := s) { Keeps.refl s with } hears driven
  | false =>
      cases failure with
      | none =>
          by_cases login : id = s.loginCommand
          · subst login
            rw [commandFinished_login s timedOut]
            split
            · exact nextFtpFile_leaves fun _ => timedOut
            · exact ⟨hears, .inr driven⟩
          · rw [commandFinished_success s login]
            exact ⟨hears, .inr driven⟩
      | some failure =>
          rw [commandFinished_failure s timedOut]
          split
          · exact nextFtpFile_leaves fun _ => timedOut
          · exact ⟨fun _ => timedOut, .inr (.updateTimer rfl)⟩

/-- A queued signal that is not `finished` may be taken from the queue. -/
theorem Driven.tail {sender : ℕ} {signal : Signal} {rest : List (ℕ × Signal)} (driven : Driven s)
    (posted : s.posted = (sender, signal) :: rest) (other : signal ≠ .finished) :
    Driven { s with posted := rest } := by
  cases driven with
  | ftpTimer active => exact .ftpTimer active
  | nextDownload scheduled => exact .nextDownload scheduled
  | updateTimer active => exact .updateTimer active
  | start scheduled => exact .start scheduled
  | account pending => exact .account pending
  | reply reply replying unfinished => exact .reply reply replying unfinished
  | finished sender' queued =>
      rw [posted] at queued
      cases queued with
      | head => exact absurd rfl other
      | tail _ queued => exact .finished sender' queued

/-- A signal of the current reply joins the queue. -/
theorem Driven.emits {reply reply' : Reply} {signal : Signal} (driven : Driven s)
    (replying : s.currentReply = some reply)
    (finished : reply'.finished = reply.finished ∨ signal = .finished) :
    Driven (s.emits reply' signal) := by
  rcases finished with same | rfl
  · cases driven with
    | ftpTimer active => exact .ftpTimer active
    | nextDownload scheduled => exact .nextDownload scheduled
    | updateTimer active => exact .updateTimer active
    | start scheduled => exact .start scheduled
    | account pending => exact .account pending
    | reply current replying' unfinished =>
        obtain rfl := Option.some.inj (replying.symm.trans replying')
        exact .reply reply' rfl (same.trans unfinished)
    | finished sender queued => exact .finished sender (List.mem_append_left _ queued)
  · exact .finished reply'.id (List.mem_append_right _ (List.mem_singleton_self _))

/-! ### Steps and runs -/

theorem deliver_leaves (hears : HearsFtp s) (driven : Driven s) {sender : ℕ} {signal : Signal}
    {rest : List (ℕ × Signal)} (posted : s.posted = (sender, signal) :: rest) :
    LeavesDriven (deliver env { s with posted := rest } sender signal) := by
  have hears' : HearsFtp { s with posted := rest } := hears
  cases signal with
  | readyRead => exact (saveDownloadedFile_keeps _).leaves hears' (driven.tail posted (by simp))
  | downloadProgress cb tb =>
      exact (downloadProgress_keeps _ cb tb).leaves hears' (driven.tail posted (by simp))
  | error =>
      have keeps : Keeps { s with posted := rest } (replyError { s with posted := rest }) :=
        { Keeps.refl { s with posted := rest } with }
      exact keeps.leaves hears' (driven.tail posted (by simp))
  | finished => exact downloadFinished_leaves hears' sender

/-- **What one event leaves behind.** -/
theorem driven_step (hears : HearsFtp s) (driven : Driven s) (takes : react env s e = some t) :
    LeavesDriven t := by
  have emitted (change : Reply → Reply) (signal : Signal)
      (finished : ∀ reply, (change reply).finished = reply.finished ∨ signal = .finished)
      (takes : s.activeReply.map (fun reply => s.emits (change reply) signal) = some t) :
      LeavesDriven t := by
    obtain ⟨reply, active, rfl⟩ := Option.map_eq_some_iff.mp takes
    obtain ⟨replying, -⟩ := Option.filter_eq_some_iff.mp active
    exact ⟨hears, .inr (driven.emits replying (finished reply))⟩
  cases e with
  | restart =>
      obtain rfl := Option.some.inj takes
      exact ⟨fun active => (by cases active), .inr (.start rfl)⟩
  | updateStart accepted =>
      have leaves (u : State) (hears : HearsFtp u) : LeavesDriven (updateStart u accepted) := by
        cases accepted with
        | true => exact ⟨hears, .inr (.account rfl)⟩
        | false => exact ⟨hears, .inr (.updateTimer rfl)⟩
      simp only [react] at takes
      split at takes
      · obtain rfl := Option.some.inj takes
        exact leaves _ hears
      · split at takes
        · obtain rfl := Option.some.inj takes
          exact leaves _ hears
        · cases takes
  | accountReady info =>
      simp only [react, Option.ite_none_right_eq_some, Option.some.injEq] at takes
      obtain ⟨-, rfl⟩ := takes
      cases info with
      | none => exact ⟨hears, .inr (.updateTimer rfl)⟩
      | some info => exact getTotalSize_leaves hears
  | ftpState state =>
      obtain rfl := Option.some.inj takes
      exact Keeps.leaves (s := s) { Keeps.refl s with } hears driven
  | ftpList info =>
      simp only [react] at takes
      split at takes
      next file _ =>
        obtain rfl := Option.some.inj takes
        have keeps : Keeps s { s with log := .listed file info :: s.log } :=
          { Keeps.refl s with }
        exact listInfo_leaves (keeps.hears hears) (keeps.driven driven) info
      · cases takes
  | ftpDone failure =>
      obtain ⟨⟨id, command⟩, -, rfl⟩ := Option.map_eq_some_iff.mp takes
      have keeps : Keeps s { s with log := answers failure command ++ s.log } :=
        { Keeps.refl s with }
      obtain ⟨hears', finished⟩ :=
        commandFinished_leaves (keeps.hears hears) (keeps.driven driven) id failure
      refine ⟨hears', finished.imp_right fun driven => ?_⟩
      have removed (u : State) : Keeps u { u with ftp := u.ftp.removeFirst } :=
        { Keeps.refl u with }
      exact (removed _).driven driven
  | ftpTimer =>
      simp only [react, Option.ite_none_right_eq_some, Option.some.injEq] at takes
      obtain ⟨-, rfl⟩ := takes
      exact ⟨fun active => (by cases active), .inr (.updateTimer rfl)⟩
  | nextDownload =>
      simp only [react] at takes
      split at takes
      · cases takes
      · obtain rfl := Option.some.inj takes
        exact nextDownload_leaves hears
  | netData bytes =>
      exact emitted (fun reply => { reply with
        buffer := reply.buffer ++ bytes, delivered := reply.delivered ++ bytes }) .readyRead
        (fun _ => .inl rfl) takes
  | netProgress cb tb => exact emitted id (.downloadProgress cb tb) (fun _ => .inl rfl) takes
  | netError =>
      exact emitted (fun reply => { reply with error := true }) .error (fun _ => .inl rfl) takes
  | netFinished =>
      exact emitted (fun reply => { reply with finished := true }) .finished
        (fun _ => .inr rfl) takes
  | deliver =>
      simp only [react] at takes
      split at takes
      · cases takes
      next sender signal rest posted =>
        obtain rfl := Option.some.inj takes
        exact deliver_leaves hears driven posted
  | downloadTimer =>
      simp only [react, Option.ite_none_right_eq_some, Option.some.injEq] at takes
      obtain ⟨-, rfl⟩ := takes
      exact (downloadTimedOut_keeps s).leaves hears driven

/-- What the handlers leave behind, in every reachable state of every run. -/
theorem leavesDriven_reachable (reached : Reachable (step env) (fun _ _ => True) Initial s) :
    LeavesDriven s := by
  refine reached.invariant LeavesDriven ?_ fun s e t _ leaves _ takes => ?_
  · rintro s ⟨fs, rfl⟩
    exact ⟨fun active => (by cases active), .inr (.start rfl)⟩
  · by_cases restart : e.isRestart
    · cases e with
      | restart =>
          have restarted : step env s .restart =
            some s.restart := by simp [step, react, Event.isRestart]
          obtain rfl := Option.some.inj (restarted.symm.trans takes)
          exact ⟨fun active => (by cases active), .inr (.start rfl)⟩
      | _ => cases restart
    · have alive := alive_of_step (Bool.eq_false_iff.mpr restart) takes
      rw [step_eq_react alive] at takes
      obtain ⟨hears, crashed | driven⟩ := leaves
      · simp [alive] at crashed
      · exact driven_step hears driven takes

/-- **The updater does not stall.**  Whatever the servers and the disk do and in whatever
order the events come, the process has died of a null pointer, or something is pending that
will call a handler, and it can. -/
theorem updater_never_stalls (reached : Reachable (step env) (fun _ _ => True) Initial s) :
    s.crashed = true ∨ Driven s ∧ ∃ e, e.isDriver ∧ (step env s e).isSome := by
  obtain ⟨-, crashed | driven⟩ := leavesDriven_reachable reached
  · exact .inl crashed
  · cases alive : s.crashed with
    | true => exact .inl rfl
    | false => exact .inr ⟨driven, driven.enabled alive⟩

/-- The server does not answer and the size phase has timed out: the next pass will come. -/
theorem updater_never_stalls_demo :
    ∃ s, s.ftpTimeout = true ∧ s.ftpTimer = false ∧ s.currentReply.isNone ∧
      ∃ e, e.isDriver ∧ (step .demo s e).isSome := by
  have plays : (execute (step .demo) (fun _ _ => True) (State.boot .blank)
      [.updateStart true, .accountReady (some .demo), .ftpTimer]).map
        (fun s => (s.crashed, s.ftpTimeout, s.ftpTimer, s.currentReply.isNone)) =
      some (false, true, false, true) := by
    decide
  obtain ⟨s, played, facts⟩ := Option.map_eq_some_iff.mp plays
  simp only [Prod.mk.injEq] at facts
  obtain ⟨alive, timedOut, idle, none⟩ := facts
  refine ⟨s, timedOut, idle, none, ?_⟩
  rcases updater_never_stalls ⟨_, _, ⟨_, rfl⟩, .of_execute played⟩ with crashed | ⟨-, takes⟩
  · simp [alive] at crashed
  · exact takes

end MediaUpdater
