import MediaUpdater.Download.Handlers

/-!
# What the updater queues

Between the construction of a `QFtp` and the next one the handlers queue at most one command
at a time, and always behind the others.  Once a `QUIT` is queued, or `mFtpTimeout` is set,
no further `LIST` is.

## Main results

* `ftpCommandFinished_grows`, `listInfo_grows` — the handlers of the signals of `QFtp`.
* `step_grows` — the events that do not concern `QFtp`.
-/

namespace MediaUpdater

open Library DownloadManager

variable {env : Env} {s t u : State} {e : Event}

/-- The size phase asks for no further file. -/
def Over (s : State) : Prop := s.ftpTimeout = true ∨ s.ftpContentFiles = []

/-- The queue of `t` is that of `s`, or has one command more. -/
structure Grows (s t : State) : Prop where
  pending : (t.ftp.pending = s.ftp.pending ∧ t.idCounter = s.idCounter) ∨
    ∃ command, t.ftp.pending = s.ftp.pending ++ [(s.idCounter, command)] ∧
      t.idCounter = s.idCounter + 1 ∧ (command = .close → Over t) ∧ (command ≠ .close → ¬ Over s)
  stays : Over s → Over t

/-- Nothing that has to do with the queue is changed. -/
structure LeavesFtp (s t : State) : Prop where
  ftp : t.ftp = s.ftp
  idCounter : t.idCounter = s.idCounter
  ftpTimeout : t.ftpTimeout = s.ftpTimeout
  ftpContentFiles : t.ftpContentFiles = s.ftpContentFiles

namespace LeavesFtp

theorem trans (first : LeavesFtp s t) (second : LeavesFtp t u) : LeavesFtp s u where
  ftp := second.ftp.trans first.ftp
  idCounter := second.idCounter.trans first.idCounter
  ftpTimeout := second.ftpTimeout.trans first.ftpTimeout
  ftpContentFiles := second.ftpContentFiles.trans first.ftpContentFiles

theorem grows (leaves : LeavesFtp s t) : Grows s t where
  pending := .inl ⟨by rw [leaves.ftp], leaves.idCounter⟩
  stays ended := by
    rw [Over, leaves.ftpTimeout, leaves.ftpContentFiles]
    exact ended

end LeavesFtp

/-! ### The handlers of `QFtp` -/

theorem nextFtpFile_grows (heard : s.ftpTimeout = false) : Grows s (nextFtpFile s) := by
  rcases nextFtpFileOf_cases s s.ftpContentFiles with ⟨-, ended⟩
    | ⟨skipped, file, rest, split, -, -, lists⟩
  · rw [nextFtpFile, ended]
    exact ⟨.inr ⟨.close, rfl, rfl, fun _ => .inr rfl, fun other => absurd rfl other⟩,
      fun _ => .inr rfl⟩
  · have more : ¬ Over s := by
      rintro (timedOut | empty)
      · simp [heard] at timedOut
      · simp [empty] at split
    rw [nextFtpFile, lists]
    exact ⟨.inr ⟨.list file, rfl, rfl, nofun, fun _ => more⟩, fun ended => absurd ended more⟩

theorem nextFtpFile_crashed (s : State) : (nextFtpFile s).crashed = s.crashed := by
  rcases nextFtpFileOf_cases s s.ftpContentFiles with ⟨-, ended⟩ | ⟨_, _, _, _, -, -, lists⟩
  · rw [nextFtpFile, ended]
    rfl
  · rw [nextFtpFile, lists]
    rfl

/-- The queue may be prepared in a way that leaves what matters. -/
theorem Grows.of_leaves (grows : Grows t u) (leaves : LeavesFtp s t) : Grows s u where
  pending := by
    have same : Over t ↔ Over s := by rw [Over, Over, leaves.ftpTimeout, leaves.ftpContentFiles]
    rw [← leaves.ftp, ← leaves.idCounter, ← same]
    exact grows.pending
  stays ended := grows.stays (leaves.grows.stays ended)

/-- The running command stays the same. -/
theorem Grows.head (grows : Grows s t) {running : ℕ × FtpCommand}
    (head : s.ftp.pending.head? = some running) : t.ftp.pending.head? = some running := by
  rcases grows.pending with ⟨same, -⟩ | ⟨command, more, -⟩
  · rw [same, head]
  · rw [more, List.head?_append, head]
    rfl

theorem listInfo_grows (s : State) (info : QUrlInfo) : Grows s (listInfo s info) := by
  unfold listInfo
  simp only
  split
  · exact LeavesFtp.grows ⟨rfl, rfl, rfl, rfl⟩
  · rename_i heard
    rw [Bool.not_eq_true] at heard
    split
    · obtain ⟨_, _, _, _, listed⟩ := appendListed_eq { s with ftpTimer := false } info.size
      rw [listed]
      exact (nextFtpFile_grows (by exact heard)).of_leaves ⟨rfl, rfl, rfl, rfl⟩
    · exact (nextFtpFile_grows (by exact heard)).of_leaves ⟨rfl, rfl, rfl, rfl⟩

theorem listInfo_crashed (s : State) (info : QUrlInfo) : (listInfo s info).crashed = s.crashed := by
  unfold listInfo
  simp only
  split
  · rfl
  · rw [nextFtpFile_crashed]
    split
    · obtain ⟨_, _, _, _, listed⟩ := appendListed_eq { s with ftpTimer := false } info.size
      rw [listed]
    · rfl

theorem ftpCommandFinished_grows (s : State) (id : ℕ) (error : Bool) :
    Grows s (ftpCommandFinished s id error) := by
  unfold ftpCommandFinished
  simp only
  split
  · exact LeavesFtp.grows ⟨rfl, rfl, rfl, rfl⟩
  · rename_i heard
    rw [Bool.not_eq_true] at heard
    split
    · split
      · exact (nextFtpFile_grows (by exact heard)).of_leaves ⟨rfl, rfl, rfl, rfl⟩
      · exact LeavesFtp.grows ⟨rfl, rfl, rfl, rfl⟩
    · split
      · exact (nextFtpFile_grows (by exact heard)).of_leaves ⟨rfl, rfl, rfl, rfl⟩
      · exact LeavesFtp.grows ⟨rfl, rfl, rfl, rfl⟩

theorem ftpCommandFinished_crashed (s : State) (id : ℕ) (error : Bool) :
    (ftpCommandFinished s id error).crashed = s.crashed := by
  unfold ftpCommandFinished
  simp only
  split
  · rfl
  · split
    · split
      · exact nextFtpFile_crashed _
      · rfl
    · split
      · exact nextFtpFile_crashed _
      · rfl

/-! ### The other events -/

theorem saveDownloadedFile_leavesFtp (s : State) : LeavesFtp s (saveDownloadedFile s) := by
  unfold saveDownloadedFile
  simp only
  split
  · exact ⟨rfl, rfl, rfl, rfl⟩
  · split
    · split
      · exact ⟨rfl, rfl, rfl, rfl⟩
      · split <;> exact ⟨rfl, rfl, rfl, rfl⟩
    · exact ⟨rfl, rfl, rfl, rfl⟩

theorem downloadProgress_leavesFtp (s : State) (cb tb : ℤ) :
    LeavesFtp s (downloadProgress s cb tb) := by
  unfold downloadProgress
  simp only
  split
  · exact ⟨rfl, rfl, rfl, rfl⟩
  · split
    · split <;> exact ⟨rfl, rfl, rfl, rfl⟩
    · exact ⟨rfl, rfl, rfl, rfl⟩

theorem downloadFinished_leavesFtp (env : Env) (s : State) (sender : ℕ) :
    LeavesFtp s (downloadFinished env s sender) := by
  unfold downloadFinished
  simp only
  split
  · exact ⟨rfl, rfl, rfl, rfl⟩
  · split
    · exact ⟨rfl, rfl, rfl, rfl⟩
    · rename_i file _ _ ok _
      obtain ⟨_, _, judged, -⟩ := verdict_eq env { s with downloadTimer := false } sender file ok
        (s.fs.fileExists file.stagedPath)
      rw [judged]
      exact ⟨rfl, rfl, rfl, rfl⟩

theorem downloadTimedOut_leavesFtp (s : State) : LeavesFtp s (downloadTimedOut s) := by
  unfold downloadTimedOut
  simp only
  split
  · exact ⟨rfl, rfl, rfl, rfl⟩
  · split
    · exact LeavesFtp.trans ⟨rfl, rfl, rfl, rfl⟩ (saveDownloadedFile_leavesFtp _)
    · exact ⟨rfl, rfl, rfl, rfl⟩

theorem deliver_leavesFtp (env : Env) (s : State) (sender : ℕ) (signal : Signal) :
    LeavesFtp s (deliver env s sender signal) := by
  cases signal with
  | readyRead => exact saveDownloadedFile_leavesFtp s
  | downloadProgress cb tb => exact downloadProgress_leavesFtp s cb tb
  | error => exact ⟨rfl, rfl, rfl, rfl⟩
  | finished => exact downloadFinished_leavesFtp env s sender

/-- A request, or the end of a pass. -/
theorem nextDownload_leavesFtp (env : Env) (s : State)
    (same : (s.contentFiles.isEmpty && s.revision) = false) :
    LeavesFtp s (nextDownload env s) := by
  cases left : s.contentFiles with
  | nil =>
      have stage : s.revision = false := by simpa [left] using same
      obtain ⟨_, _, _, _, ended, -⟩ := endPass_eq env s
      rw [nextDownload_nil env s left, if_neg (by simp [stage]), ended]
      exact ⟨rfl, rfl, rfl, rfl⟩
  | cons file rest =>
      rw [nextDownload_cons env s left]
      exact ⟨rfl, rfl, rfl, rfl⟩

/-- `mFtp.reset(new QFtp(this))` in `getTotalSize`, and the start of the process. -/
def renews (s : State) : Event → Bool
  | .restart => true
  | .accountReady info => info.isSome
  | .nextDownload => s.contentFiles.isEmpty && s.revision
  | _ => false

/-- **Apart from the signals of `QFtp`**, and as long as it is the same, at most a `QUIT` is
queued. -/
theorem step_grows (takes : step env s e = some t) (other : e.isFtp = false)
    (same : renews s e = false) : Grows s t := by
  have noRestart : e.isRestart = false := by
    cases e with
    | restart => cases same
    | _ => rfl
  rw [step_eq_react (alive_of_step noRestart takes)] at takes
  have emitted (change : Reply → Reply) (signal : Signal)
      (takes : s.activeReply.map (fun reply => s.emits (change reply) signal) = some t) :
      Grows s t := by
    obtain ⟨reply, -, rfl⟩ := Option.map_eq_some_iff.mp takes
    exact LeavesFtp.grows ⟨rfl, rfl, rfl, rfl⟩
  cases e with
  | restart => cases same
  | ftpState | ftpList | ftpDone => cases other
  | updateStart accepted =>
      have leaves (u : State) : LeavesFtp u (updateStart u accepted) := by
        cases accepted <;> exact ⟨rfl, rfl, rfl, rfl⟩
      simp only [react] at takes
      split at takes
      · obtain rfl := Option.some.inj takes
        exact (leaves _).grows.of_leaves ⟨rfl, rfl, rfl, rfl⟩
      · split at takes
        · obtain rfl := Option.some.inj takes
          exact (leaves _).grows.of_leaves ⟨rfl, rfl, rfl, rfl⟩
        · cases takes
  | accountReady info =>
      simp only [react, Option.ite_none_right_eq_some, Option.some.injEq] at takes
      obtain ⟨-, rfl⟩ := takes
      cases info with
      | none => exact LeavesFtp.grows ⟨rfl, rfl, rfl, rfl⟩
      | some info => cases same
  | ftpTimer =>
      simp only [react, Option.ite_none_right_eq_some, Option.some.injEq] at takes
      obtain ⟨-, rfl⟩ := takes
      exact ⟨.inr ⟨.close, rfl, rfl, fun _ => .inl rfl, fun other => absurd rfl other⟩,
        fun _ => .inl rfl⟩
  | nextDownload =>
      simp only [react] at takes
      split at takes
      · cases takes
      · obtain rfl := Option.some.inj takes
        rename_i n _
        have leaves := nextDownload_leavesFtp env { s with scheduled := n } same
        exact leaves.grows.of_leaves ⟨rfl, rfl, rfl, rfl⟩
  | netData bytes => exact emitted (fun reply => { reply with
      buffer := reply.buffer ++ bytes, delivered := reply.delivered ++ bytes }) .readyRead takes
  | netProgress cb tb => exact emitted id (.downloadProgress cb tb) takes
  | netError => exact emitted (fun reply => { reply with error := true }) .error takes
  | netFinished => exact emitted (fun reply => { reply with finished := true }) .finished takes
  | deliver =>
      simp only [react] at takes
      split at takes
      · cases takes
      · obtain rfl := Option.some.inj takes
        rename_i sender signal rest _
        have leaves := deliver_leavesFtp env { s with posted := rest } sender signal
        exact leaves.grows.of_leaves ⟨rfl, rfl, rfl, rfl⟩
  | downloadTimer =>
      simp only [react, Option.ite_none_right_eq_some, Option.some.injEq] at takes
      obtain ⟨-, rfl⟩ := takes
      exact (downloadTimedOut_leavesFtp s).grows

variable (env) in
theorem start_getTotalSize (s : State) (info : LoginInfo) :
    ∃ u, start env s info = getTotalSize u ∧ u.crashed = s.crashed ∧ u.contentFiles = [] := by
  unfold start
  exact ⟨_, rfl, rfl, rfl⟩

variable (env) in
theorem startContent_getTotalSize (s : State) :
    ∃ u, startContent env s = getTotalSize u ∧ u.crashed = s.crashed ∧ u.contentFiles = [] := by
  unfold startContent
  exact ⟨_, rfl, rfl, rfl⟩

/-- The process starts, or a stage does. -/
theorem step_renewed (takes : step env s e = some t) (new : renews s e = true) :
    t = s.restart ∨ ∃ u, t = getTotalSize u ∧ u.crashed = false ∧ u.contentFiles = [] := by
  cases e with
  | restart =>
      have restarted : step env s .restart =
        some s.restart := by simp [step, react, Event.isRestart]
      exact .inl (Option.some.inj (takes.symm.trans restarted))
  | accountReady info =>
      have alive := alive_of_step rfl takes
      rw [step_eq_react alive] at takes
      simp only [react, Option.ite_none_right_eq_some, Option.some.injEq] at takes
      obtain ⟨-, rfl⟩ := takes
      cases info with
      | none => cases new
      | some info =>
          obtain ⟨u, made, crashed, nothing⟩ :=
            start_getTotalSize env { s with accountPending := false } info
          exact .inr ⟨u, made, crashed.trans alive, nothing⟩
  | nextDownload =>
      have alive := alive_of_step rfl takes
      rw [step_eq_react alive] at takes
      simp only [react] at takes
      split at takes
      · cases takes
      · obtain rfl := Option.some.inj takes
        obtain ⟨left, stage⟩ : s.contentFiles = [] ∧ s.revision = true := by
          simpa [renews] using new
        rename_i n _
        have content := nextDownload_nil env { s with scheduled := n } left
        rw [content, if_pos (by exact stage)]
        obtain ⟨u, made, crashed, nothing⟩ :=
          startContent_getTotalSize env { s with scheduled := n }
        exact .inr ⟨u, made, crashed.trans alive, nothing⟩
  | _ => cases new

/-- A new `QFtp` has nothing to do, or has to connect and to log in. -/
theorem step_renews (takes : step env s e = some t) (new : renews s e = true) :
    t.ftp.pending = [] ∨
      ∃ id, t.ftp.pending = [(id, .connectToHost), (id + 1, .login)] ∧ t.idCounter = id + 2 := by
  rcases step_renewed takes new with rfl | ⟨u, rfl, -, -⟩
  · exact .inl rfl
  · rcases getTotalSize_cases u with ⟨-, made⟩ | ⟨-, made⟩ | ⟨-, made⟩
    · exact .inl (by rw [made])
    · exact .inr ⟨u.idCounter, by rw [made], by rw [made]⟩
    · exact .inl (by rw [made])

end MediaUpdater
