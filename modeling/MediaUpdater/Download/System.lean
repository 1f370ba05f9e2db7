import MediaUpdater.Download.DownloadManager
import MediaUpdater.Library.Run

/-!
# The updater as a transition system

`step` takes one event: an answer of the FTP server, a signal of the current
reply, the delivery of a queued signal, a timer, a scheduled call, or the death
and restart of the process.  An event that cannot happen in a state — a listing
line when no `LIST` runs, a signal of a reply that has finished, a timer that is
not active — is not a step.

Nothing is assumed about the order of events beyond that, so a statement about
all runs of `step` covers every interleaving.
-/

namespace MediaUpdater

open Library DownloadManager

/-- The events. -/
inductive Event where
  /-- The process dies and is started again. -/
  | restart
  /-- `UpdateController::start`; `accepted` is the result of the account request. -/
  | updateStart (accepted : Bool)
  /-- `accountManagerReady`: the login data, or `none` for an account error or an
  unknown box. -/
  | accountReady (info : Option LoginInfo)
  /-- `QFtp` changes its state. -/
  | ftpState (state : FtpState)
  /-- A line of the running `LIST`. -/
  | ftpList (info : QUrlInfo)
  /-- The running command ends. -/
  | ftpDone (failure : Option FtpFailure)
  | ftpTimer
  /-- A scheduled `nextDownload` runs. -/
  | nextDownload
  /-- The current reply receives bytes. -/
  | netData (bytes : QByteArray)
  | netProgress (cb tb : ℤ)
  | netError
  | netFinished
  /-- The first queued signal is delivered. -/
  | deliver
  | downloadTimer
  deriving DecidableEq

namespace Event

/-- The answers of the FTP server. -/
def isFtp : Event → Bool
  | ftpState _ | ftpList _ | ftpDone _ => true
  | _ => false

/-- The death of the process. -/
def isRestart : Event → Bool
  | restart => true
  | _ => false

end Event

/-- No account data. -/
def LoginInfo.empty : LoginInfo :=
  { boxId := [], host := [], login := [], password := [], pathPrefix := [] }

namespace State

/-- The updater after the start of the process. -/
def boot (fs : FileSystem) : State where
  fs := fs
  contentManager := { loginInfo := LoginInfo.empty }

/-- A restart keeps the disk; the log and the numbering of commands and replies go
on, since they only serve the specification. -/
def restart (s : State) : State :=
  { boot s.fs with idCounter := s.idCounter, replies := s.replies, log := s.log }

/-- The reply that may still emit signals. -/
def activeReply (s : State) : Option Reply :=
  s.currentReply.filter fun reply => !reply.finished

/-- The current reply becomes `reply`, which queues a signal. -/
def emits (s : State) (reply : Reply) (signal : Signal) : State :=
  { s with currentReply := some reply, posted := s.posted ++ [(reply.id, signal)] }

end State

variable (env : Env)

/-- `UpdateController::start`. -/
def updateStart (s : State) (accepted : Bool) : State :=
  if accepted then { s with accountPending := true }
  else { s with accountPending := false, updateTimer := true }

/-- `UpdateController::accountManagerReady`. -/
def accountReady (s : State) : Option LoginInfo → State
  | none => { s with updateTimer := true }
  | some info => start env s info

/-- The answer to a `LIST`, for the log. -/
def answers (failure : Option FtpFailure) (command : FtpCommand) : List Action :=
  command.listed?.toList.map fun file => .listFinished file failure

/-- The handler of `commandFinished`. -/
def commandFinished (s : State) (id : ℕ) : Option FtpFailure → State
  | none => ftpCommandFinished s id false
  | some failure => ftpCommandFinished { s with ftp := s.ftp.fail failure.error } id true

/-- The running command of `QFtp` ends: `commandFinished` is emitted, then the command
leaves the queue. -/
def ftpDone (s : State) (failure : Option FtpFailure) (id : ℕ) (command : FtpCommand) : State :=
  let s' := commandFinished { s with log := answers failure command ++ s.log } id failure
  { s' with ftp := s'.ftp.removeFirst }

/-- The handler of a queued signal. -/
def deliver (s : State) (sender : ℕ) : Signal → State
  | .readyRead => saveDownloadedFile s
  | .downloadProgress cb tb => downloadProgress s cb tb
  | .error => replyError s
  | .finished => downloadFinished env s sender

/-- The reaction of the process to an event. -/
def react (s : State) : Event → Option State
  | .restart => some s.restart
  | .updateStart accepted =>
      if s.startScheduled then some (updateStart { s with startScheduled := false } accepted)
      else if s.updateTimer then some (updateStart { s with updateTimer := false } accepted)
      else none
  | .accountReady info =>
      if s.accountPending then some (accountReady env { s with accountPending := false } info)
      else none
  | .ftpState state => some { s with ftp := { s.ftp with state := state } }
  | .ftpList info =>
      match s.ftp.pending.head?.bind fun running => running.2.listed? with
      | some file => some (listInfo { s with log := .listed file info :: s.log } info)
      | none => none
  | .ftpDone failure =>
      s.ftp.pending.head?.map fun running => ftpDone s failure running.1 running.2
  | .ftpTimer => if s.ftpTimer then some (ftpTimedOut s) else none
  | .nextDownload =>
      match s.scheduled with
      | 0 => none
      | n + 1 => some (nextDownload env { s with scheduled := n })
  | .netData bytes =>
      s.activeReply.map fun reply =>
        s.emits { reply with
          buffer := reply.buffer ++ bytes, delivered := reply.delivered ++ bytes } .readyRead
  | .netProgress cb tb => s.activeReply.map fun reply => s.emits reply (.downloadProgress cb tb)
  | .netError => s.activeReply.map fun reply => s.emits { reply with error := true } .error
  | .netFinished =>
      s.activeReply.map fun reply => s.emits { reply with finished := true } .finished
  | .deliver =>
      match s.posted with
      | [] => none
      | (sender, signal) :: rest => some (deliver env { s with posted := rest } sender signal)
  | .downloadTimer => if s.downloadTimer then some (downloadTimedOut s) else none

/-- One event.  A process that has crashed can only be started again. -/
def step (s : State) (e : Event) : Option State :=
  if s.crashed && !e.isRestart then none else react env s e

/-- The initial states: the process starts on any disk. -/
def Initial (s : State) : Prop := ∃ fs, s = State.boot fs

/-- The step from `s` to `t` does `a`. -/
def Emits (s t : State) (a : Action) : Prop := ∃ acts, t.log = acts ++ s.log ∧ a ∈ acts

variable {env} {s t : State} {e : Event}

theorem emits_iff {acts : List Action} (logged : t.log = acts ++ s.log) (a : Action) :
    Emits s t a ↔ a ∈ acts := by
  constructor
  · rintro ⟨others, logged', mem⟩
    rwa [List.append_cancel_right (logged.symm.trans logged')]
  · exact fun mem => ⟨acts, logged, mem⟩

/-- The same, with the new part of the log given. -/
theorem mem_of_emits (acts : List Action) (logged : t.log = acts ++ s.log) {a : Action}
    (emitted : Emits s t a) : a ∈ acts :=
  (emits_iff logged a).mp emitted

theorem step_eq_react (alive : s.crashed = false) : step env s e = react env s e := by
  simp [step, alive]

/-- The scheduled call. -/
theorem step_nextDownload (alive : s.crashed = false) (scheduled : s.scheduled = 1) :
    step env s .nextDownload = some (nextDownload env { s with scheduled := 0 }) := by
  rw [step_eq_react alive]
  simp only [react, scheduled]

/-- Only a restart is a step of a process that has crashed. -/
theorem alive_of_step (other : e.isRestart = false) (takes : step env s e = some t) :
    s.crashed = false := by
  by_contra crashed
  simp [step, other, crashed] at takes

theorem activeReply_eq {reply : Reply} (replying : s.currentReply = some reply) :
    s.activeReply = if reply.finished then none else some reply := by
  cases finished : reply.finished <;> simp [State.activeReply, replying, finished]

end MediaUpdater
