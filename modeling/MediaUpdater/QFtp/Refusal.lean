import MediaUpdater.QFtp.Transfer

/-!
# A refused listing

A server may refuse a `LIST` when the data connection is open.  The client closes that connection,
the command ends with an error, and the updater goes on with the next file.

## Main result

* `Asks.refused` — after a refusal the next command of the size phase is sent, and the file is not
  in the queue.
-/

namespace MediaUpdater

open Library DownloadManager

/-- What a server answers to the commands of a `LIST` that it refuses. -/
structure Refusal where
  typeReply : FtpReply
  passive : FtpReply
  refusal : FtpReply
  typePlain : typeReply.code.Plain
  refuses : refusal.code.first = 4 ∨ refusal.code.first = 5

namespace Refusal

variable (r : Refusal)

/-- The reply to the `PASV` has an address. -/
def Names (peerAddress : QString) : Prop :=
  ∃ host port, QFtpPI.dataAddress peerAddress r.passive.code.toInt r.passive.text = .found host port

/-- The events at the sockets. -/
def Events (es : List SessionEvent) : Prop :=
  ∃ typePackets passivePackets refusalPackets,
    Packets r.typeReply.encode typePackets ∧ Packets r.passive.encode passivePackets ∧
      Packets r.refusal.encode refusalPackets ∧
      es = typePackets.map .received ++
        (passivePackets.map .received ++ .dtpConnected :: refusalPackets.map .received)

end Refusal

variable {up : State} {id : ℕ} {file : SContentInfo} {rest : List SContentInfo}

/-- The end of a `LIST` with an error for which the updater goes on. -/
theorem Runs.refused (runs : Runs up id (.list file) rest) {failure : FtpFailure}
    (skips : failure.error = .unknownError) :
    ∃ t, ftpDone up (some failure) id (.list file) = t ∧
      Runs t up.idCounter (nextAsked rest).1 (nextAsked rest).2 ∧
      t.contentFiles = up.contentFiles ∧ t.totalBytes = up.totalBytes ∧
      t.contentManager.loginInfo = up.contentManager.loginInfo ∧
      t.scheduled = up.scheduled + if (nextAsked rest).1 = .close then 1 else 0 := by
  obtain ⟨t, asked, ftp, next, -, files, total, manager, scheduled⟩ := nextFtpFileOf_asks rest
    { up with
      log := answers (some failure) (.list file) ++ up.log
      ftp := up.ftp.fail failure.error
      ftpTimer := false }
    runs.heard runs.alive (runs.login.trans runs.fresh)
  have done : ftpDone up (some failure) id (.list file) = { t with ftp := t.ftp.removeFirst } := by
    rw [← asked]
    simp [ftpDone, commandFinished, ftpCommandFinished, runs.heard, skips, nextFtpFile, runs.left]
  have left : t.ftp.removeFirst.pending = [(up.idCounter, (nextAsked rest).1)] := by
    rw [QFtp.pending_removeFirst, ftp, QFtp.pending_addCommand, QFtp.pending_fail, runs.pending]
    rfl
  exact ⟨_, done, { next with pending := left }, files, total, congrArg _ manager, scheduled⟩

namespace Session

variable {env : Env} {s t : Session} {es : List SessionEvent} {r : Refusal}

theorem replyFailure_error (code : ReplyCode) : (replyFailure code).error = .unknownError := by
  unfold replyFailure
  split
  · rfl
  · split <;> rfl

theorem newState_failure {caller : Caller} (failure : s.pi.state = .failure)
    (other : ¬ StartsWith "EPSV" s.pi.currentCmd) :
    s.newState caller = (s.push (.failureTail caller)).push
      (.piError (replyFailure s.pi.reader.replyCode)) := by
  unfold newState
  simp only [failure]
  exact if_neg other

theorem piError_open {id : ℕ} {command : FtpCommand} {behind : List (ℕ × FtpCommand)}
    {failure : FtpFailure}
    (pending : s.up.ftp.pending = (id, command) :: behind) (open_ : s.dtp.state = .connected) :
    s.piError failure = { s with
      pi := { s.pi with pendingCommands := [] }
      dtp := { s.dtp with state := .unconnected, unread := [] }
      stack := .dtpConnectState .closed :: .piErrorTail id failure :: s.stack } := by
  unfold piError
  rw [pending]
  exact if_pos open_

theorem piErrorTail_finish {id : ℕ} {command : FtpCommand} {behind : List (ℕ × FtpCommand)}
    {failure : FtpFailure} (pending : s.up.ftp.pending = (id, command) :: behind) :
    s.piErrorTail id failure =
      finish { s with pi := { s.pi with currentCmd := [], state := .idle } }
        (some failure) id command := by
  unfold piErrorTail
  simp only [pending, if_true]

/-- A refusal is an error of the command. -/
theorem Hears.failed (well : Well s) (stack : s.stack = [.processReply .readyRead])
    (waiting : s.pi.state = .waiting)
    (refuses : s.pi.reader.replyCode.first = 4 ∨ s.pi.reader.replyCode.first = 5)
    (valid : s.pi.reader.replyCode.Valid) (other : ¬ StartsWith "EPSV" s.pi.currentCmd)
    (later : Hears env { s with
      pi := { s.pi with state := .failure }
      stack := [.piError (replyFailure s.pi.reader.replyCode), .failureTail .readyRead] } es t) :
    Hears env s es t := by
  have range : 400 ≤ s.pi.reader.replyCode.toInt := by
    obtain ⟨-, second, third⟩ := valid
    rw [ReplyCode.toInt]
    omega
  have failure : nextState s.pi.reader.replyCode = some .failure := by
    rcases refuses with first | first <;> simp [nextState, first]
  refine .tick _ [] well stack ?_
  rw [run, processReply_waiting (by exact waiting) (by exact failure)
    (by show s.pi.reader.replyCode.toInt = 226 → _; omega)
    (by show s.pi.reader.replyCode.toInt ≠ 250; omega)]
  refine .tick _ [] ⟨well.dead, well.alive⟩ rfl ?_
  rw [run, react_plain (by show s.pi.reader.replyCode.toInt ≠ 230; omega)
    (by show s.pi.reader.replyCode.toInt ≠ 227; omega)
    (by show s.pi.reader.replyCode.toInt ≠ 229; omega)]
  refine .tick _ [] ⟨well.dead, well.alive⟩ rfl ?_
  rw [run, newState_failure rfl (by exact other)]
  exact later

/-- The data connection is closed while `_q_piError` waits. -/
theorem Hears.aborted {id : ℕ} {command : FtpCommand} {others : List (ℕ × FtpCommand)}
    {failure : FtpFailure}
    {rest : List Task} (well : Well s) (stack : s.stack = .piError failure :: rest)
    (pending : s.up.ftp.pending = (id, command) :: others) (open_ : s.dtp.state = .connected)
    (empty : s.pi.unread = []) (free : s.pi.reader.waitForDtpToClose = false)
    (later : Hears env { s with
      pi := { s.pi with pendingCommands := [] }
      dtp := { s.dtp with state := .unconnected, unread := [] }
      stack := .piErrorTail id failure :: rest } es t) : Hears env s es t := by
  have noLine : QFtpPI.nextTurn s.pi.reader s.pi.unread = none := by
    rw [QFtpPI.nextTurn, empty]
    rfl
  refine .tick _ rest well stack ?_
  rw [run, piError_open (by exact pending) (by exact open_)]
  refine .tick _ (.piErrorTail id failure :: rest) ⟨well.dead, well.alive⟩ rfl ?_
  rw [run, dtpConnectState_reads (by exact free)]
  refine .tick _ (.piErrorTail id failure :: rest) ⟨well.dead, well.alive⟩ rfl ?_
  rw [run, readLoop_of_none (by exact noLine)]
  exact later

theorem launched_waiting (s : Session) (command : FtpCommand) :
    (s.launched command).pi.state = .waiting := by
  cases command <;> rfl

theorem failureTail_replied {caller : Caller} (waiting : s.pi.state = .waiting) :
    run s (.failureTail caller) = s.replied caller :=
  if_pos waiting

/-- The command has ended, and the next one has been sent before the caller goes on. -/
theorem Hears.failureTail {command : FtpCommand} (well : Well s)
    (stack : s.stack = [.failureTail .readyRead])
    (empty : s.pi.unread = []) (free : s.pi.reader.waitForDtpToClose = false)
    (later : Hears env (Session.launched { s with
      pi := { s.pi with reader := ⟨[], s.pi.reader.replyCode, false⟩ }, stack := [] } command)
        es t) :
    Hears env (s.launched command) es t := by
  obtain ⟨dead, crashed, stack', unread, reader⟩ := launched_keeps s command
  refine .tick _ [] ⟨dead.trans well.dead, crashed.trans well.alive⟩ (stack'.trans stack) ?_
  rw [failureTail_replied (by exact launched_waiting s command)]
  refine .nothing ⟨dead.trans well.dead, crashed.trans well.alive⟩ rfl (unread.trans empty) ?_
  have same : { s.pi.reader with replyText := [] } =
    (⟨[], s.pi.reader.replyCode, false⟩ : ReplyReader) := by
    rw [← free]
  show Hears env { s.launched command with
    pi := { (s.launched command).pi with reader :=
      { (s.launched command).pi.reader with replyText := [] } }
    stack := [] } es t
  rw [launched_back, reader, same]
  exact later

/-- The command ends, and the next one is sent. -/
theorem Hears.skipped {id id' : ℕ} {command next : FtpCommand}
    {others behind : List (ℕ × FtpCommand)}
    {failure : FtpFailure} {up : State} (well : Well s)
    (stack : s.stack = [.piErrorTail id failure, .failureTail .readyRead])
    (pending : s.up.ftp.pending = (id, command) :: others)
    (done : ftpDone s.up (some failure) id command = up)
    (left : up.ftp.pending = (id', next) :: behind)
    (alive : up.crashed = false) (sends : next ≠ .connectToHost)
    (nothing : s.pi.pendingCommands = [])
    (opened : s.pi.socket = .connected) (ready : s.pi.waitForDtpToConnect = false)
    (empty : s.pi.unread = [])
    (free : s.pi.reader.waitForDtpToClose = false)
    (later : Hears env (Session.launched { s with
      pi := { s.pi with
        reader := ⟨[], s.pi.reader.replyCode, false⟩, currentCmd := [], state := .idle }
      up := up
      stack := [] } next) es t) : Hears env s es t := by
  refine .tick _ [.failureTail .readyRead] well stack ?_
  rw [run, piErrorTail_finish (by exact pending), finish, show ftpDone _ _ _ _ = up from done,
    startNextCommand_launched (by exact left) sends (by exact nothing) (by exact opened) rfl
      (by exact ready)]
  exact .failureTail ⟨well.dead, alive⟩ rfl empty free later

variable (env) in
/-- **A refused `LIST`.**  When the server refuses a `LIST` on the control connection, the file does
not join the queue, and the next command is sent. -/
theorem Asks.refused {id : ℕ} {file : SContentInfo} {rest : List SContentInfo}
    (asks : Asks s id (.list file) rest) (names : r.Names s.pi.peerAddress) (events : r.Events es) :
    ∃ t, Hears env s es t ∧ Asks t s.up.idCounter (nextAsked rest).1 (nextAsked rest).2 ∧
    Keeps s t ∧
      t.up.contentFiles = s.up.contentFiles ∧ t.up.totalBytes = s.up.totalBytes ∧
      t.up.contentManager.loginInfo = s.up.contentManager.loginInfo ∧
      t.up.scheduled = (s.up.scheduled + if (nextAsked rest).1 = .close then 1 else 0) ∧
      t.sent = s.sent ++ [passiveCmd s.pi, listCmd file,
        (rawCmds s.up.contentManager.loginInfo (nextAsked rest).1).1].map toLatin1 := by
  obtain ⟨host, port, found⟩ := names
  obtain ⟨typePackets, passivePackets, refusalPackets, typed, passive, refusal, rfl⟩ := events
  obtain ⟨u, done, runs, files, total, account, scheduled⟩ :=
    asks.runs.refused (replyFailure_error r.refusal.code)
  obtain ⟨l, opens, awaits, keeps, up, written⟩ := asks.lists env r.typePlain found typed passive
  have pending : l.up.ftp.pending = [(id, .list file)] := by
    rw [up]
    exact asks.runs.pending
  let skipped : Session := { l with
    pi := { l.pi with
      reader := ⟨[], r.refusal.code, false⟩, unread := [], state := .idle, currentCmd := []
      pendingCommands := [] }
    dtp := { l.dtp with state := .unconnected, unread := [] }
    up := u
    stack := [] }
  have settled : Settled skipped := {
    toWell := ⟨awaits.dead, runs.alive⟩
    stack := rfl, opened := awaits.opened, free := rfl, fresh := rfl, nothing := rfl
    ready := awaits.ready, noData := rfl, noErr := awaits.noErr
    notClosing := awaits.notClosing }
  have kept : Keeps l skipped := ⟨rfl, rfl, rfl⟩
  have ended : Ended l u s.up.idCounter (nextAsked rest).1 (nextAsked rest).2
      (skipped.launched (nextAsked rest).1) :=
    launched_ended runs kept rfl (nextAsked_ne rest) settled
  have listens : Listens l :=
    ⟨⟨awaits.dead, awaits.alive⟩, awaits.stack, awaits.opened, awaits.free⟩
  have refuses :
    Hears env l (refusalPackets.map .received) (skipped.launched (nextAsked rest).1) := by
    rw [← List.append_nil (refusalPackets.map _)]
    refine .reply listens refusal awaits.fresh awaits.unread ?_
    refine .failed ⟨awaits.dead, awaits.alive⟩ rfl awaits.waiting r.refuses r.refusal.valid ?_ ?_
    · rw [show Session.pi _ = _ from rfl, awaits.current, startsWith_listCmd (by decide)]
      decide
    · refine .aborted ⟨awaits.dead, awaits.alive⟩ rfl pending awaits.open_ rfl awaits.free ?_
      exact .skipped ⟨awaits.dead, awaits.alive⟩ rfl pending
        (by rw [show Session.up _ = l.up from rfl, up]; exact done)
        runs.pending runs.alive (nextAsked_ne rest) rfl awaits.opened awaits.ready rfl awaits.free
          (.refl _)
  refine ⟨_, ?_, ended.toAsks, ⟨ended.peer.trans keeps.peer, ended.ipv6.trans keeps.ipv6,
    ended.extended.trans keeps.extended⟩, ended.files.trans files, ended.total.trans total,
    ended.account.trans account, ended.scheduled.trans scheduled, ?_⟩
  · have heard := opens.trans refuses
    simpa using heard
  · rw [ended.written, written, account, List.append_assoc]
    rfl

end Session

end MediaUpdater
