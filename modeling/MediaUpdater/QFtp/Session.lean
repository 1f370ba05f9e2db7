import MediaUpdater.Download.Queueing
import MediaUpdater.QFtp.PassiveMode
import MediaUpdater.QFtp.Replies

/-!
# The FTP client

`QFtp` as it is: the control connection `QFtpPI`, the data connection `QFtpDTP` and the
command queue, driven by the events of two sockets.  For the commands that the updater
uses; the transfer is passive, and there is no proxy.

The classes call each other by signals, which are direct calls.  A slot that emits a signal
goes on after the slots of that signal, and these may emit further signals.  What is still
to be done is a stack of `Task`s, and one step does the task on top; the sockets report only
when nothing is left to do.  A step ends where the source would emit a signal that
may come back to the same object.

`up` is the updater with the queue of `QFtpPrivate`.  It takes part in the signals
`commandFinished` and `listInfo`; what else happens to it is passed on to `DownloadManager`
unchanged.
-/

namespace MediaUpdater

open Library DownloadManager

/-- `QAbstractSocket::SocketState`. -/
inductive SocketState where
  | unconnected
  | hostLookup
  | connecting
  | connected
  deriving DecidableEq, Repr

/-- `QFtpPI::State`. -/
inductive PiState where
  | begin
  | idle
  | waiting
  | success
  | failure
  deriving DecidableEq, Repr

/-- `QFtpPI`, with its command socket. -/
structure QFtpPI where
  socket : SocketState := .unconnected
  /-- The address of the last `connectToHost`. -/
  address : Option (QString × UInt16) := none
  peerAddress : QString := []
  /-- The local address is one of IPv6. -/
  ipv6 : Bool := false
  /-- What has arrived and is not read. -/
  unread : QByteArray := []
  reader : ReplyReader := ⟨[], ⟨0, 0, 0⟩, false⟩
  state : PiState := .begin
  pendingCommands : List QString := []
  currentCmd : QString := []
  waitForDtpToConnect : Bool := false
  transferConnectionExtended : Bool := true

/-- `QFtpDTP`, with its socket. -/
structure QFtpDTP where
  state : SocketState := .unconnected
  /-- The address of the last `connectToHost`. -/
  address : Option (QString × UInt16) := none
  unread : QByteArray := []
  err : QString := []

/-- `QFtpDTP::ConnectState`, as far as `QFtpPI::dtpConnectState` tells them apart. -/
inductive DtpConnectState where
  | closed
  | connected
  | refused
  deriving DecidableEq, Repr

/-- Who has called `processReply`. -/
inductive Caller where
  | readyRead
  | dtpConnectState
  deriving DecidableEq, Repr

/-- What is still to be done. -/
inductive Task where
  /-- `QFtpPI::connectToHost` -/
  | connectToHost
  /-- `emit error(..)`, which calls `_q_piError`. -/
  | piError (failure : FtpFailure)
  /-- `_q_piError` after `dtp.abortConnection()`, for the command with this number. -/
  | piErrorTail (id : ℕ) (failure : FtpFailure)
  /-- The loop of `readyRead`. -/
  | readLoop
  | processReply (caller : Caller)
  /-- `processReply` from the special actions on. -/
  | react (caller : Caller)
  /-- `processReply` from "react on new state" on. -/
  | newState (caller : Caller)
  /-- The rest of that after `emit error(..)`: with an error of the data connection, and in the
  state `Failure`. -/
  | clearError (caller : Caller)
  | failureTail (caller : Caller)
  /-- The caller, when `processReply` has returned true. -/
  | replied (caller : Caller)
  /-- `QFtpDTP::connectToHost` from the new socket on. -/
  | dtpConnect (host : QString) (port : UInt16)
  | dtpConnectState (state : DtpConnectState)
  | startNextCmd
  deriving DecidableEq

/-- The old socket of the data connection is being deleted. -/
def Task.isDtpConnect : Task → Bool
  | .dtpConnect _ _ => true
  | _ => false

/-- The updater and its FTP client. -/
structure Session where
  up : State
  pi : QFtpPI := {}
  dtp : QFtpDTP := {}
  /-- `close_waitForStateChange` -/
  closeWait : Bool := false
  /-- The pending `QTimer::singleShot(0, q_func(), SLOT(_q_startNextCommand()))`. -/
  starts : ℕ := 0
  stack : List Task := []
  /-- What has been written to the command socket. -/
  sent : List QByteArray := []
  /-- Memory that is no longer there has been used. -/
  dead : Bool := false

/-- What happens to the client. -/
inductive SessionEvent where
  /-- The task on top of the stack is done. -/
  | tick
  /-- The single shot calls `_q_startNextCommand`. -/
  | start
  | hostFound
  | connected (peerAddress : QString) (ipv6 : Bool)
  /-- The host is not found, the connection is refused or times out, or there is another
  error, which `QFtpPI::error` passes over. -/
  | hostNotFound
  | refused
  | socketError
  | received (bytes : QByteArray)
  | disconnected
  | dtpConnected
  /-- `HostNotFoundError` or `ConnectionRefusedError`. -/
  | dtpRefused
  /-- Another error, which `QFtpDTP::socketError` passes over. -/
  | dtpError
  | dtpReceived (bytes : QByteArray)
  | dtpDisconnected
  /-- Something that does not concern `QFtp`. -/
  | other (e : Event)

namespace Session

/-! ### The commands -/

/-- The `LIST` for a file. -/
def listCmd (file : SContentInfo) : QString :=
  if file.serverPath = [] then str "LIST\r\n" else str "LIST " ++ file.serverPath ++ str "\r\n"

/-- The `rawCmds` of a command, of which there is always one. -/
def rawCmds (info : LoginInfo) : FtpCommand → QString × List QString
  | .connectToHost => (info.host, [Nat.toDigits 10 (UInt16.ofInt info.port).toNat])
  | .login =>
      (str "USER " ++ info.login ++ str "\r\n", [str "PASS " ++ info.password ++ str "\r\n"])
  | .list file => (str "TYPE A\r\n", [str "PASV\r\n", listCmd file])
  | .close => (str "QUIT\r\n", [])

/-- What makes a reply an error. -/
def replyFailure (code : ReplyCode) : FtpFailure :=
  if code.first = 4 then .transientReply
  else if code.toInt = 550 then .noSuchFile
  else .permanentReply

/-- A text begins with a word. -/
def StartsWith (word : String) (s : QString) : Prop := str word <+: s

instance (word : String) (s : QString) : Decidable (StartsWith word s) :=
  inferInstanceAs (Decidable (str word <+: s))

/-- The beginning of a text tells how it begins. -/
theorem startsWith_append {word : String} {s t : QString} (long : (str word).length ≤ s.length) :
    StartsWith word (s ++ t) ↔ StartsWith word s :=
  List.isPrefix_append_of_length long

variable (s : Session)

/-- Something is to be done first. -/
def push (task : Task) : Session := { s with stack := task :: s.stack }

/-- A handler of the updater has run.  When `addCommand` finds the queue empty, it starts the
single shot. -/
def handled (up : State) : Session :=
  { s with
    up := up
    starts := s.starts + if s.up.ftp.pending = [] ∧ up.ftp.pending ≠ [] then 1 else 0 }

/-- `startNextCmd` with a command to send. -/
def transmit (cmd : QString) (rest : List QString) : Session :=
  let currentCmd :=
    if StartsWith "PASV" cmd ∧ s.pi.ipv6 ∧
    s.pi.transferConnectionExtended then str "EPSV\r\n" else cmd
  { s with
    pi := { s.pi with currentCmd := currentCmd, pendingCommands := rest, state := .waiting }
    sent := s.sent ++ [toLatin1 currentCmd] }

/-- `QFtpPI::sendCommands`. -/
def sendCommands (cmds : QString × List QString) : Session :=
  if s.pi.pendingCommands ≠ [] then s
  else if s.pi.socket ≠ .connected ∨ s.pi.state ≠ .idle then s.push (.piError .notConnected)
  else if s.pi.waitForDtpToConnect then
    { s with pi := { s.pi with pendingCommands := cmds.1 :: cmds.2 } }
  else s.transmit cmds.1 cmds.2

/-- The new state of `QFtpPrivate`, before the signal. -/
def setState (state : FtpState) : Session :=
  { s with up := { s.up with ftp := { s.up.ftp with state := state } } }

/-- `_q_startNextCommand`.  The member `error`, which nothing reads before the next error, is
not reset. -/
def startNextCommand : Session :=
  match s.up.ftp.pending with
  | [] => s
  | (_, command) :: _ =>
      let s := { s with dtp := { s.dtp with unread := [] } }
      match command with
      | .connectToHost => s.push .connectToHost
      | .close => (s.setState .closing).sendCommands (rawCmds s.up.contentManager.loginInfo .close)
      | command => s.sendCommands (rawCmds s.up.contentManager.loginInfo command)

/-- The running command ends: `commandFinished`, and then the next command. -/
def finish (failure : Option FtpFailure) (id : ℕ) (command : FtpCommand) : Session :=
  startNextCommand { s with up := ftpDone s.up failure id command }

/-- `_q_piFinished`. -/
def piFinished : Session :=
  match s.up.ftp.pending with
  | [] => s
  | (id, command) :: _ =>
      if command = .close ∧ s.up.ftp.state ≠ .unconnected then { s with closeWait := true }
      else s.finish none id command

/-- `_q_piConnectState`. -/
def connectState (state : FtpState) : Session :=
  let s := s.setState state
  if s.closeWait then piFinished { s with closeWait := false } else s

/-- `QFtpPI::startNextCmd`. -/
def startNextCmd : Session :=
  if s.pi.waitForDtpToConnect then s
  else
    match s.pi.pendingCommands with
    | [] => piFinished { s with pi := { s.pi with currentCmd := [] } }
    | cmd :: rest => s.transmit cmd rest

/-- `QFtpPI::readyRead`. -/
def readyRead : Session := if s.pi.reader.waitForDtpToClose then s else s.push .readLoop

/-- A socket of the data connection is closed, which it reports if it was connected. -/
def closeDtp : Session :=
  let closed := { s with dtp := { s.dtp with state := .unconnected, unread := [] } }
  if s.dtp.state = .connected then closed.push (.dtpConnectState .closed) else closed

/-! ### `processReply` -/

/-- The caller goes on. -/
def replied (caller : Caller) : Session :=
  match caller with
  | .readyRead =>
      { s with pi := { s.pi with reader := { s.pi.reader with replyText := [] } } }.push .readLoop
  | .dtpConnectState =>
      readyRead { s with pi := { s.pi with
        reader := { s.pi.reader with replyText := [], waitForDtpToClose := false } } }

/-- `table[replyCode[0] - 1]`, and 202 apart; `none` outside the table. -/
def nextState (code : ReplyCode) : Option PiState :=
  if code.first < 0 ∨ 5 < code.first ∨ code.toInt = 202 then some .failure
  else if code.first = 0 then none
  else if code.first = 1 then some .waiting
  else if code.first = 2 then some .success
  else if code.first = 3 then some .idle
  else some .failure

/-- `processReply` up to the special actions. -/
def processReply (caller : Caller) : Session :=
  let code := s.pi.reader.replyCode
  if (code.toInt = 226 ∨ (code.toInt = 250 ∧ StartsWith "RETR" s.pi.currentCmd)) ∧
      s.dtp.state ≠ .unconnected then
    let s := { s with pi := { s.pi with reader := { s.pi.reader with waitForDtpToClose := true } } }
    match caller with
    | .readyRead => s.push .readLoop
    | .dtpConnectState => s
  else
    match s.pi.state with
    | .begin =>
        if code.first = 2 then
          piFinished ({ s with pi := { s.pi with state := .idle } }.push (.react caller))
        else s.replied caller
    | .waiting =>
        match nextState code with
        | some state => { s with pi := { s.pi with state := state } }.push (.react caller)
        | none => { s with dead := true }
    | _ => s.replied caller

/-- A 230 reply to `USER` makes `PASS` superfluous. -/
def dropPass : Session :=
  if StartsWith "USER " s.pi.currentCmd ∧
    (s.pi.pendingCommands.head?.any fun cmd => StartsWith "PASS " cmd)
  then { s with pi := { s.pi with pendingCommands := s.pi.pendingCommands.tail } }
  else s

/-- The special actions of `processReply`. -/
def react (caller : Caller) : Session :=
  let s := s.push (.newState caller)
  let reader := s.pi.reader
  if reader.replyCode.toInt = 230 then s.dropPass.connectState .loggedIn
  else
    match QFtpPI.dataAddress s.pi.peerAddress reader.replyCode.toInt reader.replyText with
    | .missing => s
    | .outOfRange => { s with dead := true }
    | .found host port =>
        -- the slots of the old socket may come here again while it is being deleted
        if s.stack.any Task.isDtpConnect then { s with dead := true }
        else closeDtp ({ s with pi := { s.pi with waitForDtpToConnect := true } }.push
          (.dtpConnect host port))

/-- "react on new state". -/
def newState (caller : Caller) : Session :=
  match s.pi.state with
  | .begin | .waiting => s.replied caller
  | .success | .idle =>
      let s := { s with pi := { s.pi with state := .idle } }
      if s.dtp.err = [] then startNextCmd (s.push (.replied caller))
      else (s.push (.clearError caller)).push (.piError .noSuchFile)
  | .failure =>
      if StartsWith "EPSV" s.pi.currentCmd then
        { s with pi := { s.pi with
          transferConnectionExtended := false
          pendingCommands := str "PASV\r\n" :: s.pi.pendingCommands } }.push (.failureTail caller)
      else
        (s.push (.failureTail caller)).push (.piError (replyFailure s.pi.reader.replyCode))

/-! ### The tasks -/

/-- `_q_piError` up to `dtp.abortConnection()`. -/
def piError (failure : FtpFailure) : Session :=
  match s.up.ftp.pending with
  | [] => s
  | (id, _) :: _ =>
      closeDtp ({ s with pi := { s.pi with pendingCommands := [] } }.push (.piErrorTail id failure))

/-- `_q_piError` from there on.  The command may have ended in the meantime. -/
def piErrorTail (id : ℕ) (failure : FtpFailure) : Session :=
  let s := { s with pi := { s.pi with currentCmd := [], state := .idle } }
  match s.up.ftp.pending with
  | [] => { s with dead := true }
  | (running, command) :: _ =>
      if running = id then s.finish (some failure) id command else { s with dead := true }

/-- A turn of the loop of `readyRead`. -/
def readLoop : Session :=
  let text := Lines.complete 10 s.pi.unread
  match text.1 with
  | [] => s
  | line :: lines =>
      match QFtpPI.turn s.pi.reader line lines with
      | .error reader lines =>
          { s with pi := { s.pi with reader := reader, unread := lines.flatten ++ text.2 } }
      | .incomplete reader => { s with pi := { s.pi with reader := reader, unread := text.2 } }
      | .reply reader lines =>
          { s with pi := { s.pi with reader := reader, unread := lines.flatten ++ text.2 } }.push
            (.processReply .readyRead)

/-- `QFtpPI::dtpConnectState`. -/
def dtpConnectState : DtpConnectState → Session
  | .closed =>
      if s.pi.reader.waitForDtpToClose then s.push (.processReply .dtpConnectState) else s.readyRead
  | .connected => startNextCmd { s with pi := { s.pi with waitForDtpToConnect := false } }
  | .refused => (s.push .startNextCmd).push (.piError .dataConnectionRefused)

/-- A task. -/
def run : Task → Session
  | .connectToHost =>
      let cmds := rawCmds s.up.contentManager.loginInfo .connectToHost
      let s := s.connectState .hostLookup
      if s.pi.socket = .unconnected then
        { s with pi := { s.pi with
          socket := .hostLookup
          address := some (cmds.1, (toUInt (cmds.2.headD [])).toUInt16) } }
      else s
  | .piError failure => s.piError failure
  | .piErrorTail id failure => s.piErrorTail id failure
  | .readLoop => s.readLoop
  | .processReply caller => s.processReply caller
  | .react caller => s.react caller
  | .newState caller => s.newState caller
  | .clearError caller => startNextCmd
      ({ s with dtp := { s.dtp with err := [] } }.push (.replied caller))
  | .failureTail caller =>
      if s.pi.state = .waiting then s.replied caller
      else startNextCmd ({ s with pi := { s.pi with state := .idle } }.push (.replied caller))
  | .replied caller => s.replied caller
  | .dtpConnect host port =>
      { s with dtp :=
      { s.dtp with state := .connecting, unread := [], address := some (host, port) } }
  | .dtpConnectState state => s.dtpConnectState state
  | .startNextCmd => s.startNextCmd

/-! ### The sockets -/

/-- A line of a listing. -/
def listLine (line : QByteArray) : Session :=
  match QFtpDTP.parseDir line [] with
  | some info =>
      let up :=
        match s.up.ftp.pending.head?.bind fun running => running.2.listed? with
        | some file => { s.up with log := .listed file info.toUrlInfo :: s.up.log }
        | none => s.up
      s.handled (listInfo up info.toUrlInfo)
  | none =>
      if ascii "No such file or directory\r\n" <:+ line then
        { s with dtp := { s.dtp with err := fromLatin1 line } }
      else s

/-- `QFtpDTP::socketReadyRead`.  `close()` reports that the socket is closed, and then the slot
does. -/
def socketReadyRead : Session :=
  if s.pi.currentCmd = [] then (s.push (.dtpConnectState .closed)).closeDtp
  else if StartsWith "LIST" s.pi.currentCmd then
    let text := Lines.complete 10 s.dtp.unread
    text.1.foldl listLine { s with dtp := { s.dtp with unread := text.2 } }
  else s

/-- A socket reports, or the single shot fires. -/
def report : SessionEvent → Option Session
  | .start => if s.starts = 0 then none else some
      (startNextCommand { s with starts := s.starts - 1 })
  | .hostFound =>
      if s.pi.socket = .hostLookup then
        some (connectState { s with pi := { s.pi with socket := .connecting } } .connecting)
      else none
  | .connected peerAddress ipv6 =>
      if s.pi.socket = .connecting then
        some (connectState { s with pi := { s.pi with
          socket := .connected, peerAddress := peerAddress, ipv6 := ipv6, state := .begin } }
            .connected)
      else none
  | .hostNotFound =>
      if s.pi.socket = .hostLookup then
        some (connectState ({ s with pi := { s.pi with socket := .unconnected } }.push
          (.piError .hostNotFound)) .unconnected)
      else none
  | .refused =>
      if s.pi.socket = .connecting then
        some (connectState ({ s with pi := { s.pi with socket := .unconnected } }.push
          (.piError .connectionRefused)) .unconnected)
      else none
  | .socketError =>
      if s.pi.socket = .hostLookup ∨ s.pi.socket = .connecting then
        some { s with pi := { s.pi with socket := .unconnected } }
      else none
  | .received bytes =>
      if s.pi.socket = .connected then
        some (readyRead { s with pi := { s.pi with unread := s.pi.unread ++ bytes } })
      else none
  | .disconnected =>
      if s.pi.socket = .connected then
        some (connectState { s with pi := { s.pi with socket := .unconnected, unread := [] } }
          .unconnected)
      else none
  | .dtpConnected =>
      if s.dtp.state = .connecting then
        some ({ s with dtp := { s.dtp with state := .connected } }.push
          (.dtpConnectState .connected))
      else none
  | .dtpRefused =>
      if s.dtp.state = .connecting then
        some ({ s with dtp := { s.dtp with state := .unconnected } }.push
          (.dtpConnectState .refused))
      else none
  | .dtpError =>
      if s.dtp.state = .connecting then some { s with dtp := { s.dtp with state := .unconnected } }
      else none
  | .dtpReceived bytes =>
      if s.dtp.state = .connected then
        some (socketReadyRead { s with dtp := { s.dtp with unread := s.dtp.unread ++ bytes } })
      else none
  | .dtpDisconnected => if s.dtp.state = .connected then some s.closeDtp else none
  | .tick | .other _ => none

/-- The updater has gone on. -/
def updated (e : Event) (up : State) : Session :=
  if renews s.up e then { up := up, starts := if up.ftp.pending = [] then 0 else 1 }
  else s.handled up

/-- One event.  While something is left to be done, no event but the death of the process
can come between. -/
def step (env : Env) (s : Session) (e : SessionEvent) : Option Session :=
  match e with
  | .other e =>
      if e.isFtp then none
      else if !e.isRestart && (s.dead || !s.stack.isEmpty) then none
      else (MediaUpdater.step env s.up e).map (s.updated e)
  | .tick =>
      if s.dead || s.up.crashed then none
      else
        match s.stack with
        | [] => none
        | task :: rest => some (run { s with stack := rest } task)
  | e => if s.dead || s.up.crashed || !s.stack.isEmpty then none else s.report e

/-- The process starts on any disk. -/
def Initial (s : Session) : Prop := ∃ fs, s = { up := State.boot fs }

end Session

end MediaUpdater
