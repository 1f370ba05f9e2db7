import MediaUpdater.QFtp.Refusal

/-!
# The size phase over the wire

The dialogue of a whole size phase, from the new `QFtp` to the `QUIT`: the login, and a `LIST` for
every file with a server path.

## Main result

* `Session.sizes_heard` — a server that answers as the protocol says, with whatever texts, addresses
  and packets, makes the updater queue the files that it lists with their sizes, and the client
  sends what the protocol asks for.
-/

namespace MediaUpdater

open Library DownloadManager

/-! ### The server -/

/-- What a server answers to the login. -/
structure LoginAnswer where
  peerAddress : QString
  ipv6 : Bool
  greeting : FtpReply
  userReply : FtpReply
  passReply : FtpReply
  ready : greeting.code.first = 2
  greetingPlain : greeting.code.Plain
  userPlain : userReply.code.Plain
  loggedIn : passReply.code.toInt = 230

/-- The events up to the login. -/
def LoginAnswer.Events (a : LoginAnswer) (es : List SessionEvent) : Prop :=
  ∃ greetingPackets userPackets passPackets, Packets a.greeting.encode greetingPackets ∧
    Packets a.userReply.encode userPackets ∧ Packets a.passReply.encode passPackets ∧
    es = .start :: .hostFound :: .connected a.peerAddress a.ipv6 ::
    (greetingPackets.map .received ++
      (userPackets.map .received ++ passPackets.map .received))

/-- The command that asks the server for the address of the data connection. -/
def LoginAnswer.ask (a : LoginAnswer) : QString := if a.ipv6 then str "EPSV\r\n" else str "PASV\r\n"

/-- What a server answers to the commands of a `LIST`. -/
inductive FileAnswer where
  | listed (a : ListReplies)
  | refused (r : Refusal)

namespace FileAnswer

/-- The reply to the `PASV` has an address. -/
def Names : FileAnswer → QString → Prop
  | listed a => a.Names
  | refused r => r.Names

/-- The events at the sockets. -/
def Events : FileAnswer → List SessionEvent → Prop
  | listed a => a.Events
  | refused r => r.Events

/-- The size that the server names. -/
def size? : FileAnswer → Option ℤ
  | listed a => some a.info.toUrlInfo.size
  | refused _ => none

end FileAnswer

/-- The files that are listed, with their sizes. -/
def sized (files : List SContentInfo) (answers : List FileAnswer) : List SContentInfo :=
  (List.zipWith (fun file (a : FileAnswer) => a.size?.map file.setSize) files answers).reduceOption

/-- The sum of the sizes; the updater keeps it in a `qint64`. -/
def totalSize (answers : List FileAnswer) : ℤ := (answers.map fun a => a.size?.getD 0).sum

/-! ### What is sent -/

/-- The files that are asked for. -/
def askedFiles (files : List SContentInfo) : List SContentInfo :=
  files.filter fun file => file.serverPath ≠ []

/-- What is sent for a file. -/
def askCmds (ask : QString) (file : SContentInfo) : List QString :=
  [str "TYPE A\r\n", ask, Session.listCmd file]

/-- What is sent in a size phase. -/
def sizeCmds (ask : QString) (manager : ContentManager) : List QByteArray :=
  let login := Session.rawCmds manager.loginInfo .login
  (login.1 :: login.2 ++ (askedFiles manager.contentFiles).flatMap (askCmds ask) ++
    [str "QUIT\r\n"]).map toLatin1

namespace Session

variable {env : Env} {s t : Session} {es : List SessionEvent} {up : State}

/-- The control connection has been opened, and the server is to greet. -/
structure Greets (s : Session) (id : ℕ) : Prop extends Listens s where
  begins : s.pi.state = .begin
  nothing : s.pi.pendingCommands = []
  fresh : s.pi.reader.replyText = []
  empty : s.pi.unread = []
  ready : s.pi.waitForDtpToConnect = false
  noData : s.dtp.state = .unconnected
  noErr : s.dtp.err = []
  notClosing : s.closeWait = false
  pending : s.up.ftp.pending = [(id, .connectToHost), (id + 1, .login)]
  login : s.up.loginCommand = id + 1
  heard : s.up.ftpTimeout = false

/-- The connection to the server. -/
theorem connects (peerAddress : QString) (ipv6 : Bool) {id : ℕ}
    (pending : up.ftp.pending = [(id, .connectToHost), (id + 1, .login)])
    (login : up.loginCommand = id + 1)
    (heard : up.ftpTimeout = false) (alive : up.crashed = false) :
    ∃ t, Hears env { up := up, starts := 1 } [.start, .hostFound, .connected peerAddress ipv6] t ∧
      Greets t id ∧ t.sent = [] ∧ t.up = { up with ftp := { up.ftp with state := .connected } } ∧
      t.pi.peerAddress = peerAddress ∧ t.pi.ipv6 = ipv6 ∧
      t.pi.transferConnectionExtended = true := by
  let pi : QFtpPI :=
    { address := some (up.contentManager.loginInfo.host,
        (toUInt (Nat.toDigits 10 (UInt16.ofInt up.contentManager.loginInfo.port).toNat)).toUInt16) }
  let inState (state : FtpState) : State := { up with ftp := { up.ftp with state := state } }
  have start : step env { up := up, starts := 1 } .start =
      some { up := up, starts := 0, stack := [.connectToHost] } := by
    simp [step, report, alive, startNextCommand, pending, Session.push]
  have looks : run { up := up, starts := 0 } .connectToHost =
      { up := inState .hostLookup, pi := { pi with socket := .hostLookup } } := rfl
  have found : step env { up := inState .hostLookup, pi := { pi with socket := .hostLookup } }
    .hostFound =
      some { up := inState .connecting, pi := { pi with socket := .connecting } } := by
    simp [step, report, alive, inState]
    rfl
  have opened : step env { up := inState .connecting, pi := { pi with socket := .connecting } }
      (.connected peerAddress ipv6) = some { up := inState .connected, pi := { pi with
        socket := .connected, peerAddress := peerAddress, ipv6 := ipv6, state := .begin } } := by
    simp [step, report, alive, inState]
    rfl
  let greets : Session :=
    { up := inState .connected
      pi := { pi with
        socket := .connected, peerAddress := peerAddress, ipv6 := ipv6, state := .begin } }
  refine ⟨greets, ?_, ?_, rfl, rfl, rfl, rfl, rfl⟩
  · refine .event rfl start (.tick .connectToHost [] ⟨rfl, alive⟩ rfl ?_)
    rw [looks]
    exact .event rfl found (.event rfl opened (.refl _))
  · exact {
      toWell := ⟨rfl, alive⟩
      stack := rfl, opened := rfl, free := rfl
      begins := rfl, nothing := rfl, fresh := rfl, empty := rfl
      ready := rfl, noData := rfl, noErr := rfl, notClosing := rfl
      pending := pending, login := login, heard := heard }

theorem processReply_begin {caller : Caller} (begins : s.pi.state = .begin)
    (ready : s.pi.reader.replyCode.first = 2) (plain : s.pi.reader.replyCode.Plain) :
    s.processReply caller = piFinished
      ({ s with pi := { s.pi with state := .idle } }.push (.react caller)) := by
  obtain ⟨-, no226, -, -, -, no250⟩ := plain.other
  unfold processReply
  simp only [no226, no250, false_or, false_and, if_false, begins, ready, if_true]

/-- After the greeting the client waits for the reply to its first command. -/
theorem Hears.begun (well : Well s) (stack : s.stack = [.react .readyRead])
    (waiting : s.pi.state = .waiting)
    (plain : s.pi.reader.replyCode.Plain) (empty : s.pi.unread = [])
    (free : s.pi.reader.waitForDtpToClose = false)
    (later : Hears env { s with
      pi := { s.pi with reader := ⟨[], s.pi.reader.replyCode, false⟩ }, stack := [] } es t) :
    Hears env s es t := by
  obtain ⟨-, -, no227, no229, no230, -⟩ := plain.other
  have replies (u : Session) (waiting : u.pi.state = .waiting) :
    u.newState .readyRead = u.replied .readyRead := by
    unfold newState
    simp only [waiting]
  refine .tick _ [] well stack ?_
  rw [run, react_plain (by exact no230) (by exact no227) (by exact no229)]
  refine .tick _ [] ⟨well.dead, well.alive⟩ rfl ?_
  rw [run, replies _ (by exact waiting)]
  refine .nothing ⟨well.dead, well.alive⟩ rfl empty ?_
  rw [← free] at later
  exact later

/-- The greeting ends the connecting, and the login starts. -/
theorem Hears.greeting {id : ℕ} (well : Well s) (stack : s.stack = [.processReply .readyRead])
    (begins : s.pi.state = .begin) (ready : s.pi.reader.replyCode.first = 2)
    (plain : s.pi.reader.replyCode.Plain) (empty : s.pi.unread = [])
    (free : s.pi.reader.waitForDtpToClose = false)
    (pending : s.up.ftp.pending.head? = some (id, .connectToHost))
    (done : ftpDone s.up none id .connectToHost = up) (left : up.ftp.pending = [(id + 1, .login)])
    (alive : up.crashed = false) (nothing : s.pi.pendingCommands = [])
    (opened : s.pi.socket = .connected)
    (noDtp : s.pi.waitForDtpToConnect = false)
    (later : Hears env (Session.launched { s with
      pi := { s.pi with reader := ⟨[], s.pi.reader.replyCode, false⟩, state := .idle }
      up := up
      stack := [] } .login) es t) : Hears env s es t := by
  refine .tick _ [] well stack ?_
  have notClose : FtpCommand.connectToHost ≠ .close := FtpCommand.noConfusion
  rw [run, processReply_begin (by exact begins) (by exact ready) (by exact plain),
    piFinished_launched (by exact pending) notClose (by exact done) left FtpCommand.noConfusion
      (by exact nothing) (by exact opened) rfl (by exact noDtp)]
  refine .begun ⟨well.dead, alive⟩ rfl rfl plain empty free ?_
  rw [launched_back]
  exact later

variable (env) in
/-- The greeting is answered with the `USER`. -/
theorem Greets.greeted {id : ℕ} (greets : Greets s id) {reply : FtpReply}
    (ready : reply.code.first = 2)
    (plain : reply.code.Plain) {packets : List QByteArray}
    (arrives : Packets reply.encode packets) :
    ∃ t, Hears env s (packets.map .received) t ∧ Keeps s t ∧
      Sent t (rawCmds s.up.contentManager.loginInfo .login).1
        (rawCmds s.up.contentManager.loginInfo .login).2 ∧
      t.up = { s.up with ftp := s.up.ftp.removeFirst } ∧
      t.sent = s.sent ++ [toLatin1 (rawCmds s.up.contentManager.loginInfo .login).1] := by
  have done : ftpDone s.up none id .connectToHost = { s.up with ftp := s.up.ftp.removeFirst } :=
    ftpDone_other greets.heard (by rw [greets.login]; omega)
  let begun : Session := { s with
    up := { s.up with ftp := s.up.ftp.removeFirst }
    pi := { s.pi with reader := ⟨[], reply.code, false⟩, unread := [], state := .idle }
    stack := [] }
  have settled : Settled begun := {
    toWell := ⟨greets.dead, greets.alive⟩
    stack := rfl, opened := greets.opened, free := rfl, fresh := rfl, nothing := rfl
    ready := greets.ready, noData := greets.noData, noErr := greets.noErr
    notClosing := greets.notClosing }
  have sends : FtpCommand.login ≠ .connectToHost := FtpCommand.noConfusion
  obtain ⟨sent, written⟩ := settled.launched sends
  refine ⟨begun.launched .login, ?_, ⟨rfl, rfl, rfl⟩, sent, rfl, written⟩
  rw [← List.append_nil (packets.map _)]
  refine .reply greets.toListens arrives greets.fresh greets.empty ?_
  refine .greeting ⟨greets.dead, greets.alive⟩ rfl greets.begins ready plain rfl greets.free
    (by rw [greets.pending]; rfl) done ?_ greets.alive greets.nothing greets.opened greets.ready
    (.refl _)
  rw [QFtp.pending_removeFirst, greets.pending]
  rfl

/-! ### The login -/

/-- The end of the login puts the first command of the size phase behind it. -/
theorem ftpDone_login {id : ℕ} (pending : up.ftp.pending = [(id, .login)])
    (loggedIn : up.ftp.state = .loggedIn)
    (login : up.loginCommand = id) (heard : up.ftpTimeout = false) (alive : up.crashed = false)
    (fresh : id < up.idCounter) :
    ∃ t, ftpDone up none id .login = t ∧
      Runs t up.idCounter (nextAsked up.ftpContentFiles).1 (nextAsked up.ftpContentFiles).2 ∧
      t.contentFiles = up.contentFiles ∧ t.totalBytes = up.totalBytes ∧
      t.contentManager = up.contentManager ∧
      t.scheduled = up.scheduled + if (nextAsked up.ftpContentFiles).1 = .close then 1 else 0 := by
  obtain ⟨t, asked, ftp, runs, -, files, total, manager, scheduled⟩ :=
    nextFtpFileOf_asks up.ftpContentFiles { up with ftpTimer := false } heard alive (login ▸ fresh)
  have done : ftpDone up none id .login = { t with ftp := t.ftp.removeFirst } := by
    rw [← asked]
    simp [ftpDone, commandFinished, ftpCommandFinished, answers, FtpCommand.listed?, heard,
      loggedIn, login, nextFtpFile]
  have left : t.ftp.removeFirst.pending = [(up.idCounter, (nextAsked up.ftpContentFiles).1)] := by
    rw [QFtp.pending_removeFirst, ftp, QFtp.pending_addCommand, pending]
    rfl
  exact ⟨_, done, { runs with pending := left }, files, total, manager, scheduled⟩

theorem dropPass_other (other : ¬ StartsWith "USER " s.pi.currentCmd) : s.dropPass = s :=
  if_neg fun drops => other drops.1

/-- After the reply to the `PASS` the client is logged in. -/
theorem react_loggedIn {caller : Caller} (is230 : s.pi.reader.replyCode.toInt = 230)
    (other : ¬ StartsWith "USER " s.pi.currentCmd) (notClosing : s.closeWait = false) :
    s.react caller = (s.push (.newState caller)).setState .loggedIn := by
  have code : (s.push (.newState caller)).pi = s.pi := rfl
  unfold react
  simp only [code, is230, if_true]
  rw [dropPass_other (by exact other), connectState]
  exact if_neg (ne_true_of_eq_false notClosing)

theorem Hears.loggedIn {id id' : ℕ} {next : FtpCommand} {behind : List (ℕ × FtpCommand)}
    (well : Well s)
    (stack : s.stack = [.processReply .readyRead]) (opened : s.pi.socket = .connected)
    (waiting : s.pi.state = .waiting) (nothing : s.pi.pendingCommands = [])
    (ready : s.pi.waitForDtpToConnect = false) (noErr : s.dtp.err = [])
    (notClosing : s.closeWait = false)
    (is230 : s.pi.reader.replyCode.toInt = 230) (valid : s.pi.reader.replyCode.Valid)
    (notUser : ¬ StartsWith "USER " s.pi.currentCmd) (empty : s.pi.unread = [])
    (free : s.pi.reader.waitForDtpToClose = false)
    (pending : s.up.ftp.pending.head? = some (id, .login))
    (done : ftpDone { s.up with ftp := { s.up.ftp with state := .loggedIn } } none id .login = up)
    (left : up.ftp.pending = (id', next) :: behind) (alive : up.crashed = false)
    (sends : next ≠ .connectToHost)
    (later : Hears env (Session.launched { s with
      pi := { s.pi with
        reader := ⟨[], s.pi.reader.replyCode, false⟩, state := .idle, currentCmd := [] }
      up := up
      stack := [] } next) es t) : Hears env s es t := by
  have first : s.pi.reader.replyCode.first = 2 := first_eq_two valid (by omega)
  have success : nextState s.pi.reader.replyCode = some .success := by
    simp [nextState, first]
    omega
  have notClose : FtpCommand.login ≠ .close := FtpCommand.noConfusion
  refine .tick _ [] well stack ?_
  rw [run, processReply_waiting (by exact waiting) (by exact success)
    (by show s.pi.reader.replyCode.toInt = 226 → _; omega)
    (by show s.pi.reader.replyCode.toInt ≠ 250; omega)]
  refine .tick _ [] ⟨well.dead, well.alive⟩ rfl ?_
  rw [run, react_loggedIn (by exact is230) (by exact notUser) (by exact notClosing)]
  refine .tick _ [] ⟨well.dead, well.alive⟩ rfl ?_
  rw [run, newState_positive (.inl rfl) (by exact noErr),
    startNextCmd_launched (by exact pending) notClose (by exact done) left sends (by exact nothing)
      (by exact opened) rfl (by exact ready)]
  exact .launched ⟨well.dead, alive⟩ rfl empty (fun _ => free) later

/-- Whatever the password, the command begins as a `PASS`. -/
theorem startsWith_pass {word : String} (short : (str word).length ≤ 5) (password : QString) :
    StartsWith word (str "PASS " ++ password ++ str "\r\n") ↔ StartsWith word (str "PASS ") := by
  rw [List.append_assoc]
  exact startsWith_append short

variable (env) in
/-- The reply to the last command of the login leads to the first command of the size phase. -/
theorem Sent.loggedIn {id : ℕ} {cmd : QString} (sent : Sent s cmd [])
    (notUser : ¬ StartsWith "USER " cmd)
    (pending : s.up.ftp.pending = [(id, .login)]) (login : s.up.loginCommand = id)
    (heard : s.up.ftpTimeout = false) (fresh : id < s.up.idCounter) {reply : FtpReply}
    (is230 : reply.code.toInt = 230) {packets : List QByteArray}
    (arrives : Packets reply.encode packets) :
    ∃ t u, Hears env s (packets.map .received) t ∧
      Ended s u s.up.idCounter (nextAsked s.up.ftpContentFiles).1
        (nextAsked s.up.ftpContentFiles).2 t ∧
      u.contentFiles = s.up.contentFiles ∧ u.totalBytes = s.up.totalBytes ∧
      u.contentManager = s.up.contentManager ∧
      u.scheduled =
        s.up.scheduled + if (nextAsked s.up.ftpContentFiles).1 = .close then 1 else 0 := by
  obtain ⟨u, done, runs, kept⟩ :=
    @ftpDone_login { s.up with ftp := { s.up.ftp with state := .loggedIn } } id
    pending rfl login heard sent.alive fresh
  let ended : Session := { s with
    pi := { s.pi with
      reader := ⟨[], reply.code, false⟩, unread := [], state := .idle, currentCmd := [] }
    up := u
    stack := [] }
  have settled : Settled ended := {
    toWell := ⟨sent.dead, runs.alive⟩
    stack := rfl, opened := sent.opened, free := rfl, fresh := rfl, nothing := rfl
    ready := sent.ready, noData := sent.noData, noErr := sent.noErr
    notClosing := sent.notClosing }
  refine ⟨ended.launched (nextAsked s.up.ftpContentFiles).1, u, ?_, ?_, kept⟩
  · rw [← List.append_nil (packets.map _)]
    refine .reply sent.toListens arrives sent.fresh sent.nothing ?_
    exact .loggedIn ⟨sent.dead, sent.alive⟩ rfl sent.opened sent.waiting sent.pending sent.ready
      sent.noErr
      sent.notClosing is230 reply.valid
        (by rw [show Session.pi _ = _ from rfl, sent.current]; exact notUser) rfl
      sent.free
        (by rw [show Session.up _ = s.up from rfl, pending]; rfl) done runs.pending runs.alive
      (nextAsked_ne _) (.refl _)
  · exact launched_ended (s := ended) runs ⟨rfl, rfl, rfl⟩ rfl (nextAsked_ne _) settled

variable (env) in
/-- **The login** leads to the first command of the size phase. -/
theorem Greets.logsIn {id : ℕ} (greets : Greets s id) (fresh : id + 1 < s.up.idCounter)
    {a : LoginAnswer}
    {greetingPackets userPackets passPackets : List QByteArray}
    (greeting : Packets a.greeting.encode greetingPackets)
    (user : Packets a.userReply.encode userPackets)
    (pass : Packets a.passReply.encode passPackets) :
    ∃ t id', Hears env s (greetingPackets.map .received ++ (userPackets.map .received ++
        passPackets.map .received)) t ∧
      Asks t id' (nextAsked s.up.ftpContentFiles).1 (nextAsked s.up.ftpContentFiles).2 ∧ Keeps s t ∧
      t.up.contentFiles = s.up.contentFiles ∧ t.up.totalBytes = s.up.totalBytes ∧
      t.up.contentManager.loginInfo = s.up.contentManager.loginInfo ∧
      t.up.scheduled =
        (s.up.scheduled + if (nextAsked s.up.ftpContentFiles).1 = .close then 1 else 0) ∧
      t.sent = s.sent ++ ((rawCmds s.up.contentManager.loginInfo .login).1 ::
        (rawCmds s.up.contentManager.loginInfo .login).2 ++
        [(rawCmds s.up.contentManager.loginInfo
          (nextAsked s.up.ftpContentFiles).1).1]).map toLatin1 := by
  obtain ⟨v, first, keeps, sent, after, written⟩ :=
    greets.greeted env a.ready a.greetingPlain greeting
  let passCmd : QString := str "PASS " ++ s.up.contentManager.loginInfo.password ++ str "\r\n"
  let passed : Session := (v.answered a.userReply.code).transmit passCmd []
  have notPasv : ¬ StartsWith "PASV" passCmd := by
    rw [startsWith_pass (by decide)]
    decide
  have notUser : ¬ StartsWith "USER " passCmd := by
    rw [startsWith_pass (by decide)]
    decide
  have current : passed.pi.currentCmd = passCmd := transmit_current notPasv []
  have sent' : Sent passed passCmd [] := current ▸ sent.transmitted a.userReply.code
  have up : passed.up = { s.up with ftp := s.up.ftp.removeFirst } := after
  have pending : passed.up.ftp.pending = [(id + 1, .login)] := by
    rw [up, QFtp.pending_removeFirst, greets.pending]
    rfl
  obtain ⟨t, u, last, ended, files, total, manager, scheduled⟩ := sent'.loggedIn env notUser pending
    (by rw [up]; exact greets.login) (by rw [up]; exact greets.heard) (by rw [up]; exact fresh)
      a.loggedIn pass
  have left : passed.up.ftpContentFiles = s.up.ftpContentFiles := by rw [up]
  rw [left] at ended scheduled
  rw [up] at files total manager scheduled
  refine ⟨t, _, first.trans ((sent.next a.userPlain user).trans last), ended.toAsks, ?_,
    ended.files.trans files, ended.total.trans total, ended.account.trans (congrArg _ manager),
    ended.scheduled.trans scheduled, ?_⟩
  · exact ⟨ended.peer.trans keeps.peer, ended.ipv6.trans keeps.ipv6,
      ended.extended.trans keeps.extended⟩
  · have later : passed.sent = v.sent ++ [toLatin1 passed.pi.currentCmd] := rfl
    rw [ended.written, later, current, written, manager]
    simp only [List.append_assoc]
    rfl

/-! ### The size phase -/

theorem nextAsked_cases (files : List SContentInfo) :
    askedFiles files = [] ∧ nextAsked files = (.close, []) ∨
      ∃ file rest, askedFiles files = file :: askedFiles rest ∧
      nextAsked files = (.list file, rest) := by
  induction files with
  | nil => exact .inl ⟨rfl, rfl⟩
  | cons file rest ih =>
      rw [nextAsked, askedFiles]
      split
      · rename_i none
        rwa [List.filter_cons_of_neg (by simp [none])]
      · rename_i some
        exact .inr ⟨file, rest, List.filter_cons_of_pos (by simp [some]), rfl⟩

theorem passiveCmd_keeps (keeps : Keeps s t) : passiveCmd t.pi = passiveCmd s.pi := by
  rw [passiveCmd, passiveCmd, keeps.ipv6, keeps.extended]

variable (env) in
/-- The answer to a `LIST`, whatever it is. -/
theorem Asks.heard {id : ℕ} {file : SContentInfo} {rest : List SContentInfo}
    (asks : Asks s id (.list file) rest)
    {a : FileAnswer} (names : a.Names s.pi.peerAddress) (events : a.Events es) {bytes : ℤ}
    (total : s.up.totalBytes = qint64 bytes) :
    ∃ t, Hears env s es t ∧ Asks t s.up.idCounter (nextAsked rest).1 (nextAsked rest).2 ∧
    Keeps s t ∧
      t.up.contentFiles = s.up.contentFiles ++ (a.size?.map file.setSize).toList ∧
      t.up.totalBytes = qint64 (bytes + a.size?.getD 0) ∧
      t.up.contentManager.loginInfo = s.up.contentManager.loginInfo ∧
      t.up.scheduled = (s.up.scheduled + if (nextAsked rest).1 = .close then 1 else 0) ∧
      t.sent = s.sent ++ [passiveCmd s.pi, listCmd file,
        (rawCmds s.up.contentManager.loginInfo (nextAsked rest).1).1].map toLatin1 := by
  cases a with
  | listed a =>
      obtain ⟨t, hears, again, keeps, files, sum, later⟩ := asks.answered env names events
      refine ⟨t, hears, again, keeps, files, ?_, later⟩
      rw [sum, total, qint64_add]
      rfl
  | refused r =>
      obtain ⟨t, hears, again, keeps, files, same, later⟩ := asks.refused env names events
      refine ⟨t, hears, again, keeps, ?_, ?_, later⟩
      · rw [files]
        exact (List.append_nil _).symm
      · rw [same, total]
        exact congrArg qint64 (add_zero bytes).symm

variable (env) in
/-- **The answers to the `LIST`s**, from the first command of the size phase to the `QUIT`. -/
theorem Asks.all {answers : List FileAnswer} {parts : List (List SessionEvent)}
    (events : List.Forall₂ FileAnswer.Events answers parts) {files : List SContentInfo} {id : ℕ}
    (asks : Asks s id (nextAsked files).1 (nextAsked files).2)
    (names : ∀ a ∈ answers, a.Names s.pi.peerAddress)
    (count : answers.length = (askedFiles files).length)
    {bytes : ℤ} (total : s.up.totalBytes = qint64 bytes) {before : List QByteArray}
    (written : s.sent =
      before ++ [toLatin1 (rawCmds s.up.contentManager.loginInfo (nextAsked files).1).1])
    {n : ℕ} (scheduled : s.up.scheduled = n + if (nextAsked files).1 = .close then 1 else 0) :
    ∃ t id', Hears env s parts.flatten t ∧ Asks t id' .close [] ∧
      t.up.contentFiles = s.up.contentFiles ++ sized (askedFiles files) answers ∧
      t.up.totalBytes = qint64 (bytes + totalSize answers) ∧ t.up.scheduled = n + 1 ∧
      t.sent = before ++ ((askedFiles files).flatMap (askCmds (passiveCmd s.pi)) ++
        [str "QUIT\r\n"]).map toLatin1 := by
  induction events generalizing s files id before bytes with
  | nil =>
      rcases nextAsked_cases files with ⟨none, next⟩ | ⟨file, rest, some, -⟩
      · rw [next] at asks written scheduled
        rw [none]
        refine ⟨s, id, .refl _, asks, ?_, ?_, scheduled, ?_⟩
        · rw [sized, List.zipWith_nil_left]
          exact (List.append_nil _).symm
        · rw [total]
          exact congrArg qint64 (add_zero bytes).symm
        · rw [written, List.flatMap_nil, List.nil_append]
          rfl
      · rw [some] at count
        cases count
  | @cons a part answers parts event _ ih =>
      rcases nextAsked_cases files with ⟨none, -⟩ | ⟨file, rest, some, next⟩
      · rw [none] at count
        cases count
      · rw [next] at asks written scheduled
        rw [some] at count ⊢
        obtain ⟨u, first, again, keeps, listed, sum, account, schedules, sent⟩ :=
          asks.heard env (names a List.mem_cons_self) event total
        have written' : u.sent = (before ++ (askCmds (passiveCmd s.pi) file).map toLatin1) ++
            [toLatin1 (rawCmds u.up.contentManager.loginInfo (nextAsked rest).1).1] := by
          rw [sent, written, account]
          simp [askCmds, rawCmds]
        have scheduled' : u.up.scheduled = n + if (nextAsked rest).1 = .close then 1 else 0 := by
          rw [schedules, scheduled]
          rfl
        obtain ⟨t, id', later, asked, files, total, done, all⟩ := ih again
          (fun a mem => keeps.peer ▸ names a (List.mem_cons_of_mem _ mem)) (Nat.succ.inj count) sum
          written' scheduled'
        refine ⟨t, id', first.trans later, asked, ?_, ?_, done, ?_⟩
        · have first : sized (file :: askedFiles rest) (a :: answers) =
              (a.size?.map file.setSize).toList ++ sized (askedFiles rest) answers := by
            rw [sized, List.zipWith_cons_cons]
            cases a.size? <;> rfl
          rw [files, listed, first, List.append_assoc]
        · rw [total, add_assoc]
          rfl
        · rw [all, passiveCmd_keeps keeps, List.flatMap_cons]
          simp only [List.append_assoc, List.map_append]

/-! ### The stage -/

/-- A stage has begun with a new `QFtp`. -/
structure Begins (up : State) (id : ℕ) : Prop where
  pending : up.ftp.pending = [(id, .connectToHost), (id + 1, .login)]
  login : up.loginCommand = id + 1
  fresh : id + 1 < up.idCounter
  heard : up.ftpTimeout = false
  alive : up.crashed = false
  files : up.ftpContentFiles = up.contentManager.contentFiles
  nothing : up.contentFiles = []
  noBytes : up.totalBytes = 0

theorem getTotalSize_begins (alive : up.crashed = false) (nothing : up.contentFiles = [])
    (asks : (getTotalSize up).ftp.pending ≠ []) : ∃ id, Begins (getTotalSize up) id := by
  rcases getTotalSize_cases up with ⟨-, made⟩ | ⟨-, made⟩ | ⟨-, made⟩
  · rw [made] at asks
    exact absurd rfl asks
  · refine ⟨up.idCounter, ?_⟩
    rw [made]
    exact ⟨rfl, rfl, Nat.lt_succ_self _, rfl, alive, rfl, nothing, rfl⟩
  · rw [made] at asks
    exact absurd rfl asks

theorem step_renewed_up {v : Session} {e : Event} (takes : step env s (.other e) = some v)
    (new : renews s.up e = true) :
    MediaUpdater.step env s.up e = some v.up ∧
      v = { up := v.up, starts := if v.up.ftp.pending = [] then 0 else 1 } := by
  simp only [step] at takes
  split at takes
  · cases takes
  · split at takes
    · cases takes
    · obtain ⟨up, took, rfl⟩ := Option.map_eq_some_iff.mp takes
      rw [updated, if_pos new]
      exact ⟨took, rfl⟩

/-- **A size phase over the wire.**  After an event that starts a stage, and a size phase in it, a
server that lists or refuses every file makes those it lists join the queue with the sizes of their
listings.  The commands that are sent are those of a login, three for each file with a server path,
and the `QUIT`; how the bytes are cut into packets, and how the packets of the two connections are
mixed, does not matter. -/
theorem sizes_heard {v : Session} {e : Event} (takes : step env s (.other e) = some v)
    (new : renews s.up e = true) (asks : v.up.ftp.pending ≠ []) {server : LoginAnswer}
    {login : List SessionEvent}
    (logsIn : server.Events login) {answers : List FileAnswer} {parts : List (List SessionEvent)}
    (lists : List.Forall₂ FileAnswer.Events answers parts)
    (names : ∀ a ∈ answers, a.Names server.peerAddress)
    (count : answers.length = (askedFiles v.up.contentManager.contentFiles).length) :
    ∃ t, Hears env v (login ++ parts.flatten) t ∧
      t.up.contentFiles = sized (askedFiles v.up.contentManager.contentFiles) answers ∧
      t.up.totalBytes = qint64 (totalSize answers) ∧ t.up.scheduled = v.up.scheduled + 1 ∧
      t.sent = sizeCmds server.ask v.up.contentManager := by
  obtain ⟨took, form⟩ := step_renewed_up takes new
  obtain ⟨id, begins⟩ : ∃ id, Begins v.up id := by
    rcases step_renewed took new with same | ⟨u, same, alive, nothing⟩
    · rw [same] at asks
      exact absurd rfl asks
    · rw [same] at asks ⊢
      exact getTotalSize_begins alive nothing asks
  rw [if_neg asks] at form
  obtain ⟨g, opens, greets, none, up, peer, ipv6, extended⟩ :=
    @connects env v.up server.peerAddress server.ipv6 id
    begins.pending begins.login begins.heard begins.alive
  obtain ⟨greetingPackets, userPackets, passPackets, greeting, user, pass, rfl⟩ := logsIn
  obtain ⟨l, id', enters, asked, keeps, files, bytes, account, scheduled, sent⟩ :=
    greets.logsIn env (by rw [up]; exact begins.fresh) greeting user pass
  rw [up] at files bytes account asked scheduled sent
  rw [begins.files] at asked scheduled sent
  rw [none, List.nil_append, List.map_append, ← account] at sent
  have zero : l.up.totalBytes = qint64 0 := bytes.trans begins.noBytes
  obtain ⟨t, id'', asksFor, -, queue, sum, done, all⟩ := asked.all env lists
    (fun a mem => by rw [keeps.peer, peer]; exact names a mem) count zero sent scheduled
  have ask : passiveCmd l.pi = server.ask := by
    rw [passiveCmd_keeps keeps, passiveCmd, extended, ipv6, LoginAnswer.ask]
    simp only [and_true]
  refine ⟨t, ?_, ?_, ?_, done, ?_⟩
  · rw [form]
    exact (opens.trans enters).trans asksFor
  · rw [queue, files]
    show v.up.contentFiles ++ _ = _
    rw [begins.nothing, List.nil_append]
  · rw [sum, zero_add]
  · rw [all, ask, account, ← List.map_append, ← List.append_assoc]
    rfl

end Session

/-! ### An example -/

/-- A reply of one line. -/
def FtpReply.ofText (code : ReplyCode) (text : QByteArray) (valid : code.Valid)
    (plain : 10 ∉ text ∧ 0 ∉ text) : FtpReply where
  code := code
  before := []
  last := text
  valid := valid
  plain := by simpa using plain
  first := first_nil
  inside _ mem := absurd mem List.not_mem_nil

theorem Packets.single {bytes : QByteArray} (filled : bytes ≠ []) : Packets bytes [bytes] :=
  ⟨by simp, by simpa using filled⟩

/-- A server that asks for a password. -/
def LoginAnswer.demo : LoginAnswer where
  peerAddress := str "10.0.0.7"
  ipv6 := false
  greeting := .greeting
  userReply := .needPassword
  passReply := .ofText ⟨2, 3, 0⟩ [] (by decide) (by simp)
  ready := rfl
  greetingPlain := ⟨.inl rfl, by decide⟩
  userPlain := ⟨.inr rfl, by decide⟩
  loggedIn := by decide

/-- The listing of a file of three bytes. -/
def ListReplies.demo : ListReplies where
  typeReply := .ofText ⟨2, 0, 0⟩ [] (by decide) (by simp)
  passive := .ofText ⟨2, 2, 7⟩ (ascii "(10,0,0,7,4,1)") (by decide) (by decide)
  opening := .ofText ⟨1, 5, 0⟩ [] (by decide) (by simp)
  closing := .ofText ⟨2, 2, 6⟩ [] (by decide) (by simp)
  line := ascii "-rw-r--r-- 1 box box 3 Aug 10 2004 file\r\n"
  info :=
    { name := str "file", permissions := 420, owner := str "box", group := str "box", size := 3,
      isWritable := false }
  typePlain := ⟨.inl rfl, by decide⟩
  preliminary := rfl
  closes := by decide
  isLine := ⟨ascii "-rw-r--r-- 1 box box 3 Aug 10 2004 file\r", by decide, by decide⟩
  parses := by decide +kernel
  regular := rfl

/-- There is no such file. -/
def Refusal.demo : Refusal where
  typeReply := .ofText ⟨2, 0, 0⟩ [] (by decide) (by simp)
  passive := .ofText ⟨2, 2, 7⟩ (ascii "(10,0,0,7,4,1)") (by decide) (by decide)
  refusal := .ofText ⟨5, 5, 0⟩ [] (by decide) (by simp)
  typePlain := ⟨.inl rfl, by decide⟩
  refuses := .inr rfl

namespace Session

/-- The updater is about to get the login data. -/
def demo : Session := { up := { State.boot .blank with accountPending := true } }

/-- The five command files, two of which are refused. -/
theorem sizes_heard_demo :
    ∃ t : Session, t.up.totalBytes = 9 ∧ t.up.contentFiles.length = 3 ∧ t.sent.length = 18 := by
  let answers : List FileAnswer :=
    [.listed .demo, .refused .demo, .listed .demo, .listed .demo, .refused .demo]
  have begins : (step .demo demo (.other (.accountReady (some .demo)))).map (fun v =>
      (v.up.ftp.pending.isEmpty, (askedFiles v.up.contentManager.contentFiles).length,
        (sized (askedFiles v.up.contentManager.contentFiles) answers).length,
        (sizeCmds LoginAnswer.demo.ask v.up.contentManager).length)) = some (false, 5, 3, 18) := by
    decide +kernel
  obtain ⟨v, takes, facts⟩ := Option.map_eq_some_iff.mp begins
  simp only [Prod.mk.injEq, List.isEmpty_eq_false_iff] at facts
  obtain ⟨asks, count, files, cmds⟩ := facts
  have filled (reply : FtpReply) : Packets reply.encode [reply.encode] :=
    .single (FtpReply.encode_ne_nil reply)
  have logsIn : ∃ es, LoginAnswer.demo.Events es := ⟨_, _, _, _, filled _, filled _, filled _, rfl⟩
  have lists : ∃ es, (FileAnswer.listed .demo).Events es := by
    refine ⟨_, _, _, _, _, _, filled _, filled _, .single ?_, .single ?_, .append _ _, rfl⟩
    · exact List.append_ne_nil_of_left_ne_nil (FtpReply.encode_ne_nil _) _
    · exact List.cons_ne_nil _ _
  have refuses : ∃ es, (FileAnswer.refused .demo).Events es :=
    ⟨_, _, _, _, filled _, filled _, filled _, rfl⟩
  obtain ⟨_, logsIn⟩ := logsIn
  obtain ⟨_, lists⟩ := lists
  obtain ⟨_, refuses⟩ := refuses
  have names : ∀ a ∈ answers, a.Names LoginAnswer.demo.peerAddress := by
    have listed : ListReplies.demo.Names LoginAnswer.demo.peerAddress :=
      ⟨str "10.0.0.7", 1025, by decide +kernel⟩
    have refused : Refusal.demo.Names LoginAnswer.demo.peerAddress :=
      ⟨str "10.0.0.7", 1025, by decide +kernel⟩
    intro a mem
    simp only [answers, List.mem_cons, List.not_mem_nil, or_false] at mem
    rcases mem with rfl | rfl | rfl | rfl | rfl
    · exact listed
    · exact refused
    · exact listed
    · exact listed
    · exact refused
  obtain ⟨t, -, queue, sum, -, sent⟩ := sizes_heard takes rfl asks logsIn
    (.cons lists (.cons refuses (.cons lists (.cons lists (.cons refuses .nil))))) names
    (by rw [count]; rfl)
  exact ⟨t, sum.trans (by decide), (congrArg List.length queue).trans files,
    (congrArg List.length sent).trans cmds⟩

end Session

end MediaUpdater
