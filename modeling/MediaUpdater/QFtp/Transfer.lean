import MediaUpdater.Download.Handlers
import MediaUpdater.Library.Interleave
import MediaUpdater.QFtp.Dialogue

/-!
# A listing over two connections

A `LIST` is answered on two connections: its replies come on the control connection, the listing on
the data connection, and nothing keeps what comes on the one in step with what comes on the
other.  Here the client is followed from the first of the commands of a `LIST` to the next command
of the queue, for any order in which the packets of the two connections arrive.

## Main result

* `Asks.answered` — whatever the order, the line of the listing is announced, the command ends, and
  the next one is sent.
-/

namespace MediaUpdater

open Library DownloadManager

/-! ### The updater -/

/-- What is asked next, and what is left behind it. -/
def nextAsked : List SContentInfo → FtpCommand × List SContentInfo
  | [] => (.close, [])
  | file :: rest => if file.serverPath = [] then nextAsked rest else (.list file, rest)

/-- The size phase is at a command, with the files `rest` behind it. -/
structure Runs (up : State) (id : ℕ) (command : FtpCommand) (rest : List SContentInfo) : Prop where
  pending : up.ftp.pending = [(id, command)]
  left : up.ftpContentFiles = rest
  current : ∀ file, command = .list file → up.currentContentFile = some file
  heard : up.ftpTimeout = false
  alive : up.crashed = false
  login : up.loginCommand < id
  fresh : id < up.idCounter

/-- The line of the running `LIST`. -/
def lineHeard (up : State) (file : SContentInfo) (info : QUrlInfo) : State :=
  listInfo { up with log := .listed file info :: up.log } info

variable {up : State} {id : ℕ} {file : SContentInfo} {rest : List SContentInfo} {info : QUrlInfo}

theorem nextAsked_ne (files : List SContentInfo) : (nextAsked files).1 ≠ .connectToHost := by
  induction files with
  | nil => nofun
  | cons file rest ih =>
      rw [nextAsked]
      split
      · exact ih
      · nofun

/-- `nextFtpFile` puts a command behind the running one. -/
theorem nextFtpFileOf_asks (files : List SContentInfo) (up : State) (heard : up.ftpTimeout = false)
    (alive : up.crashed = false) (login : up.loginCommand < up.idCounter) :
    ∃ t, nextFtpFileOf files up = t ∧
      t.ftp = up.ftp.addCommand up.idCounter (nextAsked files).1 ∧
      Runs { t with ftp := { t.ftp with pending := [(up.idCounter, (nextAsked files).1)] } }
        up.idCounter
        (nextAsked files).1 (nextAsked files).2 ∧
      t.loginCommand = up.loginCommand ∧
      t.contentFiles = up.contentFiles ∧ t.totalBytes = up.totalBytes ∧
      t.contentManager = up.contentManager ∧
      t.scheduled = up.scheduled + if (nextAsked files).1 = .close then 1 else 0 := by
  induction files generalizing up with
  | nil =>
      refine ⟨_, rfl, rfl, ⟨rfl, rfl, nofun, heard, alive, login, Nat.lt_succ_self _⟩, rfl, rfl,
        rfl, rfl, ?_⟩
      simp [nextAsked, nextFtpFileOf]
  | cons file rest ih =>
      rw [nextAsked, nextFtpFileOf]
      split
      · exact ih _ heard alive login
      · refine ⟨_, rfl, rfl, ⟨rfl, rfl, ?_, rfl, alive, login, Nat.lt_succ_self _⟩, rfl, rfl, rfl,
          rfl, ?_⟩
        · rintro other ⟨⟩
          rfl
        · simp [addFtpCommand]

/-- The end of a command that is not the login. -/
theorem ftpDone_other {command : FtpCommand} (heard : up.ftpTimeout = false)
    (other : up.loginCommand ≠ id) :
    ftpDone up none id command =
      { up with log := answers none command ++ up.log, ftp := up.ftp.removeFirst } := by
  simp only [ftpDone, commandFinished, ftpCommandFinished, heard, other, and_false, if_false,
    Bool.false_eq_true]

/-- The line of a `LIST` is heard, and then its end, which leaves the updater in the state `t`, with
another command to send. -/
structure Listed (up : State) (file : SContentInfo) (info : QUrlInfo) (id : ℕ) (t : State) (id' : ℕ)
    (next : FtpCommand) (rest : List SContentInfo) : Prop where
  running : (lineHeard up file info).ftp.pending.head? = some (id, .list file)
  alive : (lineHeard up file info).crashed = false
  done : ftpDone (lineHeard up file info) none id (.list file) = t
  runs : Runs t id' next rest
  sends : next ≠ .connectToHost

/-- A line that names a regular file, and the end of its `LIST`. -/
theorem Runs.listed (runs : Runs up id (.list file) rest) (regular : info.isRegularFile = true) :
    ∃ t, Listed up file info id t up.idCounter (nextAsked rest).1 (nextAsked rest).2 ∧
      t.contentFiles = up.contentFiles ++ [file.setSize info.size] ∧
      t.totalBytes = qint64 (up.totalBytes + info.size) ∧
      t.contentManager.loginInfo = up.contentManager.loginInfo ∧
      t.scheduled = up.scheduled + if (nextAsked rest).1 = .close then 1 else 0 := by
  obtain ⟨t, asked, ftp, next, login, files, total, manager, scheduled⟩ := nextFtpFileOf_asks rest
    { up with
      log := .listed file info :: up.log
      ftpTimer := false
      totalBytes := qint64 (up.totalBytes + info.size)
      currentContentFile := some (file.setSize info.size)
      contentFiles := up.contentFiles ++ [file.setSize info.size]
      contentManager := up.contentManager.appendSize info.size }
    runs.heard runs.alive (runs.login.trans runs.fresh)
  have line : lineHeard up file info = t := by
    rw [← asked, lineHeard, listInfo]
    simp only [runs.heard, regular, appendListed, runs.current file rfl, nextFtpFile, runs.left]
    rfl
  have pending : t.ftp.pending = [(id, .list file), (up.idCounter, (nextAsked rest).1)] := by
    rw [ftp, QFtp.pending_addCommand, runs.pending]
    rfl
  have notLogin : t.loginCommand ≠ id := by
    rw [login]
    exact runs.login.ne
  have account := congrArg ContentManager.loginInfo manager
  have heard : t.ftpTimeout = false := next.heard
  refine ⟨{ t with log := answers none (.list file) ++ t.log, ftp := t.ftp.removeFirst },
    ⟨?_, ?_, ?_, ?_, nextAsked_ne rest⟩, files, total, account, scheduled⟩
  · rw [line, pending]
    rfl
  · rw [line]
    exact next.alive
  · rw [line]
    exact ftpDone_other heard notLogin
  · exact { next with pending := by rw [QFtp.pending_removeFirst, pending]; rfl }

/-! ### The server -/

/-- What a server answers to the commands of a `LIST`. -/
structure ListReplies where
  typeReply : FtpReply
  passive : FtpReply
  opening : FtpReply
  closing : FtpReply
  line : QByteArray
  info : QUrlInfoPrivate
  typePlain : typeReply.code.Plain
  preliminary : opening.code.first = 1
  closes : closing.code.toInt = 226
  isLine : ∃ body, 10 ∉ body ∧ line = body ++ [10]
  parses : QFtpDTP.parseDir line [] = some info
  regular : info.toUrlInfo.isRegularFile = true

namespace ListReplies

variable (a : ListReplies)

/-- The reply to the `PASV` has an address. -/
def Names (peerAddress : QString) : Prop :=
  ∃ host port, QFtpPI.dataAddress peerAddress a.passive.code.toInt a.passive.text = .found host port

/-- The events at the sockets.  Behind the `LIST` the packets of the two connections come in
any order. -/
def Events (es : List SessionEvent) : Prop :=
  ∃ typePackets passivePackets controlPackets dataPackets mixed,
    Packets a.typeReply.encode typePackets ∧ Packets a.passive.encode passivePackets ∧
      Packets (a.opening.encode ++ a.closing.encode) controlPackets ∧ Packets a.line dataPackets ∧
      Interleave (controlPackets.map .received) (dataPackets.map .dtpReceived ++ [.dtpDisconnected])
        mixed ∧
      es = typePackets.map .received ++ (passivePackets.map .received ++ .dtpConnected :: mixed)

end ListReplies

namespace Session

variable {env : Env} {s t : Session} {es : List SessionEvent} {a : ListReplies}

/-- The first command for a command of the size phase has been sent. -/
structure Asks (s : Session) (id : ℕ) (command : FtpCommand) (rest : List SContentInfo) : Prop where
  sent : Sent s (rawCmds s.up.contentManager.loginInfo command).1
      (rawCmds s.up.contentManager.loginInfo command).2
  runs : Runs s.up id command rest

/-- The `LIST` has been sent, and the tasks are to be done. -/
structure Transfers (s : Session) (tasks : List Task) : Prop extends Well s where
  stack : s.stack = tasks
  opened : s.pi.socket = .connected
  waiting : s.pi.state = .waiting
  list : StartsWith "LIST" s.pi.currentCmd
  nothing : s.pi.pendingCommands = []
  ready : s.pi.waitForDtpToConnect = false
  noErr : s.dtp.err = []
  notClosing : s.closeWait = false

/-- How far the replies behind the `LIST` have come; `xs` is still to come. -/
inductive Control (a : ListReplies) (xs : List SessionEvent) (s : Session) : Prop
  | reads {start : ReplyReader} {part : QByteArray} {packets : List QByteArray} {reply : FtpReply}
      {behind : QByteArray} (events : xs = packets.map .received)
      (partway : QFtpPI.Partway start part s.pi.reader s.pi.unread) (fresh : start.replyText = [])
      (free : start.waitForDtpToClose = false) (free' : s.pi.reader.waitForDtpToClose = false)
      (nonempty : ∀ packet ∈ packets, packet ≠ [])
      (cut : part <+: reply.encode) (short : part ≠ reply.encode)
      (bytes : part ++ packets.flatten = reply.encode ++ behind)
      (which : reply = a.opening ∧ behind = a.closing.encode ∨ reply = a.closing ∧ behind = [])
  | waits (events : xs = []) (reader : s.pi.reader = ⟨a.closing.text, a.closing.code, true⟩)
      (nothing : s.pi.unread = []) (open_ : s.dtp.state = .connected)

/-- How far the listing has come; `ys` is still to come. -/
inductive Data (a : ListReplies) (up : State) (file : SContentInfo) (ys : List SessionEvent)
    (s : Session) : Prop
  | opened {part : QByteArray} {packets : List QByteArray}
      (events : ys = packets.map .dtpReceived ++ [.dtpDisconnected])
      (open_ : s.dtp.state = .connected)
      (bytes : part ++ packets.flatten = a.line) (nonempty : ∀ packet ∈ packets, packet ≠ [])
      (heard : if part = a.line then s.up = lineHeard up file a.info.toUrlInfo ∧ s.dtp.unread = []
        else s.up = up ∧ s.dtp.unread = part)
  | closed (events : ys = []) (noData : s.dtp.state = .unconnected)
      (heard : s.up = lineHeard up file a.info.toUrlInfo)

/-- What no event of the sockets changes. -/
structure Keeps (s t : Session) : Prop where
  peer : t.pi.peerAddress = s.pi.peerAddress
  ipv6 : t.pi.ipv6 = s.pi.ipv6
  extended : t.pi.transferConnectionExtended = s.pi.transferConnectionExtended

/-- The `LIST` of `file`, with `xs` and `ys` to come on the two connections. -/
structure During (a : ListReplies) (s₀ : Session) (up : State) (file : SContentInfo)
    (xs ys : List SessionEvent) (s : Session) : Prop extends Transfers s [], Keeps s₀ s where
  sent : s.sent = s₀.sent
  control : Control a xs s
  data : Data a up file ys s

/-- The next command has been sent, with the updater in the state `up`. -/
structure Ended (s₀ : Session) (up : State) (id : ℕ) (command : FtpCommand)
    (rest : List SContentInfo)
    (t : Session) : Prop extends Asks t id command rest, Keeps s₀ t where
  files : t.up.contentFiles = up.contentFiles
  total : t.up.totalBytes = up.totalBytes
  account : t.up.contentManager.loginInfo = up.contentManager.loginInfo
  scheduled : t.up.scheduled = up.scheduled
  written : t.sent = s₀.sent ++ [toLatin1 (rawCmds up.contentManager.loginInfo command).1]

/-- The next command is sent. -/
theorem launched_ended {s₀ : Session} {id : ℕ} {command : FtpCommand} {rest : List SContentInfo}
    (runs : Runs s.up id command rest) (keeps : Keeps s₀ s) (same : s.sent = s₀.sent)
    (sends : command ≠ .connectToHost) (settled : Settled s) :
    Ended s₀ s.up id command rest (s.launched command) := by
  obtain ⟨sent, written⟩ := settled.launched sends
  -- only the `QUIT` changes the state of the client
  have account : (s.launched command).up.contentManager = s.up.contentManager := by
    cases command <;> rfl
  have kept : Keeps s (s.launched command) := by
    cases command <;> exact { peer := rfl, ipv6 := rfl, extended := rfl }
  exact
    { sent := by rwa [account]
      runs := by cases command <;> exact { runs with }
      peer := kept.peer.trans keeps.peer
      ipv6 := kept.ipv6.trans keeps.ipv6
      extended := kept.extended.trans keeps.extended
      files := by cases command <;> rfl
      total := by cases command <;> rfl
      account := by rw [account]
      scheduled := by cases command <;> rfl
      written := same ▸ written }

/-! ### The replies behind the `LIST` -/

theorem first_eq_one {code : ReplyCode} (valid : code.Valid) (first : code.first = 1) :
    100 ≤ code.toInt ∧ code.toInt ≤ 159 := by
  obtain ⟨-, second, third⟩ := valid
  rw [ReplyCode.toInt]
  omega

/-- After a preliminary reply the client reads on. -/
theorem Hears.preliminary (well : Well s) (stack : s.stack = [.processReply .readyRead])
    (waiting : s.pi.state = .waiting) (first : s.pi.reader.replyCode.first = 1)
    (valid : s.pi.reader.replyCode.Valid) (free : s.pi.reader.waitForDtpToClose = false)
    (later : Hears env { s with
      pi := { s.pi with reader := ⟨[], s.pi.reader.replyCode, false⟩, state := .waiting }
      stack := [.readLoop] } es t) : Hears env s es t := by
  have range := first_eq_one valid first
  have next : nextState s.pi.reader.replyCode = some .waiting := by
    simp [nextState, first]
    omega
  have no226 : s.pi.reader.replyCode.toInt ≠ 226 := by omega
  refine .tick _ [] well stack ?_
  rw [run, processReply_waiting (by exact waiting) (by exact next)
    (by exact fun is226 => absurd is226 no226)
    (by show s.pi.reader.replyCode.toInt ≠ 250; omega)]
  refine .tick _ [] ⟨well.dead, well.alive⟩ rfl ?_
  rw [run, react_plain (by show s.pi.reader.replyCode.toInt ≠ 230; omega)
    (by show s.pi.reader.replyCode.toInt ≠ 227; omega)
    (by show s.pi.reader.replyCode.toInt ≠ 229; omega)]
  refine .tick _ [] ⟨well.dead, well.alive⟩ rfl ?_
  rw [← free] at later
  exact later

/-- While the data connection is open, its end is waited for. -/
theorem Hears.delayed (well : Well s) (stack : s.stack = [.processReply .readyRead])
    (closes : s.pi.reader.replyCode.toInt = 226) (open_ : s.dtp.state = .connected)
    (nothing : s.pi.unread = [])
    (later : Hears env { s with
      pi := { s.pi with reader := { s.pi.reader with waitForDtpToClose := true } }, stack :=
      [] } es t) :
    Hears env s es t := by
  have waits (u : Session) (closes : u.pi.reader.replyCode.toInt = 226)
    (open_ : u.dtp.state = .connected) :
      u.processReply .readyRead = { u with
        pi := { u.pi with reader := { u.pi.reader with waitForDtpToClose := true } } }.push
          .readLoop := by
    unfold processReply
    simp only [closes, open_]
    rfl
  refine .tick _ [] well stack ?_
  rw [run, waits _ (by exact closes) (by exact open_)]
  exact .nothing ⟨well.dead, well.alive⟩ rfl nothing later

/-- The end of the `LIST`. -/
theorem Hears.finished {caller : Caller} {id id' : ℕ} {next : FtpCommand} {file : SContentInfo}
    {behind : List (ℕ × FtpCommand)} {up : State}
    (well : Well s) (stack : s.stack = [.processReply caller]) (opened : s.pi.socket = .connected)
    (waiting : s.pi.state = .waiting) (nothing : s.pi.pendingCommands = [])
    (ready : s.pi.waitForDtpToConnect = false) (noErr : s.dtp.err = [])
    (noData : s.dtp.state = .unconnected)
    (closes : s.pi.reader.replyCode.toInt = 226) (valid : s.pi.reader.replyCode.Valid)
    (empty : s.pi.unread = []) (free : caller = .readyRead → s.pi.reader.waitForDtpToClose = false)
    (pending : s.up.ftp.pending.head? = some (id, .list file))
    (done : ftpDone s.up none id (.list file) = up)
    (left : up.ftp.pending = (id', next) :: behind) (alive : up.crashed = false)
    (sends : next ≠ .connectToHost)
    (later : Hears env (Session.launched { s with
      pi := { s.pi with
        reader := ⟨[], s.pi.reader.replyCode, false⟩, state := .idle, currentCmd := [] }
      up := up
      stack := [] } next) es t) : Hears env s es t := by
  refine .positive well stack waiting noErr (.inl (first_eq_two valid (by omega)))
    (by simp [closes])
    (fun _ => noData) ?_
  have notClose : FtpCommand.list file ≠ .close := FtpCommand.noConfusion
  rw [startNextCmd_launched (by exact pending) notClose (by exact done) left sends
    (by exact nothing)
    (by exact opened) rfl (by exact ready)]
  exact .launched ⟨well.dead, alive⟩ rfl empty free later

/-- The loop of `readyRead` is to read on, after the beginning `part` of a reply, with `packet`
unread. -/
structure Reading (a : ListReplies) (s₀ : Session) (up : State) (file : SContentInfo)
    (ys : List SessionEvent) (s : Session) (reply : FtpReply) (behind : QByteArray)
    (start : ReplyReader)
    (part old packet : QByteArray) (packets : List QByteArray) : Prop
    extends Transfers s [.readLoop], Keeps s₀ s where
  sent : s.sent = s₀.sent
  data : Data a up file ys s
  partway : QFtpPI.Partway start part s.pi.reader old
  unread : s.pi.unread = old ++ packet
  fresh : start.replyText = []
  free : start.waitForDtpToClose = false
  nonempty : ∀ packet ∈ packets, packet ≠ []
  cut : part <+: reply.encode
  short : part ≠ reply.encode
  bytes : part ++ packet ++ packets.flatten = reply.encode ++ behind

/-- The listing is where it was. -/
theorem Data.of_same {up : State} {file : SContentInfo} {ys : List SessionEvent}
    (data : Data a up file ys s)
    (dtp : t.dtp = s.dtp) (same : t.up = s.up) : Data a up file ys t := by
  rcases data with ⟨events, open_, bytes, nonempty, heard⟩ | ⟨events, noData, heard⟩
  · exact .opened events (dtp ▸ open_) bytes nonempty (by rw [dtp, same]; exact heard)
  · exact .closed events (dtp ▸ noData) (same.trans heard)

section Steps

variable {s₀ : Session} {up u : State} {file : SContentInfo} {id id' : ℕ} {next : FtpCommand}
variable {rest : List SContentInfo} {xs ys : List SessionEvent}
variable {start : ReplyReader} {part old packet behind : QByteArray} {packets : List QByteArray}

/-- The transfer goes on, or has ended. -/
def Onward (a : ListReplies) (s₀ : Session) (up u : State) (file : SContentInfo) (id : ℕ)
    (next : FtpCommand)
    (rest : List SContentInfo) (xs ys : List SessionEvent) (t : Session) : Prop :=
  During a s₀ up file xs ys t ∨ xs = [] ∧ ys = [] ∧ Ended s₀ u id next rest t

variable (env) in
/-- The last reply is read. -/
theorem Reading.closing (listed : Listed up file a.info.toUrlInfo id u id' next rest)
    (reading : Reading a s₀ up file ys s a.closing [] start part old packet packets) :
    ∃ t, Hears env s [] t ∧ Onward a s₀ up u file id' next rest (packets.map .received) ys t := by
  rcases Hears.loop env reading.toWell reading.stack reading.partway reading.fresh reading.unread
    reading.cut reading.short reading.bytes with
    ⟨reader, unread, partway, free, cut, short, taken⟩ | ⟨left, whole, none, taken⟩
  · refine ⟨_, taken _ _ (.refl _), .inl ⟨{ reading.toTransfers with stack := rfl },
      { reading.toKeeps with }, reading.sent, ?_, reading.data.of_same rfl rfl⟩⟩
    exact .reads rfl partway reading.fresh reading.free (free.trans reading.free) reading.nonempty
      cut short reading.bytes (.inr ⟨rfl, rfl⟩)
  · obtain ⟨rfl, empty⟩ := List.append_eq_nil_iff.mp none
    have noMore : packets = [] := by
      refine List.eq_nil_iff_forall_not_mem.mpr fun other mem => ?_
      exact reading.nonempty other mem (List.flatten_eq_nil_iff.mp empty other mem)
    subst noMore
    rcases reading.data with ⟨events, open_, bytes, nonempty, heard⟩ | ⟨events, noData, heard⟩
    · refine ⟨_,
        taken _ _ (.delayed ⟨reading.dead, reading.alive⟩ rfl a.closes open_ rfl (.refl _)),
        .inl ⟨{ reading.toTransfers with stack := rfl }, { reading.toKeeps with }, reading.sent,
          .waits rfl rfl rfl open_, ?_⟩⟩
      exact .opened events open_ bytes nonempty heard
    · refine ⟨_,
        taken _ _ (.finished ⟨reading.dead, reading.alive⟩ rfl reading.opened reading.waiting
          reading.nothing reading.ready reading.noErr noData a.closes a.closing.valid rfl
          (fun _ => reading.free) (by rw [heard]; exact listed.running)
          (by rw [heard]; exact listed.done) listed.runs.pending listed.runs.alive listed.sends
          (.refl _)), .inr ⟨rfl, events, ?_⟩⟩
      exact launched_ended (s := { s with
          pi := { s.pi with
            reader := ⟨[], a.closing.code, false⟩, unread := [], state := .idle, currentCmd := [] }
          up := u
          stack := [] }) listed.runs { reading.toKeeps with } reading.sent listed.sends
        { dead := reading.dead
          alive := listed.runs.alive
          stack := rfl
          opened := reading.opened
          free := rfl
          fresh := rfl
          nothing := rfl
          ready := reading.ready
          noData := noData
          noErr := reading.noErr
          notClosing := reading.notClosing }

variable (env) in
/-- A reply behind the `LIST` is read. -/
theorem Reading.onward (listed : Listed up file a.info.toUrlInfo id u id' next rest)
    {reply : FtpReply}
    (reading : Reading a s₀ up file ys s reply behind start part old packet packets)
    (which : reply = a.opening ∧ behind = a.closing.encode ∨ reply = a.closing ∧ behind = []) :
    ∃ t, Hears env s [] t ∧ Onward a s₀ up u file id' next rest (packets.map .received) ys t := by
  rcases which with ⟨rfl, rfl⟩ | ⟨rfl, rfl⟩
  · rcases Hears.loop env reading.toWell reading.stack reading.partway reading.fresh reading.unread
      reading.cut reading.short reading.bytes with
      ⟨reader, unread, partway, free, cut, short, taken⟩ | ⟨left, whole, more, taken⟩
    · refine ⟨_, taken _ _ (.refl _), .inl ⟨{ reading.toTransfers with stack := rfl },
        { reading.toKeeps with }, reading.sent, ?_, reading.data.of_same rfl rfl⟩⟩
      exact .reads rfl partway reading.fresh reading.free (free.trans reading.free) reading.nonempty
        cut short reading.bytes (.inl ⟨rfl, rfl⟩)
    · let reading' : Session := { s with
        pi := { s.pi with
          reader := ⟨[], a.opening.code, false⟩, unread := left, state := .waiting }
        stack := [.readLoop] }
      have again : Reading a s₀ up file ys reading' a.closing [] ⟨[], a.opening.code, false⟩ []
        [] left packets :=
        { reading.toTransfers, reading.toKeeps with
          stack := rfl
          waiting := rfl
          sent := reading.sent
          data := reading.data.of_same rfl rfl
          partway := .nil _
          unread := rfl
          fresh := rfl
          free := rfl
          nonempty := reading.nonempty
          cut := List.nil_prefix
          short := Ne.symm (FtpReply.encode_ne_nil _)
          bytes := by rw [List.nil_append, more, List.append_nil] }
      obtain ⟨t, heard, onward⟩ := again.closing env listed
      refine ⟨t,
        taken _ _ (.preliminary ⟨reading.dead, reading.alive⟩ rfl reading.waiting a.preliminary
        a.opening.valid reading.free heard), onward⟩
  · exact reading.closing env listed

/-- A packet arrives on the control connection. -/
theorem During.left {e : SessionEvent} (listed : Listed up file a.info.toUrlInfo id u id' next rest)
    (during : During a s₀ up file (e :: xs) ys s) :
    ∃ t, Hears env s [e] t ∧ Onward a s₀ up u file id' next rest xs ys t := by
  rcases during.control with
    ⟨events, partway, fresh, free, free', nonempty, cut, short, bytes, which⟩ | ⟨events, _, _, _⟩
  · rename_i start part packets reply behind
    cases packets with
    | nil => cases events
    | cons packet packets =>
        obtain ⟨rfl, rfl⟩ := List.cons.inj events
        let arrived : Session := { s with
          pi := { s.pi with unread := s.pi.unread ++ packet }, stack := [.readLoop] }
        have reading : Reading a s₀ up file ys arrived reply behind start part s.pi.unread packet
          packets :=
          { during.toTransfers, during.toKeeps with
            stack := rfl
            sent := during.sent
            data := during.data.of_same rfl rfl
            partway := partway
            unread := rfl
            fresh := fresh
            free := free
            nonempty := fun other mem => nonempty other (List.mem_cons_of_mem _ mem)
            cut := cut
            short := short
            bytes := by rw [List.append_assoc]; exact bytes }
        obtain ⟨t, heard, onward⟩ := reading.onward env listed which
        exact ⟨t, .received ⟨⟨during.dead, during.alive⟩, during.stack, during.opened, free'⟩ heard,
          onward⟩
  · cases events

/-- The control connection is where it was. -/
theorem Control.of_same (control : Control a xs s) (pi : t.pi = s.pi)
    (dtp : t.dtp.state = s.dtp.state) :
    Control a xs t := by
  rcases control with
    ⟨events, partway, fresh, free, free', nonempty, cut, short, bytes, which⟩
    | ⟨events, reader, nothing, open_⟩
  · exact .reads events (pi ▸ partway) fresh free (pi ▸ free') nonempty cut short bytes which
  · exact .waits events (pi ▸ reader) (pi ▸ nothing) (dtp.trans open_)

theorem socketReadyRead_list (list : StartsWith "LIST" s.pi.currentCmd) :
    s.socketReadyRead = (Lines.complete 10 s.dtp.unread).1.foldl listLine
      { s with dtp := { s.dtp with unread := (Lines.complete 10 s.dtp.unread).2 } } := by
  have nonempty : s.pi.currentCmd ≠ [] := by
    intro empty
    rw [empty] at list
    exact absurd list (by decide)
  unfold socketReadyRead
  rw [if_neg nonempty, if_pos list]

theorem listLine_heard {line : QByteArray} {info : QUrlInfoPrivate}
    (parses : QFtpDTP.parseDir line [] = some info)
    (running : s.up.ftp.pending.head? = some (id, .list file)) :
    ∃ starts,
    s.listLine line = { s with up := lineHeard s.up file info.toUrlInfo, starts := starts } := by
  refine ⟨(s.listLine line).starts, ?_⟩
  unfold listLine
  simp only [parses, running]
  rfl

variable (env) in
/-- A packet arrives on the data connection. -/
theorem During.data_received {part : QByteArray}
    (running : up.ftp.pending.head? = some (id, .list file))
    (listed : Listed up file a.info.toUrlInfo id u id' next rest)
    (during : During a s₀ up file xs ys s) (open_ : s.dtp.state = .connected)
    (bytes : part ++ packet ++ packets.flatten = a.line) (nonempty : packet ≠ [])
    (nonempty' : ∀ packet ∈ packets, packet ≠ [])
    (heard : if part = a.line then s.up = lineHeard up file a.info.toUrlInfo ∧ s.dtp.unread = []
      else s.up = up ∧ s.dtp.unread = part) :
    ∃ t, Hears env s [.dtpReceived packet] t ∧
      During a s₀ up file xs (packets.map .dtpReceived ++ [.dtpDisconnected]) t := by
  have early : part ≠ a.line := by
    rintro same
    rw [same, List.append_assoc, List.append_right_eq_self] at bytes
    exact nonempty (List.append_eq_nil_iff.mp bytes).1
  rw [if_neg early] at heard
  obtain ⟨before, unread⟩ := heard
  let arrived : Session := { s with dtp := { s.dtp with unread := s.dtp.unread ++ packet } }
  have takes : step env s (.dtpReceived packet) = some (arrived.socketReadyRead) := by
    simp [step, report, during.dead, during.alive, during.stack, open_, arrived]
  have reads : arrived.socketReadyRead = (Lines.complete 10 (part ++ packet)).1.foldl listLine
      { s with dtp := { s.dtp with unread := (Lines.complete 10 (part ++ packet)).2 } } := by
    rw [socketReadyRead_list (by exact during.list), show arrived.dtp.unread = part ++ packet by
      rw [← unread]]
  rw [reads] at takes
  obtain ⟨body, noEnd, isLine⟩ := a.isLine
  by_cases whole : part ++ packet = a.line
  · have one : Lines.complete 10 (part ++ packet) = ([a.line], []) := by
      rw [whole, isLine, Lines.complete_line noEnd, Lines.complete_nil]
    rw [one] at takes
    obtain ⟨starts, line⟩ :=
      listLine_heard (s := { s with dtp := { s.dtp with unread := [] } }) a.parses
      (show s.up.ftp.pending.head? = some (id, .list file) by rw [before, running])
    refine ⟨_, .event rfl takes (.refl _), ?_⟩
    rw [List.foldl_cons, List.foldl_nil, line]
    refine ⟨{ during.toTransfers with alive := ?_ }, { during.toKeeps with }, during.sent,
      during.control.of_same rfl rfl, .opened rfl open_ bytes nonempty' ?_⟩
    · show (lineHeard s.up file a.info.toUrlInfo).crashed = false
      rw [before]
      exact listed.alive
    · rw [if_pos whole]
      exact ⟨congrArg (lineHeard · file a.info.toUrlInfo) before, rfl⟩
  · have inside : part ++ packet <+: body := by
      have cut : part ++ packet <+: body ++ [10] := ⟨packets.flatten, bytes.trans isLine⟩
      exact (List.prefix_concat_iff.mp cut).resolve_left fun same => whole (same.trans isLine.symm)
    have none : Lines.complete 10 (part ++ packet) = ([], part ++ packet) :=
      Lines.complete_of_notMem fun mem => noEnd (inside.subset mem)
    rw [none] at takes
    refine ⟨_, .event rfl takes (.refl _), ?_⟩
    refine ⟨{ during.toTransfers with }, { during.toKeeps with }, during.sent,
      during.control.of_same rfl rfl, .opened rfl open_ bytes nonempty' ?_⟩
    rw [if_neg whole]
    exact ⟨before, rfl⟩

/-- The control connection reads on when the data connection is closed, or has the reply that waited
for that. -/
theorem dtpConnectState_reads (free : s.pi.reader.waitForDtpToClose = false) :
    s.dtpConnectState .closed = s.push .readLoop := by
  have reads : s.readyRead = s.push .readLoop := if_neg (ne_true_of_eq_false free)
  rw [← reads]
  exact if_neg (ne_true_of_eq_false free)

theorem dtpConnectState_waited (waited : s.pi.reader.waitForDtpToClose = true) :
    s.dtpConnectState .closed = s.push (.processReply .dtpConnectState) :=
  if_pos waited

/-- The data connection is closed. -/
theorem During.data_closed (listed : Listed up file a.info.toUrlInfo id u id' next rest)
    (during : During a s₀ up file xs ys s) (open_ : s.dtp.state = .connected)
    (heard : s.up = lineHeard up file a.info.toUrlInfo) :
    ∃ t, Hears env s [.dtpDisconnected] t ∧ Onward a s₀ up u file id' next rest xs [] t := by
  let closed : Session := { s with
    dtp := { s.dtp with state := .unconnected, unread := [] }, stack := [.dtpConnectState .closed] }
  have takes : step env s .dtpDisconnected = some closed := by
    simp [step, report, during.dead, during.alive, during.stack, open_, closeDtp, Session.push,
      closed]
  rcases during.control with
    ⟨events, partway, fresh, free, free', nonempty, cut, short, bytes, which⟩
    | ⟨events, reader, nothing, _⟩
  · let reads : Session := { closed with stack := [.readLoop] }
    have noLine : QFtpPI.nextTurn reads.pi.reader reads.pi.unread = none := by
      rw [QFtpPI.nextTurn, show reads.pi.unread = s.pi.unread from rfl, partway.rest,
        Lines.complete_of_notMem Lines.notMem_rest]
    refine ⟨{ closed with stack := [] },
      .event rfl takes (.tick _ [] ⟨during.dead, during.alive⟩ rfl ?_), .inl ?_⟩
    · rw [run, dtpConnectState_reads (by exact free')]
      refine .tick _ [] ⟨during.dead, during.alive⟩ rfl ?_
      rw [run, readLoop_of_none (by exact noLine)]
      exact .refl _
    · exact ⟨{ during.toTransfers with stack := rfl }, { during.toKeeps with }, during.sent,
        .reads events partway fresh free free' nonempty cut short bytes which,
        .closed rfl rfl heard⟩
  · have waited : s.pi.reader.waitForDtpToClose = true := by rw [reader]
    have code : s.pi.reader.replyCode = a.closing.code := by rw [reader]
    let ended : Session := { closed with
      pi := { s.pi with
        reader := ⟨[], s.pi.reader.replyCode, false⟩, state := .idle, currentCmd := [] }
      up := u
      stack := [] }
    refine ⟨ended.launched next, .event rfl takes (.tick _ [] ⟨during.dead, during.alive⟩ rfl ?_),
      .inr ⟨events, rfl, ?_⟩⟩
    · rw [run, dtpConnectState_waited (by exact waited)]
      refine .finished ⟨during.dead, during.alive⟩ rfl during.opened during.waiting during.nothing
        during.ready during.noErr rfl ?_ ?_ nothing (fun same => by cases same)
        (by rw [heard]; exact listed.running) (by rw [heard]; exact listed.done)
        listed.runs.pending listed.runs.alive listed.sends (.refl _)
      · show s.pi.reader.replyCode.toInt = 226
        rw [code]
        exact a.closes
      · show s.pi.reader.replyCode.Valid
        rw [code]
        exact a.closing.valid
    · exact launched_ended (s := ended) listed.runs { during.toKeeps with } during.sent
        listed.sends
        { dead := during.dead
          alive := listed.runs.alive
          stack := rfl
          opened := during.opened
          free := rfl
          fresh := rfl
          nothing := nothing
          ready := during.ready
          noData := rfl
          noErr := during.noErr
          notClosing := during.notClosing }

/-- An event of the data connection. -/
theorem During.right {e : SessionEvent} (running : up.ftp.pending.head? = some (id, .list file))
    (listed : Listed up file a.info.toUrlInfo id u id' next rest)
    (during : During a s₀ up file xs (e :: ys) s) :
    ∃ t, Hears env s [e] t ∧ Onward a s₀ up u file id' next rest xs ys t := by
  rcases during.data with ⟨events, open_, bytes, nonempty, heard⟩ | ⟨events, _, _⟩
  · rename_i part packets
    cases packets with
    | nil =>
        obtain ⟨rfl, rfl⟩ := List.cons.inj events
        rw [List.flatten_nil, List.append_nil] at bytes
        rw [if_pos bytes] at heard
        exact during.data_closed listed open_ heard.1
    | cons packet packets =>
        obtain ⟨rfl, rfl⟩ := List.cons.inj events
        rw [List.flatten_cons, ← List.append_assoc] at bytes
        obtain ⟨t, hears, during'⟩ := during.data_received env running listed open_ bytes
          (nonempty packet List.mem_cons_self)
          (fun other mem => nonempty other (List.mem_cons_of_mem _ mem)) heard
        exact ⟨t, hears, .inl during'⟩
  · cases events

/-- When everything has come, the transfer has ended. -/
theorem not_during_nil : ¬ During a s₀ up file [] [] s := by
  intro during
  rcases during.data with ⟨events, _, _, _, _⟩ | ⟨-, noData, -⟩
  · exact absurd events.symm (by simp)
  · rcases during.control with
      ⟨events, _, _, _, _, _, cut, short, bytes, _⟩ | ⟨-, _, _, open_⟩
    · have none := List.map_eq_nil_iff.mp events.symm
      rw [none, List.flatten_nil, List.append_nil] at bytes
      exact short (cut.eq_of_length_le (by rw [bytes, List.length_append]; omega))
    · rw [noData] at open_
      cases open_

variable (env) in
/-- The transfer, in whatever order the packets come. -/
theorem During.ends (running : up.ftp.pending.head? = some (id, .list file))
    (listed : Listed up file a.info.toUrlInfo id u id' next rest)
    (during : During a s₀ up file xs ys s)
    (mixed : Interleave xs ys es) :
    ∃ t, Hears env s es t ∧ Ended s₀ u id' next rest t := by
  have left (e : SessionEvent) (xs ys : List SessionEvent) (s : Session)
      (onward : Onward a s₀ up u file id' next rest (e :: xs) ys s) :
      ∃ t, Hears env s [e] t ∧ Onward a s₀ up u file id' next rest xs ys t := by
    rcases onward with during | ⟨none, -, -⟩
    · exact during.left listed
    · cases none
  have right (e : SessionEvent) (xs ys : List SessionEvent) (s : Session)
      (onward : Onward a s₀ up u file id' next rest xs (e :: ys) s) :
      ∃ t, Hears env s [e] t ∧ Onward a s₀ up u file id' next rest xs ys t := by
    rcases onward with during | ⟨-, none, -⟩
    · exact during.right running listed
    · cases none
  obtain ⟨t, hears, onward⟩ :=
    mixed.reaches (Hears env) (Onward a s₀ up u file id' next rest) .refl .trans left right
      (.inl during)
  refine ⟨t, hears, ?_⟩
  rcases onward with during | ⟨-, -, ended⟩
  · exact absurd during not_during_nil
  · exact ended

end Steps

/-! ### A `LIST` -/

/-- The command that asks for the address of the data connection. -/
def passiveCmd (pi : QFtpPI) : QString :=
  if pi.ipv6 ∧ pi.transferConnectionExtended then str "EPSV\r\n" else str "PASV\r\n"

/-- Whatever the file, a `LIST` begins with that word. -/
theorem startsWith_listCmd {word : String} (short : (str word).length ≤ 4) (file : SContentInfo) :
    StartsWith word (listCmd file) ↔ StartsWith word (str "LIST") := by
  have begins : ∃ rest, listCmd file = str "LIST" ++ rest := by
    rw [listCmd]
    split
    · exact ⟨str "\r\n", rfl⟩
    · exact ⟨str " " ++ file.serverPath ++ str "\r\n", rfl⟩
  obtain ⟨rest, begins⟩ := begins
  rw [begins]
  exact startsWith_append short

theorem listCmd_list (file : SContentInfo) : StartsWith "LIST" (listCmd file) :=
  (startsWith_listCmd (by decide) file).mpr List.prefix_rfl

theorem transmit_pasv (s : Session) (rest : List QString) :
    (s.transmit (str "PASV\r\n") rest).pi.currentCmd = passiveCmd s.pi := by
  have passive : StartsWith "PASV" (str "PASV\r\n") := by decide
  simp only [transmit, passiveCmd, passive, true_and]

/-- The `LIST` of `file` has been sent, and nothing has come since. -/
structure Awaits (s : Session) (file : SContentInfo) : Prop extends Transfers s [] where
  current : s.pi.currentCmd = listCmd file
  fresh : s.pi.reader.replyText = []
  free : s.pi.reader.waitForDtpToClose = false
  unread : s.pi.unread = []
  open_ : s.dtp.state = .connected
  noData : s.dtp.unread = []

variable (env) in
/-- The replies up to the `LIST`. -/
theorem Asks.lists {id : ℕ} {file : SContentInfo} {rest : List SContentInfo}
    (asks : Asks s id (.list file) rest)
    {typeReply passive : FtpReply} {host : QString} {port : UInt16} (plain : typeReply.code.Plain)
    (found : QFtpPI.dataAddress s.pi.peerAddress passive.code.toInt passive.text = .found host port)
    {typePackets passivePackets : List QByteArray} (typed : Packets typeReply.encode typePackets)
    (arrives : Packets passive.encode passivePackets) :
    ∃ t, Hears env s
      (typePackets.map .received ++ (passivePackets.map .received ++ [.dtpConnected])) t ∧
      Awaits t file ∧ Keeps s t ∧ t.up = s.up ∧
      t.sent = s.sent ++ [passiveCmd s.pi, listCmd file].map toLatin1 := by
  let asked : Session := (s.answered typeReply.code).transmit (str "PASV\r\n") [listCmd file]
  have sent : Sent asked asked.pi.currentCmd [listCmd file] := asks.sent.transmitted typeReply.code
  let lists : Session :=
    ((asked.answered passive.code).connectedTo host port).transmit (listCmd file) []
  have notPasv : ¬ StartsWith "PASV" (listCmd file) := by
    rw [startsWith_listCmd (by decide)]
    decide
  have current : lists.pi.currentCmd = listCmd file := transmit_current notPasv []
  have first : Hears env s (typePackets.map .received) asked := asks.sent.next plain typed
  refine ⟨lists, first.trans (sent.passive found arrives), ?_, ⟨rfl, rfl, rfl⟩, rfl, ?_⟩
  · exact
      { dead := asks.sent.dead
        alive := asks.sent.alive
        stack := rfl
        opened := asks.sent.opened
        waiting := rfl
        list := by rw [current]; exact listCmd_list file
        nothing := rfl
        ready := rfl
        noErr := asks.sent.noErr
        notClosing := asks.sent.notClosing
        current := current
        fresh := rfl
        free := rfl
        unread := rfl
        open_ := rfl
        noData := rfl }
  · have last : lists.sent = asked.sent ++ [toLatin1 lists.pi.currentCmd] := rfl
    have before : asked.sent = s.sent ++ [toLatin1 asked.pi.currentCmd] := rfl
    rw [last, before, current, transmit_pasv, List.append_assoc]
    rfl

variable (env) in
/-- **A `LIST` over two connections.**  When the server answers the commands of a `LIST`, the file
joins the queue with the size of the listing, and the next command is sent. -/
theorem Asks.answered {id : ℕ} {file : SContentInfo} {rest : List SContentInfo}
    (asks : Asks s id (.list file) rest) (names : a.Names s.pi.peerAddress) (events : a.Events es) :
    ∃ t, Hears env s es t ∧ Asks t s.up.idCounter (nextAsked rest).1 (nextAsked rest).2 ∧
    Keeps s t ∧
      t.up.contentFiles = s.up.contentFiles ++ [file.setSize a.info.toUrlInfo.size] ∧
      t.up.totalBytes = qint64 (s.up.totalBytes + a.info.toUrlInfo.size) ∧
      t.up.contentManager.loginInfo = s.up.contentManager.loginInfo ∧
      t.up.scheduled = (s.up.scheduled + if (nextAsked rest).1 = .close then 1 else 0) ∧
      t.sent = s.sent ++ [passiveCmd s.pi, listCmd file,
        (rawCmds s.up.contentManager.loginInfo (nextAsked rest).1).1].map toLatin1 := by
  obtain ⟨host, port, found⟩ := names
  obtain ⟨typePackets, passivePackets, controlPackets, dataPackets, mixed, typed, passive,
    control, data, interleaved, rfl⟩ := events
  obtain ⟨u, listed, files, total, account, scheduled⟩ := asks.runs.listed a.regular
  obtain ⟨l, opens, lists, keeps, up, written⟩ := asks.lists env a.typePlain found typed passive
  have during : During a l s.up file (controlPackets.map .received)
      (dataPackets.map .dtpReceived ++ [.dtpDisconnected]) l := by
    refine ⟨lists.toTransfers, ⟨rfl, rfl, rfl⟩, rfl, ?_, ?_⟩
    · refine .reads rfl ?_ lists.fresh lists.free lists.free control.nonempty List.nil_prefix
        (Ne.symm (FtpReply.encode_ne_nil _)) control.flatten (.inl ⟨rfl, rfl⟩)
      rw [lists.unread]
      exact .nil _
    · refine @Data.opened _ _ _ _ _ [] _ rfl lists.open_ data.flatten data.nonempty ?_
      obtain ⟨body, -, isLine⟩ := a.isLine
      rw [if_neg
        (by rw [isLine]; exact (List.append_ne_nil_of_right_ne_nil _ (List.cons_ne_nil _ _)).symm)]
      exact ⟨up, lists.noData⟩
  have running : s.up.ftp.pending.head? = some (id, .list file) := by
    rw [asks.runs.pending]
    rfl
  obtain ⟨t, transferred, ended⟩ := during.ends env running listed interleaved
  refine ⟨t, ?_, ended.toAsks, ⟨ended.peer.trans keeps.peer, ended.ipv6.trans keeps.ipv6,
    ended.extended.trans keeps.extended⟩, ended.files.trans files, ended.total.trans total,
    ended.account.trans account, ended.scheduled.trans scheduled, ?_⟩
  · have heard := opens.trans transferred
    simpa using heard
  · rw [ended.written, written, account, List.append_assoc]
    rfl

end Session

end MediaUpdater
