import MediaUpdater.QFtp.Reading
import MediaUpdater.QFtp.Session

/-!
# Dialogues

What a session does when the replies of a server arrive, in any packets.  `Hears` leads from one
state in which the client waits to the next; between the events of the sockets the tasks are done.

## Main results

* `Hears.reply` — the packets of a reply make `processReply` run on it.
* `Sent.next`, `Sent.passive` — after a positive reply the next command is sent, and after the
  address of the data connection once that is open.
* `startNextCmd_launched` — after the last command the next one of the queue is sent.
-/

namespace MediaUpdater

open Library DownloadManager

/-- The event is the next task. -/
def SessionEvent.isTick : SessionEvent → Bool
  | .tick => true
  | _ => false

/-- The bytes arrive in packets. -/
structure Packets (bytes : QByteArray) (packets : List QByteArray) : Prop where
  flatten : packets.flatten = bytes
  nonempty : ∀ packet ∈ packets, packet ≠ []

/-- A positive reply with no special action of `processReply`. -/
structure ReplyCode.Plain (code : ReplyCode) : Prop where
  positive : code.first = 2 ∨ code.first = 3
  other : code.toInt ≠ 202 ∧ code.toInt ≠ 226 ∧ code.toInt ≠ 227 ∧ code.toInt ≠ 229 ∧
    code.toInt ≠ 230 ∧ code.toInt ≠ 250

namespace Session

variable {env : Env} {s t u : Session} {es fs : List SessionEvent}

variable (env) in
/-- The events happen in their order, and the client does its tasks between them. -/
def Hears (s : Session) (es : List SessionEvent) (t : Session) : Prop :=
  ∃ run, run.filter (fun e => !e.isTick) = es ∧ Run (step env) (fun _ _ => True) s run t

/-- The process can go on. -/
structure Well (s : Session) : Prop where
  dead : s.dead = false
  alive : s.up.crashed = false

namespace Hears

theorem refl (s : Session) : Hears env s [] s := ⟨[], rfl, .nil s⟩

theorem trans (first : Hears env s es t) (second : Hears env t fs u) :
    Hears env s (es ++ fs) u := by
  obtain ⟨run, events, first⟩ := first
  obtain ⟨run', events', second⟩ := second
  exact ⟨run ++ run', by rw [List.filter_append, events, events'], first.append second⟩

/-- The task on top is done first. -/
theorem tick (task : Task) (rest : List Task) (well : Well s) (stack : s.stack = task :: rest)
    (later : Hears env (run { s with stack := rest } task) es t) : Hears env s es t := by
  obtain ⟨others, events, later⟩ := later
  refine ⟨.tick :: others, by rwa [List.filter_cons_of_neg (by simp [SessionEvent.isTick])], ?_⟩
  refine .cons trivial ?_ later
  simp [step, well.dead, well.alive, stack]

/-- An event of the sockets. -/
theorem event {e : SessionEvent} (outside : e.isTick = false) (takes : step env s e = some u)
    (later : Hears env u es t) : Hears env s (e :: es) t := by
  obtain ⟨others, events, later⟩ := later
  exact ⟨e :: others, by rw [List.filter_cons_of_pos (by simp [outside]), events],
    .cons trivial takes later⟩

end Hears

/-! ### Replies -/

theorem readLoop_of_none (none : QFtpPI.nextTurn s.pi.reader s.pi.unread = none) :
    s.readLoop = s := by
  rw [QFtpPI.nextTurn] at none
  unfold readLoop
  split at none
  · rename_i noLine
    simp only [noLine]
  · cases none

theorem readLoop_of_incomplete {reader : ReplyReader}
    (turned : QFtpPI.nextTurn s.pi.reader s.pi.unread = some (.incomplete reader)) :
    s.readLoop = { s with pi := { s.pi with
      reader := reader, unread := (Lines.complete 10 s.pi.unread).2 } } := by
  rw [QFtpPI.nextTurn] at turned
  unfold readLoop
  split at turned
  · cases turned
  · rename_i line lines found
    simp only [found, Option.some.inj turned]

theorem readLoop_of_reply {reader : ReplyReader} {lines : List QByteArray}
    (turned : QFtpPI.nextTurn s.pi.reader s.pi.unread = some (.reply reader lines)) :
    s.readLoop = { s with pi := { s.pi with
      reader := reader
      unread := lines.flatten ++ (Lines.complete 10 s.pi.unread).2 } }.push
        (.processReply .readyRead) := by
  rw [QFtpPI.nextTurn] at turned
  unfold readLoop
  split at turned
  · cases turned
  · rename_i line lines' found
    simp only [found, Option.some.inj turned]

/-- The control connection is open, the client waits for a reply and does not delay one. -/
structure Listens (s : Session) : Prop extends Well s where
  stack : s.stack = []
  opened : s.pi.socket = .connected
  free : s.pi.reader.waitForDtpToClose = false

/-- The loop of `readyRead`, when a packet has arrived after the beginning `part` of a reply: it
takes the packet in, or it has the reply. -/
theorem Hears.loop (env : Env) {reply : FtpReply} {start : ReplyReader}
    {part old packet : QByteArray}
    (well : Well s) (stack : s.stack = [.readLoop])
    (partway : QFtpPI.Partway start part s.pi.reader old)
    (fresh : start.replyText = []) (unread : s.pi.unread = old ++ packet)
    (cut : part <+: reply.encode)
    (short : part ≠ reply.encode) {behind rest : QByteArray}
    (bytes : part ++ packet ++ rest = reply.encode ++ behind) :
    (∃ next unread, QFtpPI.Partway start (part ++ packet) next unread ∧
      next.waitForDtpToClose = start.waitForDtpToClose ∧
      part ++ packet <+: reply.encode ∧ part ++ packet ≠ reply.encode ∧
      ∀ es t, Hears env { s with pi := { s.pi with reader := next, unread := unread }, stack := [] }
        es t →
        Hears env s es t) ∨
      ∃ left, part ++ packet = reply.encode ++ left ∧ left ++ rest = behind ∧
        ∀ es t, Hears env { s with
          pi := { s.pi with
            reader := { start with replyText := reply.text, replyCode := reply.code }, unread :=
            left }
          stack := [.processReply .readyRead] } es t → Hears env s es t := by
  by_cases complete : reply.encode <+: part ++ packet
  · obtain ⟨left, whole⟩ := complete
    refine .inr ⟨left, whole.symm, ?_, fun es t later => .tick _ [] well stack ?_⟩
    · rw [← whole, List.append_assoc, List.append_cancel_left_eq] at bytes
      exact bytes
    · obtain ⟨lines, rest, turned, rfl, same⟩ := partway.whole fresh cut short whole.symm
      rw [← unread] at turned same
      rw [run, readLoop_of_reply (by exact turned)]
      rw [← same] at later
      exact later
  · have inside : part ++ packet <+: reply.encode := by
      have left : part ++ packet <+: reply.encode ++ behind := ⟨rest, bytes⟩
      exact (List.prefix_or_prefix_of_prefix left (List.prefix_append _ _)).resolve_right complete
    have fewer : part ++ packet ≠ reply.encode := fun same => complete (same ▸ List.prefix_rfl)
    obtain ⟨next, rest, partway', free, outcome⟩ := partway.more fresh inside fewer
    refine .inl ⟨next, rest, partway', free, inside, fewer,
      fun es t later => .tick _ [] well stack ?_⟩
    rw [← unread] at outcome
    rcases outcome with ⟨none, rfl, rfl⟩ | ⟨turned, rfl⟩
    · rw [run, readLoop_of_none (by exact none)]
      exact later
    · rw [run, readLoop_of_incomplete (by exact turned)]
      exact later

theorem Hears.received (listens : Listens s) {packet : QByteArray}
    (later : Hears env { s with
      pi := { s.pi with unread := s.pi.unread ++ packet }, stack := [.readLoop] } es t) :
    Hears env s (.received packet :: es) t := by
  have takes : step env s (.received packet) = some { s with
      pi := { s.pi with unread := s.pi.unread ++ packet }, stack := [.readLoop] } := by
    simp [step, listens.dead, listens.alive, listens.stack, report, listens.opened,
      Session.readyRead, listens.free, Session.push]
  exact .event rfl takes later

/-- The packets that complete a reply, after a part of it. -/
theorem Hears.rest {reply : FtpReply} {packets : List QByteArray} (listens : Listens s)
    {part : QByteArray}
    {start : ReplyReader} (partway : QFtpPI.Partway start part s.pi.reader s.pi.unread)
    (fresh : start.replyText = []) (free : start.waitForDtpToClose = false)
    (nonempty : ∀ packet ∈ packets, packet ≠ []) (bytes : part ++ packets.flatten = reply.encode)
    (short : part ≠ reply.encode)
    (later : Hears env { s with
      pi := { s.pi with
        reader := { start with replyText := reply.text, replyCode := reply.code }, unread := [] }
      stack := [.processReply .readyRead] } es t) :
    Hears env s (packets.map .received ++ es) t := by
  induction packets generalizing s part with
  | nil => exact absurd ((List.append_nil part).symm.trans bytes) short
  | cons packet packets ih =>
      rw [List.map_cons, List.cons_append]
      refine .received listens ?_
      rw [List.flatten_cons, ← List.append_assoc] at bytes
      have cut : part <+: reply.encode :=
        ⟨packet ++ packets.flatten, by rw [← bytes, List.append_assoc]⟩
      let arrived : Session := { s with
        pi := { s.pi with unread := s.pi.unread ++ packet }, stack := [.readLoop] }
      rcases Hears.loop (s := arrived) env ⟨listens.dead, listens.alive⟩ rfl partway fresh
        rfl cut short (bytes.trans (List.append_nil _).symm) with
        ⟨next, unread, partway', free', inside, fewer, taken⟩ | ⟨left, whole, none, taken⟩
      · refine taken _ _
          (ih ⟨⟨listens.dead, listens.alive⟩, rfl, listens.opened, free'.trans free⟩ partway'
          (fun other mem => nonempty other (List.mem_cons_of_mem _ mem)) bytes fewer later)
      · obtain ⟨rfl, empty⟩ := List.append_eq_nil_iff.mp none
        have noMore : packets = [] := by
          refine List.eq_nil_iff_forall_not_mem.mpr fun other mem => ?_
          exact nonempty other (List.mem_cons_of_mem _ mem)
            (List.flatten_eq_nil_iff.mp empty other mem)
        rw [noMore]
        exact taken _ _ later

/-- **The packets of a reply** make `processReply` run on it. -/
theorem Hears.reply (listens : Listens s) {reply : FtpReply} {packets : List QByteArray}
    (arrives : Packets reply.encode packets) (fresh : s.pi.reader.replyText = [])
    (empty : s.pi.unread = [])
    (later : Hears env { s with
      pi := { s.pi with
        reader := { s.pi.reader with replyText := reply.text, replyCode := reply.code }, unread :=
        [] }
      stack := [.processReply .readyRead] } es t) :
    Hears env s (packets.map .received ++ es) t := by
  have partway : QFtpPI.Partway s.pi.reader [] s.pi.reader s.pi.unread := by
    rw [empty]
    exact .nil _
  exact .rest listens partway fresh listens.free arrives.nonempty arrives.flatten
    (Ne.symm (FtpReply.encode_ne_nil reply)) later

theorem processReply_waiting {caller : Caller} {state : PiState} (waiting : s.pi.state = .waiting)
    (next : nextState s.pi.reader.replyCode = some state)
    (soon : s.pi.reader.replyCode.toInt = 226 → s.dtp.state = .unconnected)
    (other : s.pi.reader.replyCode.toInt ≠ 250) :
    s.processReply caller = { s with pi := { s.pi with state := state } }.push (.react caller) := by
  have now : ¬ ((s.pi.reader.replyCode.toInt = 226 ∨
      (s.pi.reader.replyCode.toInt = 250 ∧ StartsWith "RETR" s.pi.currentCmd)) ∧
        s.dtp.state ≠ .unconnected) := by
    rintro ⟨is226 | ⟨is250, -⟩, open_⟩
    · exact open_ (soon is226)
    · exact other is250
  unfold processReply
  simp only
  rw [if_neg now]
  simp only [waiting, next]

theorem react_plain {caller : Caller} (no230 : s.pi.reader.replyCode.toInt ≠ 230)
    (no227 : s.pi.reader.replyCode.toInt ≠ 227) (no229 : s.pi.reader.replyCode.toInt ≠ 229) :
    s.react caller = s.push (.newState caller) := by
  have missing :
    QFtpPI.dataAddress s.pi.peerAddress s.pi.reader.replyCode.toInt s.pi.reader.replyText =
      .missing := by
    rw [QFtpPI.dataAddress, if_neg no227, if_neg no229]
  have code : (s.push (.newState caller)).pi = s.pi := rfl
  unfold react
  simp only [code, if_neg no230, missing]

theorem newState_positive {caller : Caller} (positive : s.pi.state = .success ∨ s.pi.state = .idle)
    (noErr : s.dtp.err = []) :
    s.newState caller = startNextCmd
      ({ s with pi := { s.pi with state := .idle } }.push (.replied caller)) := by
  unfold newState
  rcases positive with state | state
  all_goals
    simp only [state]
    exact if_pos noErr

/-- **A positive reply** starts the next command. -/
theorem Hears.positive {caller : Caller} (well : Well s) (stack : s.stack = [.processReply caller])
    (waiting : s.pi.state = .waiting) (noErr : s.dtp.err = [])
    (first : s.pi.reader.replyCode.first = 2 ∨ s.pi.reader.replyCode.first = 3)
    (other : s.pi.reader.replyCode.toInt ∉ ([202, 227, 229, 230, 250] : List ℤ))
    (soon : s.pi.reader.replyCode.toInt = 226 → s.dtp.state = .unconnected)
    (later : Hears env (startNextCmd { s with
      pi := { s.pi with state := .idle }, stack := [.replied caller] }) es t) :
    Hears env s es t := by
  simp only [List.mem_cons, List.not_mem_nil, or_false, not_or] at other
  obtain ⟨no202, no227, no229, no230, no250⟩ := other
  obtain ⟨state, next, positive⟩ : ∃ state, nextState s.pi.reader.replyCode = some state ∧
      (state = .success ∨ state = .idle) := by
    rcases first with first | first
    · exact ⟨.success, by simp [nextState, first, no202], .inl rfl⟩
    · exact ⟨.idle, by simp [nextState, first, no202], .inr rfl⟩
  refine .tick _ [] well stack ?_
  rw [run, processReply_waiting (by exact waiting) (by exact next) (by exact soon)
    (by exact no250)]
  refine .tick _ [] ⟨well.dead, well.alive⟩ rfl ?_
  rw [run, react_plain (by exact no230) (by exact no227) (by exact no229)]
  refine .tick _ [] ⟨well.dead, well.alive⟩ rfl ?_
  rw [run, newState_positive (by exact positive) (by exact noErr)]
  exact later

/-- There is nothing to read. -/
theorem Hears.nothing (well : Well s) (stack : s.stack = [.readLoop]) (empty : s.pi.unread = [])
    (later : Hears env { s with stack := [] } es t) : Hears env s es t := by
  refine .tick _ [] well stack ?_
  rw [run, readLoop_of_none
    (by rw [QFtpPI.nextTurn, show Session.pi _ = s.pi from rfl, empty]; rfl)]
  exact later

/-- The caller of `processReply` finds nothing more to read. -/
theorem Hears.replied {caller : Caller} (well : Well s) (stack : s.stack = [.replied caller])
    (empty : s.pi.unread = []) (free : caller = .readyRead → s.pi.reader.waitForDtpToClose = false)
    (later : Hears env { s with
      pi := { s.pi with reader := ⟨[], s.pi.reader.replyCode, false⟩ }, stack := [] } es t) :
    Hears env s es t := by
  refine .tick _ [] well stack ?_
  cases caller with
  | readyRead =>
      refine .nothing ⟨well.dead, well.alive⟩ rfl empty ?_
      rw [← free rfl] at later
      exact later
  | dtpConnectState => exact .nothing ⟨well.dead, well.alive⟩ rfl empty later

/-! ### Commands and replies -/

/-- Nothing is under way on either connection. -/
structure Settled (s : Session) : Prop extends Listens s where
  fresh : s.pi.reader.replyText = []
  nothing : s.pi.unread = []
  ready : s.pi.waitForDtpToConnect = false
  noData : s.dtp.state = .unconnected
  noErr : s.dtp.err = []
  notClosing : s.closeWait = false

/-- The command `cmd` has been sent, and the server is to answer it; the commands `rest` follow. -/
structure Sent (s : Session) (cmd : QString) (rest : List QString) : Prop extends Listens s where
  waiting : s.pi.state = .waiting
  current : s.pi.currentCmd = cmd
  pending : s.pi.pendingCommands = rest
  fresh : s.pi.reader.replyText = []
  nothing : s.pi.unread = []
  ready : s.pi.waitForDtpToConnect = false
  noData : s.dtp.state = .unconnected
  noErr : s.dtp.err = []
  notClosing : s.closeWait = false

theorem startNextCmd_transmit {next : QString} {rest : List QString}
    (ready : s.pi.waitForDtpToConnect = false) (pending : s.pi.pendingCommands = next :: rest) :
    s.startNextCmd = s.transmit next rest := by
  unfold startNextCmd
  simp only [ready, pending]
  rfl

theorem transmit_current {cmd : QString} (other : ¬ StartsWith "PASV" cmd) (rest : List QString) :
    (s.transmit cmd rest).pi.currentCmd = cmd :=
  if_neg fun passive => other passive.1

/-- The reply has been read. -/
def answered (s : Session) (code : ReplyCode) : Session :=
  { s with pi := { s.pi with reader := ⟨[], code, false⟩, unread := [] }, stack := [] }

/-- The next command has been sent. -/
theorem Sent.transmitted {cmd next : QString} {rest : List QString}
    (sent : Sent s cmd (next :: rest)) (code : ReplyCode) :
    Sent ((s.answered code).transmit next rest) ((s.answered code).transmit next rest).pi.currentCmd
      rest :=
  { sent with
    stack := rfl
    free := rfl
    waiting := rfl
    current := rfl
    pending := rfl
    fresh := rfl
    nothing := rfl }

/-- A positive reply is answered with the next command. -/
theorem Sent.next {cmd next : QString} {rest : List QString} (sent : Sent s cmd (next :: rest))
    {reply : FtpReply} (plain : reply.code.Plain) {packets : List QByteArray}
    (arrives : Packets reply.encode packets) :
    Hears env s (packets.map .received) ((s.answered reply.code).transmit next rest) := by
  rw [← List.append_nil (packets.map _)]
  refine .reply sent.toListens arrives sent.fresh sent.nothing ?_
  obtain ⟨no202, no226, no227, no229, no230, no250⟩ := plain.other
  refine .positive ⟨sent.dead, sent.alive⟩ rfl sent.waiting sent.noErr plain.positive
    (by simp [no202, no227, no229, no230, no250]) (fun is226 => absurd is226 no226) ?_
  rw [startNextCmd_transmit (by exact sent.ready) (by exact sent.pending)]
  exact .replied ⟨sent.dead, sent.alive⟩ rfl rfl (fun _ => sent.free) (.refl _)

/-- The data connection has been opened. -/
def connectedTo (s : Session) (host : QString) (port : UInt16) : Session :=
  { s with
    pi := { s.pi with waitForDtpToConnect := false }
    dtp := { s.dtp with state := .connected, unread := [], address := some (host, port) } }

theorem first_eq_two {code : ReplyCode} (valid : code.Valid)
    (range : 200 ≤ code.toInt ∧ code.toInt ≤ 259) :
    code.first = 2 := by
  obtain ⟨first, second, third⟩ := valid
  rw [ReplyCode.toInt] at range
  omega

theorem react_found {caller : Caller} {host : QString} {port : UInt16}
    (no230 : s.pi.reader.replyCode.toInt ≠ 230)
    (found : QFtpPI.dataAddress s.pi.peerAddress s.pi.reader.replyCode.toInt s.pi.reader.replyText =
      .found host port) (stack : s.stack = []) (noData : s.dtp.state = .unconnected) :
    s.react caller = { s with
      pi := { s.pi with waitForDtpToConnect := true }
      dtp := { s.dtp with state := .unconnected, unread := [] }
      stack := [.dtpConnect host port, .newState caller] } := by
  have code : (s.push (.newState caller)).pi = s.pi := rfl
  have noDelete : ((s.push (.newState caller)).stack.any Task.isDtpConnect) = false := by
    simp [Session.push, stack, Task.isDtpConnect]
  unfold react
  simp only [code, if_neg no230, found, noDelete, Bool.false_eq_true, if_false]
  unfold closeDtp
  simp only [Session.push, noData, stack]
  rfl

/-- **A reply with an address** makes the client connect to it. -/
theorem Hears.passive (well : Well s) (stack : s.stack = [.processReply .readyRead])
    (waiting : s.pi.state = .waiting) (noErr : s.dtp.err = []) (noData : s.dtp.state = .unconnected)
    (valid : s.pi.reader.replyCode.Valid) (empty : s.pi.unread = [])
    (free : s.pi.reader.waitForDtpToClose = false) {host : QString} {port : UInt16}
    (found : QFtpPI.dataAddress s.pi.peerAddress s.pi.reader.replyCode.toInt s.pi.reader.replyText =
      .found host port)
    (later : Hears env { s with
      pi := { s.pi with
        reader := ⟨[], s.pi.reader.replyCode, false⟩, state := .idle, waitForDtpToConnect := true }
      dtp := { s.dtp with state := .connecting, unread := [], address := some (host, port) }
      stack := [] } es t) : Hears env s es t := by
  have code : s.pi.reader.replyCode.toInt = 227 ∨ s.pi.reader.replyCode.toInt = 229 := by
    by_contra other
    rw [not_or] at other
    rw [QFtpPI.dataAddress, if_neg other.1, if_neg other.2] at found
    cases found
  have first : s.pi.reader.replyCode.first = 2 := first_eq_two valid (by omega)
  have success : nextState s.pi.reader.replyCode = some .success := by
    simp [nextState, first]
    omega
  have waits (u : Session) (waits : u.pi.waitForDtpToConnect = true) : u.startNextCmd = u :=
    if_pos waits
  refine .tick _ [] well stack ?_
  rw [run, processReply_waiting (by exact waiting) (by exact success) (by exact fun _ => noData)
    (by show s.pi.reader.replyCode.toInt ≠ 250; omega)]
  refine .tick _ [] ⟨well.dead, well.alive⟩ rfl ?_
  rw [run, react_found (by show s.pi.reader.replyCode.toInt ≠ 230; omega) (by exact found) rfl
    (by exact noData)]
  refine .tick _ _ ⟨well.dead, well.alive⟩ rfl (.tick _ [] ⟨well.dead, well.alive⟩ rfl ?_)
  rw [run, newState_positive (.inl rfl) (by exact noErr), waits _ rfl]
  exact .replied ⟨well.dead, well.alive⟩ rfl empty (fun _ => free) later

theorem Hears.dtpConnected (well : Well s) (stack : s.stack = [])
    (connecting : s.dtp.state = .connecting)
    (later : Hears env (startNextCmd { s with
      pi := { s.pi with waitForDtpToConnect := false }
      dtp := { s.dtp with state := .connected }
      stack := [] }) es t) : Hears env s (.dtpConnected :: es) t := by
  have takes : step env s .dtpConnected =
    some ({ s with dtp := { s.dtp with state := .connected } }.push
      (.dtpConnectState .connected)) := by
    simp [step, report, well.dead, well.alive, stack, connecting]
  exact .event rfl takes (.tick _ [] ⟨well.dead, well.alive⟩ (congrArg _ stack) later)

/-- The reply with the address, and the connection to it. -/
theorem Sent.passive {cmd next : QString} {rest : List QString} (sent : Sent s cmd (next :: rest))
    {reply : FtpReply} {host : QString} {port : UInt16}
    (found : QFtpPI.dataAddress s.pi.peerAddress reply.code.toInt reply.text = .found host port)
    {packets : List QByteArray} (arrives : Packets reply.encode packets) :
    Hears env s (packets.map .received ++ [.dtpConnected])
      (((s.answered reply.code).connectedTo host port).transmit next rest) := by
  refine .reply sent.toListens arrives sent.fresh sent.nothing ?_
  refine .passive ⟨sent.dead, sent.alive⟩ rfl sent.waiting sent.noErr sent.noData reply.valid rfl
    sent.free
    found (.dtpConnected ⟨sent.dead, sent.alive⟩ rfl rfl ?_)
  rw [startNextCmd_transmit rfl (by exact sent.pending)]
  exact .refl _

/-! ### The next command of the queue -/

/-- The first command of the queue is sent. -/
def launched (s : Session) (command : FtpCommand) : Session :=
  let s := { s with dtp := { s.dtp with unread := [] } }
  let s := if command = .close then s.setState .closing else s
  let cmds := rawCmds s.up.contentManager.loginInfo command
  s.transmit cmds.1 cmds.2

/-- What `launched` leaves as it is. -/
theorem launched_keeps (s : Session) (command : FtpCommand) :
    (s.launched command).dead = s.dead ∧ (s.launched command).up.crashed = s.up.crashed ∧
      (s.launched command).stack = s.stack ∧ (s.launched command).pi.unread = s.pi.unread ∧
      (s.launched command).pi.reader = s.pi.reader := by
  cases command <;> exact ⟨rfl, rfl, rfl, rfl, rfl⟩

theorem launched_back (s : Session) (command : FtpCommand) (reader : ReplyReader) :
    { s.launched command with
      pi := { (s.launched command).pi with reader := reader }, stack := [] } =
      launched { s with pi := { s.pi with reader := reader }, stack := [] } command := by
  cases command <;> rfl

/-- The first command for none of them is edited. -/
theorem first_not_pasv {info : LoginInfo} {command : FtpCommand}
    (sends : command ≠ .connectToHost) :
    ¬ StartsWith "PASV" (rawCmds info command).1 := by
  cases command with
  | connectToHost => exact absurd rfl sends
  | login =>
      intro passive
      simp only [rawCmds] at passive
      rw [List.append_assoc, startsWith_append (by decide)] at passive
      exact absurd passive (by decide)
  | list file => exact show ¬ StartsWith "PASV" (str "TYPE A\r\n") by decide
  | close => exact show ¬ StartsWith "PASV" (str "QUIT\r\n") by decide

/-- A command has been sent, and the reply to it is to come. -/
theorem Settled.transmit {cmd : QString} (settled : Settled s) (other : ¬ StartsWith "PASV" cmd)
    (rest : List QString) : Sent (s.transmit cmd rest) cmd rest where
  dead := settled.dead
  alive := settled.alive
  stack := settled.stack
  opened := settled.opened
  free := settled.free
  waiting := rfl
  current := transmit_current other rest
  pending := rfl
  fresh := settled.fresh
  nothing := settled.nothing
  ready := settled.ready
  noData := settled.noData
  noErr := settled.noErr
  notClosing := settled.notClosing

theorem transmit_sent {cmd : QString} (other : ¬ StartsWith "PASV" cmd) (rest : List QString) :
    (s.transmit cmd rest).sent = s.sent ++ [toLatin1 cmd] :=
  congrArg (s.sent ++ [toLatin1 ·]) (transmit_current other rest)

/-- What `launched` does, as far as the next reply is concerned. -/
theorem Settled.launched {command : FtpCommand} (settled : Settled s)
    (sends : command ≠ .connectToHost) :
    Sent (Session.launched s command) (rawCmds s.up.contentManager.loginInfo command).1
        (rawCmds s.up.contentManager.loginInfo command).2 ∧
      (Session.launched s command).sent =
        s.sent ++ [toLatin1 (rawCmds s.up.contentManager.loginInfo command).1] := by
  have plain := @first_not_pasv s.up.contentManager.loginInfo command sends
  have cleared : Settled { s with dtp := { s.dtp with unread := [] } } := { settled with }
  have closing : Settled (setState { s with dtp := { s.dtp with unread := [] } } .closing) :=
    { settled with }
  cases command with
  | connectToHost => exact absurd rfl sends
  | login => exact ⟨cleared.transmit plain _, transmit_sent plain _⟩
  | list file => exact ⟨cleared.transmit plain _, transmit_sent plain _⟩
  | close => exact ⟨closing.transmit plain _, transmit_sent plain _⟩

/-- The caller of `processReply` goes on when the next command has been sent. -/
theorem Hears.launched {caller : Caller} {command : FtpCommand} (well : Well s)
    (stack : s.stack = [.replied caller]) (empty : s.pi.unread = [])
    (free : caller = .readyRead → s.pi.reader.waitForDtpToClose = false)
    (later : Hears env (Session.launched { s with
      pi := { s.pi with reader := ⟨[], s.pi.reader.replyCode, false⟩ }, stack := [] } command)
        es t) :
    Hears env (s.launched command) es t := by
  obtain ⟨dead, crashed, stack', unread, reader⟩ := launched_keeps s command
  refine .replied ⟨dead.trans well.dead, crashed.trans well.alive⟩ (stack'.trans stack)
    (unread.trans empty) (fun same => reader ▸ free same) ?_
  rw [launched_back, reader]
  exact later

theorem startNextCommand_launched {id : ℕ} {command : FtpCommand} {behind : List (ℕ × FtpCommand)}
    (pending : s.up.ftp.pending = (id, command) :: behind) (sends : command ≠ .connectToHost)
    (nothing : s.pi.pendingCommands = []) (opened : s.pi.socket = .connected)
    (idle : s.pi.state = .idle)
    (ready : s.pi.waitForDtpToConnect = false) : s.startNextCommand = s.launched command := by
  have send (t : Session) (same : t.pi = s.pi) (cmds : QString × List QString) :
      t.sendCommands cmds = t.transmit cmds.1 cmds.2 := by
    unfold sendCommands
    simp [same, nothing, opened, idle, ready]
  unfold startNextCommand launched
  rw [pending]
  cases command with
  | connectToHost => exact absurd rfl sends
  | login => exact send { s with dtp := { s.dtp with unread := [] } } rfl _
  | list file => exact send { s with dtp := { s.dtp with unread := [] } } rfl _
  | close => exact send (setState { s with dtp := { s.dtp with unread := [] } } .closing) rfl _

theorem piFinished_finish {id : ℕ} {command : FtpCommand} {behind : List (ℕ × FtpCommand)}
    (pending : s.up.ftp.pending = (id, command) :: behind) (other : command ≠ .close) :
    s.piFinished = s.finish none id command := by
  unfold piFinished
  rw [pending]
  exact if_neg fun close => other close.1

theorem startNextCmd_piFinished (nothing : s.pi.pendingCommands = [])
    (ready : s.pi.waitForDtpToConnect = false) :
    s.startNextCmd = piFinished { s with pi := { s.pi with currentCmd := [] } } := by
  unfold startNextCmd
  rw [if_neg (ne_true_of_eq_false ready)]
  split
  · rfl
  · rename_i more
    exact absurd (nothing.symm.trans more) (List.cons_ne_nil _ _).symm

/-- The last command has been answered: the next one of the queue is sent. -/
theorem piFinished_launched {id id' : ℕ} {command next : FtpCommand}
    {behind : List (ℕ × FtpCommand)}
    {up : State} (pending : s.up.ftp.pending.head? = some (id, command)) (other : command ≠ .close)
    (done : ftpDone s.up none id command = up) (later : up.ftp.pending = (id', next) :: behind)
    (sends : next ≠ .connectToHost)
    (nothing : s.pi.pendingCommands = []) (opened : s.pi.socket = .connected)
    (idle : s.pi.state = .idle)
    (ready : s.pi.waitForDtpToConnect = false) :
    s.piFinished = launched { s with up := up } next := by
  obtain ⟨others, first⟩ := List.head?_eq_some_iff.mp pending
  rw [piFinished_finish first other, finish, done]
  exact startNextCommand_launched later sends nothing opened idle ready

theorem startNextCmd_launched {id id' : ℕ} {command next : FtpCommand}
    {behind : List (ℕ × FtpCommand)}
    {up : State} (pending : s.up.ftp.pending.head? = some (id, command)) (other : command ≠ .close)
    (done : ftpDone s.up none id command = up) (later : up.ftp.pending = (id', next) :: behind)
    (sends : next ≠ .connectToHost)
    (nothing : s.pi.pendingCommands = []) (opened : s.pi.socket = .connected)
    (idle : s.pi.state = .idle)
    (ready : s.pi.waitForDtpToConnect = false) :
    s.startNextCmd = launched { s with pi := { s.pi with currentCmd := [] }, up := up } next := by
  rw [startNextCmd_piFinished nothing ready]
  exact piFinished_launched (by exact pending) other done later sends nothing opened idle ready

end Session

end MediaUpdater
