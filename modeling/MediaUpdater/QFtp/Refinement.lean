import MediaUpdater.QFtp.Session

/-!
# The FTP client refines the queue

`Download.System` knows of `QFtp` only that it changes its state, that a line of the running
`LIST` is announced, and that the running command ends; it lets these things happen in any
order.  Here the client with its two connections is shown to do nothing else: what a step of a
session does to the updater, a run of that system does.

The point that needs an invariant is the `LIST`: a line of a listing is announced whenever
data arrive while the command sent last is a `LIST`, and it has to be the running command of the
queue that was sent.

## Main results

* `Session.step_leads` — a step of a session is a run of the system.
* `Session.refines` — the states of the updater in a session are reachable in the system.
* `Session.listing_isRunning` — the lines of a listing belong to the file of the running command.
-/

namespace MediaUpdater

open Library DownloadManager

variable {env : Env}

/-- A run of the updater. -/
def Leads (env : Env) (a b : State) : Prop := ∃ es, Run (step env) (fun _ _ => True) a es b

namespace Leads

variable {a b c : State}

theorem refl (a : State) : Leads env a a := ⟨[], .nil a⟩

theorem trans (first : Leads env a b) (second : Leads env b c) : Leads env a c := by
  obtain ⟨es, first⟩ := first
  obtain ⟨fs, second⟩ := second
  exact ⟨es ++ fs, first.append second⟩

theorem of_step {e : Event} (takes : step env a e = some b) : Leads env a b :=
  ⟨[e], .single trivial takes⟩

end Leads

/-- A task that may stand anywhere. -/
def Task.isPlain : Task → Bool
  | .connectToHost | .piErrorTail _ _ => false
  | _ => true

namespace Session

/-! ### The invariant -/

/-- A `LIST` has been sent last, or is to be sent. -/
def Lists (pi : QFtpPI) : Prop := ∃ cmd ∈ pi.currentCmd :: pi.pendingCommands, StartsWith "LIST" cmd

/-- The text is the `LIST` of the running command. -/
def IsRunning (up : State) (cmd : QString) : Prop :=
  ∃ id file, up.ftp.pending.head? = some (id, .list file) ∧ cmd = listCmd file

/-- What holds between two tasks. -/
structure Inv (s : Session) : Prop where
  /-- The commands are numbered in the order in which they are queued. -/
  increasing : s.up.ftp.pending.Pairwise fun a b => a.1 < b.1
  fresh : ∀ c ∈ s.up.ftp.pending, c.1 < s.up.idCounter
  /-- Behind a `QUIT` there are only others. -/
  closesLast : s.up.ftp.pending.Pairwise fun a b => a.2 = .close → b.2 = .close
  closing : (∃ c ∈ s.up.ftp.pending, c.2 = .close) → Over s.up
  /-- The client waits for the end of a connection only when it has nothing else to do. -/
  waits : s.closeWait = true → Over s.up ∧ ∀ c ∈ s.up.ftp.pending, c.2 = .close
  /-- A command that is failing is still the running one, or is gone. -/
  tails : ∀ id failure, .piErrorTail id failure ∈ s.stack →
    id < s.up.idCounter ∧ (∀ c ∈ s.up.ftp.pending, id ≤ c.1) ∧
      ((∃ c ∈ s.up.ftp.pending.head?, c.1 = id) →
      ∀ cmd ∈ s.pi.pendingCommands, ¬ StartsWith "LIST" cmd)
  listing : ∀ cmd ∈ s.pi.currentCmd :: s.pi.pendingCommands, StartsWith "LIST" cmd →
      IsRunning s.up cmd
  begin_ : s.pi.state = .begin → ¬ Lists s.pi
  opening : s.pi.socket = .hostLookup ∨ s.pi.socket = .connecting → ¬ Lists s.pi

/-- `connectToHost` is the next task when it is to be done at all, and then there is nothing in
its way. -/
structure Connects (s : Session) : Prop where
  next : .connectToHost ∉ s.stack.tail
  quiet : .connectToHost ∈ s.stack → ¬ Lists s.pi ∧ s.closeWait = false

/-- What a function of the client may rely on. -/
structure Calm (s : Session) : Prop where
  inv : Inv s
  alive : s.up.crashed = false
  clear : .connectToHost ∉ s.stack

/-- What it achieves, when the updater is `up` before it. -/
structure Follows (env : Env) (up : State) (t : Session) : Prop where
  leads : Leads env up t.up
  alive : t.up.crashed = false
  inv : Inv t
  connects : Connects t

variable {s t : Session} {up : State}

theorem Connects.of_clear (clear : .connectToHost ∉ s.stack) : Connects s where
  next mem := clear (List.mem_of_mem_tail mem)
  quiet mem := absurd mem clear

theorem Calm.follows (calm : Calm s) : Follows env s.up s :=
  ⟨.refl _, calm.alive, calm.inv, .of_clear calm.clear⟩

theorem Follows.of_leads (follows : Follows env s.up t) (leads : Leads env up s.up) :
    Follows env up t :=
  ⟨leads.trans follows.leads, follows.alive, follows.inv, follows.connects⟩

/-- Nothing to be sent is a `LIST` when the running command is none. -/
theorem Inv.quiet (inv : Inv s) (other : ∀ c ∈ s.up.ftp.pending.head?, ∀ file, c.2 ≠ .list file) :
    ¬ Lists s.pi := by
  rintro ⟨cmd, mem, list⟩
  obtain ⟨id, file, head, -⟩ := inv.listing cmd mem list
  exact other _ head file rfl

/-! ### Changes that keep the invariant -/

/-- The control connection has no more to send than before. -/
theorem Inv.setPi (inv : Inv s) {pi : QFtpPI}
    (current : StartsWith "LIST" pi.currentCmd →
    pi.currentCmd ∈ s.pi.currentCmd :: s.pi.pendingCommands)
    (pending : ∀ cmd ∈ pi.pendingCommands, StartsWith "LIST" cmd → cmd ∈ s.pi.pendingCommands)
    (begins : pi.state = .begin → s.pi.state = .begin ∨ ¬ Lists s.pi)
    (opens : pi.socket = .hostLookup ∨ pi.socket = .connecting →
      (s.pi.socket = .hostLookup ∨ s.pi.socket = .connecting) ∨ ¬ Lists s.pi) :
    Inv { s with pi := pi } := by
  have before (cmd : QString) (mem : cmd ∈ pi.currentCmd :: pi.pendingCommands)
      (list : StartsWith "LIST" cmd) : cmd ∈ s.pi.currentCmd :: s.pi.pendingCommands := by
    rcases List.mem_cons.mp mem with rfl | mem
    · exact current list
    · exact List.mem_cons_of_mem _ (pending cmd mem list)
  have fewer : Lists pi → Lists s.pi := fun ⟨cmd, mem, list⟩ => ⟨cmd, before cmd mem list, list⟩
  exact { inv with
    tails := fun id failure mem =>
      let ⟨below, least, quiet⟩ := inv.tails id failure mem
      ⟨below, least, fun head cmd mem list => quiet head cmd (pending cmd mem list) list⟩
    listing := fun cmd mem list => inv.listing cmd (before cmd mem list) list
    begin_ := fun begin_ lists =>
      (begins begin_).elim (fun before => inv.begin_ before (fewer lists)) fun quiet =>
      quiet (fewer lists)
    opening := fun opening lists =>
      (opens opening).elim (fun before => inv.opening before (fewer lists))
        fun quiet => quiet (fewer lists) }

/-- The commands of the running `LIST` are to be sent. -/
theorem Inv.load (inv : Inv s) {pi : QFtpPI}
    (list : ∀ cmd ∈ pi.currentCmd :: pi.pendingCommands, StartsWith "LIST" cmd → IsRunning s.up cmd)
    (beyond : ∀ id failure, .piErrorTail id failure ∈ s.stack →
    ∀ c ∈ s.up.ftp.pending.head?, id < c.1)
    (works : pi.state ≠ .begin) (opened : pi.socket = .connected) : Inv { s with pi := pi } :=
  { inv with
    tails := fun id failure mem =>
      let ⟨below, least, _⟩ := inv.tails id failure mem
      ⟨below, least, fun ⟨c, head, same⟩ => absurd (beyond id failure mem c head) (by omega)⟩
    listing := list
    begin_ := fun begin_ => absurd begin_ works
    opening := fun opening => by simp [opened] at opening }

theorem Inv.push (inv : Inv s) {task : Task}
    (other : ∀ id failure, task ≠ .piErrorTail id failure) :
    Inv (s.push task) :=
  { inv with
    tails := fun id failure mem =>
      (List.mem_cons.mp mem).elim (fun same => absurd same.symm (other id failure))
        (inv.tails id failure) }

theorem Inv.pop (inv : Inv s) {task : Task} {rest : List Task} (stack : s.stack = task :: rest) :
    Inv { s with stack := rest } :=
  { inv with tails := fun id failure mem =>
    inv.tails id failure (stack ▸ List.mem_cons_of_mem _ mem) }

/-- A command is failing from now on. -/
theorem Inv.pushTail (inv : Inv s) {id : ℕ} {command : FtpCommand} {failure : FtpFailure}
    {behind : List (ℕ × FtpCommand)} (pending : s.up.ftp.pending = (id, command) :: behind)
    (nothing : s.pi.pendingCommands = []) : Inv (s.push (.piErrorTail id failure)) :=
  { inv with
    tails := by
      intro id' failure' mem
      rcases List.mem_cons.mp mem with same | mem
      · obtain ⟨rfl, rfl⟩ := Task.piErrorTail.inj same
        have increasing := inv.increasing
        rw [pending, List.pairwise_cons] at increasing
        refine ⟨inv.fresh _ (pending ▸ List.mem_cons_self), fun c mem => ?_, fun _ cmd mem => ?_⟩
        · rcases List.mem_cons.mp (pending ▸ mem) with rfl | mem
          · exact le_rfl
          · exact (increasing.1 c mem).le
        · exact absurd (nothing ▸ mem) List.not_mem_nil
      · exact inv.tails id' failure' mem }

/-- A handler has run. -/
theorem Inv.grow (inv : Inv s) {up : State} (grows : Grows s.up up) : Inv { s with up := up } := by
  rcases grows.pending with ⟨same, counter⟩ | ⟨command, more, counter, closes, lists⟩
  · have sameHead : up.ftp.pending.head? = s.up.ftp.pending.head? := congrArg List.head? same
    constructor
    case increasing => exact same ▸ inv.increasing
    case fresh => exact same ▸ counter ▸ inv.fresh
    case closesLast => exact same ▸ inv.closesLast
    case closing => exact fun close => grows.stays (inv.closing (same ▸ close))
    case waits => exact fun waits => ⟨grows.stays (inv.waits waits).1, same ▸ (inv.waits waits).2⟩
    case tails =>
      intro id failure mem
      obtain ⟨below, least, quiet⟩ := inv.tails id failure mem
      exact ⟨counter ▸ below, same ▸ least, fun head => quiet (sameHead ▸ head)⟩
    case listing =>
      intro cmd mem list
      obtain ⟨id, file, head, text⟩ := inv.listing cmd mem list
      exact ⟨id, file, sameHead ▸ head, text⟩
    case begin_ => exact inv.begin_
    case opening => exact inv.opening
  · have split (c : ℕ × FtpCommand) (mem : c ∈ up.ftp.pending) :
        c ∈ s.up.ftp.pending ∨ c = (s.up.idCounter, command) := by
      rwa [more, List.mem_append, List.mem_singleton] at mem
    have onlyClose (ended : Over s.up) : command = .close := by
      by_contra other
      exact lists other ended
    constructor
    case increasing =>
      rw [more, List.pairwise_append]
      refine ⟨inv.increasing, List.pairwise_singleton _ _, fun a mem b new => ?_⟩
      rw [List.mem_singleton.mp new]
      exact inv.fresh a mem
    case fresh =>
      intro c mem
      rw [counter]
      rcases split c mem with mem | rfl
      · exact Nat.lt_succ_of_lt (inv.fresh c mem)
      · exact Nat.lt_succ_self _
    case closesLast =>
      rw [more, List.pairwise_append]
      refine ⟨inv.closesLast, List.pairwise_singleton _ _, fun a mem b new close => ?_⟩
      rw [List.mem_singleton.mp new]
      exact onlyClose (inv.closing ⟨a, mem, close⟩)
    case closing =>
      rintro ⟨c, mem, close⟩
      rcases split c mem with mem | rfl
      · exact grows.stays (inv.closing ⟨c, mem, close⟩)
      · exact closes close
    case waits =>
      intro waits
      obtain ⟨ended, close⟩ := inv.waits waits
      refine ⟨grows.stays ended, fun c mem => ?_⟩
      rcases split c mem with mem | rfl
      · exact close c mem
      · exact onlyClose ended
    case tails =>
      intro id failure mem
      obtain ⟨below, least, quiet⟩ := inv.tails id failure mem
      refine ⟨counter ▸ Nat.lt_succ_of_lt below, fun c mem => ?_,
        fun ⟨c, head, same⟩ => quiet ⟨c, ?_, same⟩⟩
      · rcases split c mem with mem | rfl
        · exact least c mem
        · exact below.le
      · rw [more] at head
        cases pending : s.up.ftp.pending with
        | nil =>
            rw [pending] at head
            obtain rfl := Option.some.inj head
            exact absurd same (by simp only; omega)
        | cons first behind => rwa [pending] at head
    case listing =>
      intro cmd mem list
      obtain ⟨id, file, head, text⟩ := inv.listing cmd mem list
      exact ⟨id, file, grows.head head, text⟩
    case begin_ => exact inv.begin_
    case opening => exact inv.opening

/-- Commands leave the queue while no `LIST` is on its way. -/
theorem Inv.shrink (inv : Inv s) (quiet : ¬ Lists s.pi) (ftp : QFtp)
    (fewer : ftp.pending.Sublist s.up.ftp.pending) :
    Inv { s with up := { s.up with ftp := ftp } } where
  increasing := inv.increasing.sublist fewer
  fresh c mem := inv.fresh c (fewer.subset mem)
  closesLast := inv.closesLast.sublist fewer
  closing := fun ⟨c, mem, close⟩ => inv.closing ⟨c, fewer.subset mem, close⟩
  waits waits := ⟨(inv.waits waits).1, fun c mem => (inv.waits waits).2 c (fewer.subset mem)⟩
  tails id failure mem :=
    let ⟨below, least, _⟩ := inv.tails id failure mem
    ⟨below, fun c mem => least c (fewer.subset mem),
      fun _ cmd mem list => quiet ⟨cmd, List.mem_cons_of_mem _ mem, list⟩⟩
  listing cmd mem list := absurd ⟨cmd, mem, list⟩ quiet
  begin_ _ := quiet
  opening _ := quiet

namespace Calm

theorem setPi (calm : Calm s) {pi : QFtpPI}
    (current : StartsWith "LIST" pi.currentCmd →
    pi.currentCmd ∈ s.pi.currentCmd :: s.pi.pendingCommands)
    (pending : ∀ cmd ∈ pi.pendingCommands, StartsWith "LIST" cmd → cmd ∈ s.pi.pendingCommands)
    (begins : pi.state = .begin → s.pi.state = .begin ∨ ¬ Lists s.pi)
    (opens : pi.socket = .hostLookup ∨ pi.socket = .connecting →
      (s.pi.socket = .hostLookup ∨ s.pi.socket = .connecting) ∨ ¬ Lists s.pi) :
    Calm { s with pi := pi } :=
  ⟨calm.inv.setPi current pending begins opens, calm.alive, calm.clear⟩

theorem push (calm : Calm s) (task : Task) (plain : task.isPlain = true) : Calm (s.push task) where
  inv := calm.inv.push fun _ _ same => by simp [same, Task.isPlain] at plain
  alive := calm.alive
  clear mem :=
    (List.mem_cons.mp mem).elim (fun same => by simp [← same, Task.isPlain] at plain) calm.clear

end Calm

theorem not_startsWith_nil : ¬ StartsWith "LIST" [] := by decide

/-! ### The next command -/

/-- A `LIST` is sent as it is. -/
theorem transmit_list {cmd : QString} {rest : List QString}
    (list : StartsWith "LIST" (s.transmit cmd rest).pi.currentCmd) :
    (s.transmit cmd rest).pi.currentCmd = cmd := by
  revert list
  show StartsWith "LIST" (if _ then _ else _) → (if _ then _ else _) = _
  split
  · exact fun list => absurd list (by decide)
  · exact fun _ => rfl

theorem transmit_calm (calm : Calm s) {cmd : QString} {rest : List QString}
    (current : StartsWith "LIST" cmd → cmd ∈ s.pi.currentCmd :: s.pi.pendingCommands)
    (pending : ∀ cmd ∈ rest, StartsWith "LIST" cmd → cmd ∈ s.pi.pendingCommands) :
    Calm (s.transmit cmd rest) := by
  refine ⟨{ @Inv.setPi s calm.inv (s.transmit cmd rest).pi ?_ ?_ ?_ ?_ with }, calm.alive,
    calm.clear⟩
  · intro list
    have same := transmit_list list
    rw [same] at list ⊢
    exact current list
  · exact pending
  · exact nofun
  · exact .inl

/-- `sendCommands` with commands of which none is a `LIST`, or with those of the running `LIST`. -/
theorem sendCommands_follows (calm : Calm s) {cmds : QString × List QString}
    (lists : ∀ cmd ∈ cmds.1 :: cmds.2, StartsWith "LIST" cmd → IsRunning s.up cmd ∧
      ∀ id failure, .piErrorTail id failure ∈ s.stack → ∀ c ∈ s.up.ftp.pending.head?, id < c.1) :
    Follows env s.up (s.sendCommands cmds) := by
  unfold sendCommands
  split
  · exact calm.follows
  split
  · exact (calm.push _ rfl).follows
  rename_i ready
  obtain ⟨opened, idle⟩ : s.pi.socket = .connected ∧ s.pi.state = .idle := by
    simpa only [not_or, not_not, ne_eq] using ready
  by_cases list : ∃ cmd ∈ cmds.1 :: cmds.2, StartsWith "LIST" cmd
  · obtain ⟨cmd, mem, starts⟩ := list
    have beyond := (lists cmd mem starts).2
    split
    · have loaded := @Inv.load s calm.inv { s.pi with pendingCommands := cmds.1 :: cmds.2 }
        (fun cmd mem starts => (List.mem_cons.mp mem).elim
          (fun same => calm.inv.listing cmd (same ▸ List.mem_cons_self) starts)
          fun mem => (lists cmd mem starts).1)
        beyond (by simp [idle]) opened
      exact Calm.follows ⟨loaded, calm.alive, calm.clear⟩
    · have loaded : Inv { s with pi := (s.transmit cmds.1 cmds.2).pi } := by
        refine calm.inv.load (fun cmd mem starts => ?_) beyond nofun opened
        rcases List.mem_cons.mp mem with same | mem
        · have first : cmd = cmds.1 := same.trans (transmit_list (same ▸ starts))
          exact (lists cmd (first ▸ List.mem_cons_self) starts).1
        · exact (lists cmd (List.mem_cons_of_mem _ mem) starts).1
      exact @Calm.follows env (s.transmit cmds.1 cmds.2) ⟨{ loaded with }, calm.alive, calm.clear⟩
  · have none : ∀ cmd ∈ cmds.1 :: cmds.2, StartsWith "LIST" cmd → cmd ∈ s.pi.pendingCommands :=
      fun cmd mem starts => absurd ⟨cmd, mem, starts⟩ list
    split
    · exact (@Calm.setPi s calm { s.pi with pendingCommands := cmds.1 :: cmds.2 }
        (fun _ => List.mem_cons_self) none .inl .inl).follows
    · refine (transmit_calm calm (fun starts => ?_) fun cmd mem => ?_).follows
      · exact absurd ⟨_, List.mem_cons_self, starts⟩ list
      · exact none cmd (List.mem_cons_of_mem _ mem)

theorem setState_calm (calm : Calm s) (state : FtpState) : Calm (s.setState state) :=
  ⟨{ calm.inv with }, calm.alive, calm.clear⟩

/-- A change of the state of `QFtp` is a step of the system. -/
theorem setState_leads (calm : Calm s) (state : FtpState) : Leads env s.up (s.setState state).up :=
  .of_step (e := .ftpState state) (step_eq_react calm.alive)

/-- Only the commands of a `LIST` have a `LIST` among them. -/
theorem rawCmds_lists {info : LoginInfo} {command : FtpCommand} (sends : command ≠ .connectToHost)
    {cmd : QString} (mem : cmd ∈ (rawCmds info command).1 :: (rawCmds info command).2)
    (list : StartsWith "LIST" cmd) : ∃ file, command = .list file ∧ cmd = listCmd file := by
  cases command with
  | connectToHost => exact absurd rfl sends
  | login =>
      simp only [rawCmds, List.mem_cons, List.not_mem_nil, or_false] at mem
      rcases mem with rfl | rfl
      all_goals
        rw [List.append_assoc, startsWith_append (by decide)] at list
        exact absurd list (by decide)
  | list file =>
      simp only [rawCmds, List.mem_cons, List.not_mem_nil, or_false] at mem
      rcases mem with rfl | rfl | rfl
      · exact absurd list (by decide)
      · exact absurd list (by decide)
      · exact ⟨file, rfl, rfl⟩
  | close =>
      rw [List.mem_singleton.mp mem] at list
      exact absurd list (show ¬ StartsWith "LIST" (str "QUIT\r\n") by decide)

/-- `_q_startNextCommand`, when no command that is failing is the running one. -/
theorem startNextCommand_follows (calm : Calm s)
    (beyond : ∀ id failure, .piErrorTail id failure ∈ s.stack →
    ∀ c ∈ s.up.ftp.pending.head?, id < c.1) :
    Follows env s.up s.startNextCommand := by
  have sends {t : Session} (calm : Calm t) {id : ℕ} {command : FtpCommand}
      (head : t.up.ftp.pending.head? = some (id, command))
      (beyond : ∀ id failure, .piErrorTail id failure ∈ t.stack →
        ∀ c ∈ t.up.ftp.pending.head?, id < c.1) (other : command ≠ .connectToHost) :
      Follows env t.up (t.sendCommands (rawCmds t.up.contentManager.loginInfo command)) := by
    refine sendCommands_follows calm fun cmd mem list => ?_
    obtain ⟨file, rfl, text⟩ := rawCmds_lists other mem list
    exact ⟨⟨id, file, head, text⟩, beyond⟩
  unfold startNextCommand
  split
  · exact calm.follows
  rename_i id command behind pending
  have running : s.up.ftp.pending.head? = some (id, command) := by rw [pending]; rfl
  have read : Calm { s with dtp := { s.dtp with unread := [] } } :=
    ⟨{ calm.inv with }, calm.alive, calm.clear⟩
  cases command with
  | connectToHost =>
      refine ⟨.refl _, calm.alive, read.inv.push nofun, ⟨calm.clear, fun _ => ⟨?_, ?_⟩⟩⟩
      · refine calm.inv.quiet fun c head file => ?_
        obtain rfl := Option.some.inj (running.symm.trans head)
        nofun
      · show s.closeWait = false
        by_contra waits
        have close := (calm.inv.waits (by simpa using waits)).2 (id, .connectToHost)
          (pending ▸ List.mem_cons_self)
        cases close
  | login => exact sends read running beyond nofun
  | list file => exact sends read running beyond nofun
  | close =>
      exact (sends (setState_calm read .closing) running beyond nofun).of_leads
        (setState_leads read .closing)

/-! ### The end of a command -/

/-- The handler of `commandFinished`. -/
theorem commandFinished_inv (id : ℕ) (inv : Inv s) (quiet : ¬ Lists s.pi) {running : ℕ × FtpCommand}
    (head : s.up.ftp.pending.head? = some running) (failure : Option FtpFailure) :
    Inv { s with up := commandFinished s.up id failure } ∧
      (commandFinished s.up id failure).ftp.pending.head? = some running := by
  cases failure with
  | none =>
      have grows := ftpCommandFinished_grows s.up id false
      exact ⟨inv.grow grows, grows.head head⟩
  | some failure =>
      have failed := inv.shrink quiet (s.up.ftp.fail failure.error) (List.take_sublist _ _)
      have grows :=
        ftpCommandFinished_grows { s.up with ftp := s.up.ftp.fail failure.error } id true
      refine ⟨failed.grow grows, grows.head ?_⟩
      rw [QFtp.pending_fail, List.head?_take]
      exact head

theorem commandFinished_crashed (s : State) (id : ℕ) (failure : Option FtpFailure) :
    (commandFinished s id failure).crashed = s.crashed := by
  cases failure <;> exact ftpCommandFinished_crashed _ _ _

/-- The running command ends while no `LIST` is on its way. -/
theorem finish_follows (calm : Calm s) (quiet : ¬ Lists s.pi) {id : ℕ} {command : FtpCommand}
    {behind : List (ℕ × FtpCommand)} (pending : s.up.ftp.pending = (id, command) :: behind)
    (failure : Option FtpFailure) : Follows env s.up (s.finish failure id command) := by
  have head : s.up.ftp.pending.head? = some (id, command) := by rw [pending]; rfl
  have logged : Inv { s with up := { s.up with log := answers failure command ++ s.up.log } } :=
    { calm.inv with }
  obtain ⟨handled, first⟩ := commandFinished_inv id logged quiet head failure
  have done : Inv { s with up := ftpDone s.up failure id command } :=
    handled.shrink quiet _ (List.tail_sublist _)
  have next : Calm { s with up := ftpDone s.up failure id command } :=
    ⟨done, (commandFinished_crashed _ id failure).trans calm.alive, calm.clear⟩
  have ends : Leads env s.up (ftpDone s.up failure id command) := by
    refine .of_step (e := .ftpDone failure) ?_
    rw [step_eq_react calm.alive, MediaUpdater.react, head]
    rfl
  refine (startNextCommand_follows next fun old failure' mem c isNext => ?_).of_leads ends
  obtain ⟨behind', split⟩ := List.head?_eq_some_iff.mp first
  have increasing := handled.increasing
  rw [show _ = _ :: _ from split, List.pairwise_cons] at increasing
  have later : c ∈ behind' := by
    have inTail : c ∈ (commandFinished _ id failure).ftp.pending.tail :=
      List.mem_of_mem_head? isNext
    rwa [split] at inTail
  have before := (calm.inv.tails old failure' mem).2.1 (id, command) (pending ▸ List.mem_cons_self)
  exact lt_of_le_of_lt before (increasing.1 c later)

/-- `_q_piFinished`. -/
theorem piFinished_follows (calm : Calm s) (quiet : ¬ Lists s.pi) :
    Follows env s.up s.piFinished := by
  unfold piFinished
  split
  · exact calm.follows
  rename_i id command behind pending
  have mem : (id, command) ∈ s.up.ftp.pending := pending ▸ List.mem_cons_self
  split
  · rename_i close
    obtain ⟨rfl, -⟩ := close
    refine Calm.follows (s := { s with closeWait := true })
      ⟨{ calm.inv with waits := ?_ }, calm.alive, calm.clear⟩
    refine fun _ => ⟨calm.inv.closing ⟨_, mem, rfl⟩, fun c mem => ?_⟩
    have closesLast := calm.inv.closesLast
    rw [pending, List.pairwise_cons] at closesLast
    rcases List.mem_cons.mp (pending ▸ mem) with rfl | mem
    · rfl
    · exact closesLast.1 c mem rfl
  · exact finish_follows calm quiet pending none

/-- `_q_piConnectState`. -/
theorem connectState_follows (calm : Calm s) (state : FtpState) :
    Follows env s.up (s.connectState state) := by
  have changed := setState_calm calm state
  have leads : Leads env s.up (s.setState state).up := setState_leads calm state
  unfold connectState
  simp only
  split
  · rename_i waits
    have next : Calm { s.setState state with closeWait := false } :=
      ⟨{ changed.inv with waits := nofun }, changed.alive, changed.clear⟩
    refine (piFinished_follows next (next.inv.quiet fun c head file list => ?_)).of_leads leads
    have close := (changed.inv.waits waits).2 c (List.mem_of_mem_head? head)
    rw [list] at close
    cases close
  · exact changed.follows.of_leads leads

/-- `QFtpPI::startNextCmd`. -/
theorem startNextCmd_follows (calm : Calm s) : Follows env s.up s.startNextCmd := by
  unfold startNextCmd
  split
  · exact calm.follows
  split
  · rename_i nothing
    have cleared : Calm { s with pi := { s.pi with currentCmd := [] } } :=
      calm.setPi (fun list => absurd list not_startsWith_nil) (fun _ mem _ => mem) .inl .inl
    refine piFinished_follows cleared ?_
    rintro ⟨cmd, mem, list⟩
    rw [nothing, List.mem_singleton] at mem
    rw [mem] at list
    exact not_startsWith_nil list
  · rename_i cmd rest pending
    refine (transmit_calm calm (fun _ => ?_) fun cmd mem _ => ?_).follows
    · exact List.mem_cons_of_mem _ (pending ▸ List.mem_cons_self)
    · exact pending ▸ List.mem_cons_of_mem _ mem

/-! ### The replies -/

theorem setDtp_calm (calm : Calm s) (dtp : QFtpDTP) : Calm { s with dtp := dtp } :=
  ⟨{ calm.inv with }, calm.alive, calm.clear⟩

theorem closeDtp_follows (calm : Calm s) : Follows env s.up s.closeDtp := by
  have closed := setDtp_calm calm { s.dtp with state := .unconnected, unread := [] }
  unfold closeDtp
  simp only
  split
  · exact (closed.push _ rfl).follows
  · exact closed.follows

theorem readyRead_follows (calm : Calm s) : Follows env s.up s.readyRead := by
  unfold readyRead
  split
  · exact calm.follows
  · exact (calm.push _ rfl).follows

/-- What concerns the reader alone. -/
theorem reads_calm (calm : Calm s) (reader : ReplyReader) (unread : QByteArray) :
    Calm { s with pi := { s.pi with reader := reader, unread := unread } } :=
  calm.setPi (fun _ => List.mem_cons_self) (fun _ mem _ => mem) .inl .inl

/-- The caller of `processReply` goes on. -/
theorem replied_follows (calm : Calm s) (caller : Caller) :
    Follows env s.up (s.replied caller) := by
  cases caller with
  | readyRead => exact ((reads_calm calm _ s.pi.unread).push _ rfl).follows
  | dtpConnectState =>
      exact readyRead_follows (reads_calm calm
        { s.pi.reader with replyText := [], waitForDtpToClose := false } s.pi.unread)

/-- `processReply` never goes back to `Begin`. -/
theorem nextState_ne {code : ReplyCode} {state : PiState} (next : nextState code = some state) :
    state ≠ .begin := by
  unfold nextState at next
  grind

/-- `processReply` up to the special actions. -/
theorem processReply_follows (calm : Calm s) (caller : Caller) :
    Follows env s.up (s.processReply caller) := by
  unfold processReply
  simp only
  split
  · have waiting := reads_calm calm { s.pi.reader with waitForDtpToClose := true } s.pi.unread
    cases caller with
    | readyRead => exact (waiting.push _ rfl).follows
    | dtpConnectState => exact waiting.follows
  split
  · rename_i begins
    have quiet := calm.inv.begin_ begins
    split
    · have idle : Calm { s with pi := { s.pi with state := .idle } } :=
        calm.setPi (fun _ => List.mem_cons_self) (fun _ mem _ => mem) nofun .inl
      exact piFinished_follows (idle.push (.react caller) rfl) quiet
    · exact replied_follows calm caller
  · split
    · rename_i state next
      have goes : Calm { s with pi := { s.pi with state := state } } :=
        calm.setPi (fun _ => List.mem_cons_self) (fun _ mem _ => mem)
          (fun begins => absurd begins (nextState_ne next))
          .inl
      exact (goes.push _ rfl).follows
    · exact Calm.follows (s := { s with dead := true }) ⟨{ calm.inv with }, calm.alive, calm.clear⟩
  · exact replied_follows calm caller

theorem dropPass_calm (calm : Calm s) : Calm s.dropPass := by
  unfold dropPass
  split
  · exact calm.setPi (fun _ => List.mem_cons_self) (fun _ mem _ => List.mem_of_mem_tail mem)
      .inl .inl
  · exact calm

/-- The special actions. -/
theorem react_follows (calm : Calm s) (caller : Caller) : Follows env s.up (s.react caller) := by
  have later : Calm (s.push (.newState caller)) := calm.push _ rfl
  unfold react
  simp only
  split
  · have up : (s.push (.newState caller)).dropPass.up = s.up := by
      unfold dropPass
      split <;> rfl
    exact up ▸ connectState_follows (dropPass_calm later) .loggedIn
  split
  · exact later.follows
  · exact Calm.follows (s := { s.push (.newState caller) with dead := true })
      ⟨{ later.inv with }, later.alive, later.clear⟩
  · rename_i host port _
    split
    · exact Calm.follows (s := { s.push (.newState caller) with dead := true })
        ⟨{ later.inv with }, later.alive, later.clear⟩
    · have waits :
        Calm { s.push (.newState caller) with pi := { s.pi with waitForDtpToConnect := true } } :=
        later.setPi (fun _ => List.mem_cons_self) (fun _ mem _ => mem) .inl .inl
      exact closeDtp_follows (waits.push (.dtpConnect host port) rfl)

/-- "react on new state" -/
theorem newState_follows (calm : Calm s) (caller : Caller) :
    Follows env s.up (s.newState caller) := by
  have idle : Calm { s with pi := { s.pi with state := .idle } } :=
    calm.setPi (fun _ => List.mem_cons_self) (fun _ mem _ => mem) nofun .inl
  have proceeds : Follows env s.up
      (if s.dtp.err = [] then
          startNextCmd ({ s with pi := { s.pi with state := .idle } }.push (.replied caller))
        else ({ s with pi := { s.pi with state := .idle } }.push (.clearError caller)).push
          (.piError .noSuchFile)) := by
    split
    · exact startNextCmd_follows (idle.push (.replied caller) rfl)
    · exact ((idle.push (.clearError caller) rfl).push _ rfl).follows
  unfold newState
  split
  · exact replied_follows calm caller
  · exact replied_follows calm caller
  · exact proceeds
  · exact proceeds
  · split
    · have again : Calm { s with pi := { s.pi with
          transferConnectionExtended := false
          pendingCommands := str "PASV\r\n" :: s.pi.pendingCommands } } := by
        refine calm.setPi (fun _ => List.mem_cons_self) (fun cmd mem list => ?_) .inl .inl
        rcases List.mem_cons.mp mem with rfl | mem
        · exact absurd list (by decide)
        · exact mem
      exact (again.push _ rfl).follows
    · exact ((calm.push (.failureTail caller) rfl).push _ rfl).follows

/-! ### The tasks -/

/-- The loop of `readyRead`. -/
theorem readLoop_follows (calm : Calm s) : Follows env s.up s.readLoop := by
  unfold readLoop
  simp only
  split
  · exact calm.follows
  split
  · rename_i reader lines _
    exact (reads_calm calm reader (lines.flatten ++ (Lines.complete 10 s.pi.unread).2)).follows
  · rename_i reader _
    exact (reads_calm calm reader (Lines.complete 10 s.pi.unread).2).follows
  · exact ((reads_calm calm _ _).push _ rfl).follows

/-- `QFtpPI::dtpConnectState`. -/
theorem dtpConnectState_follows (calm : Calm s) (state : DtpConnectState) :
    Follows env s.up (s.dtpConnectState state) := by
  cases state with
  | closed =>
      rw [dtpConnectState]
      split
      · exact (calm.push _ rfl).follows
      · rename_i other
        rw [readyRead, if_neg other]
        exact (calm.push _ rfl).follows
  | connected =>
      have ready : Calm { s with pi := { s.pi with waitForDtpToConnect := false } } :=
        calm.setPi (fun _ => List.mem_cons_self) (fun _ mem _ => mem) .inl .inl
      exact startNextCmd_follows ready
  | refused => exact ((calm.push .startNextCmd rfl).push _ rfl).follows

/-- `_q_piError` up to `dtp.abortConnection()`. -/
theorem piError_follows (calm : Calm s) (failure : FtpFailure) :
    Follows env s.up (s.piError failure) := by
  unfold piError
  split
  · exact calm.follows
  rename_i id command behind pending
  have cleared : Calm { s with pi := { s.pi with pendingCommands := [] } } :=
    calm.setPi (fun _ => List.mem_cons_self) nofun .inl .inl
  have failing :
    Calm ({ s with pi := { s.pi with pendingCommands := [] } }.push (.piErrorTail id failure)) :=
    ⟨cleared.inv.pushTail pending rfl, cleared.alive,
      fun mem => (List.mem_cons.mp mem).elim nofun cleared.clear⟩
  exact closeDtp_follows failing

/-- `_q_piError` from there on. -/
theorem piErrorTail_follows (calm : Calm s) {id : ℕ} {failure : FtpFailure}
    (tail : (∃ c ∈ s.up.ftp.pending.head?, c.1 = id) →
      ∀ cmd ∈ s.pi.pendingCommands, ¬ StartsWith "LIST" cmd) :
    Follows env s.up (s.piErrorTail id failure) := by
  have cleared : Calm { s with pi := { s.pi with currentCmd := [], state := .idle } } :=
    calm.setPi (fun list => absurd list not_startsWith_nil) (fun _ mem _ => mem) nofun .inl
  unfold piErrorTail
  simp only
  split
  · exact Calm.follows
      (s := { s with pi := { s.pi with currentCmd := [], state := .idle }, dead := true })
      ⟨{ cleared.inv with }, cleared.alive, cleared.clear⟩
  rename_i running command behind pending
  split
  · rename_i same
    subst same
    refine finish_follows cleared ?_ pending (some failure)
    rintro ⟨cmd, mem, list⟩
    rcases List.mem_cons.mp mem with rfl | mem
    · exact not_startsWith_nil list
    · exact tail ⟨(running, command), by rw [pending]; rfl, rfl⟩ cmd mem list
  · exact Calm.follows
      (s := { s with pi := { s.pi with currentCmd := [], state := .idle }, dead := true })
      ⟨{ cleared.inv with }, cleared.alive, cleared.clear⟩

/-- The task on top. -/
theorem run_follows {task : Task} {rest : List Task} (inv : Inv s) (connects : Connects s)
    (alive : s.up.crashed = false) (stack : s.stack = task :: rest) :
    Follows env s.up (run { s with stack := rest } task) := by
  have calm : Calm { s with stack := rest } :=
    ⟨inv.pop stack, alive, fun mem => connects.next (by rw [stack]; exact mem)⟩
  cases task with
  | connectToHost =>
      obtain ⟨quiet, notWaiting⟩ := connects.quiet (stack ▸ List.mem_cons_self)
      have changed := setState_calm calm .hostLookup
      have leads : Leads env s.up ({ s with stack := rest }.setState .hostLookup).up :=
        setState_leads calm .hostLookup
      have state : { s with stack := rest }.connectState .hostLookup =
          { s with stack := rest }.setState .hostLookup := by
        exact if_neg (ne_true_of_eq_false notWaiting)
      simp only [run, state]
      split
      · refine Follows.of_leads
          (Calm.follows (changed.setPi (fun _ => List.mem_cons_self) (fun _ mem _ => mem) .inl
          fun _ => .inr quiet)) leads
      · exact changed.follows.of_leads leads
  | piError failure => exact piError_follows calm failure
  | piErrorTail id failure =>
      exact piErrorTail_follows calm (inv.tails id failure (stack ▸ List.mem_cons_self)).2.2
  | readLoop => exact readLoop_follows calm
  | processReply caller => exact processReply_follows calm caller
  | react caller => exact react_follows calm caller
  | newState caller => exact newState_follows calm caller
  | clearError caller =>
      have cleared : Calm { s with stack := rest, dtp := { s.dtp with err := [] } } :=
        ⟨{ calm.inv with }, calm.alive, calm.clear⟩
      exact startNextCmd_follows (cleared.push (.replied caller) rfl)
  | failureTail caller =>
      rw [run]
      split
      · exact replied_follows calm caller
      · have idle : Calm { s with stack := rest, pi := { s.pi with state := .idle } } :=
          calm.setPi (fun _ => List.mem_cons_self) (fun _ mem _ => mem) nofun .inl
        exact startNextCmd_follows (idle.push (.replied caller) rfl)
  | replied caller => exact replied_follows calm caller
  | dtpConnect host port =>
      exact Calm.follows (s := { s with stack := rest, dtp := { s.dtp with
        state := .connecting, unread := [], address := some (host, port) } })
        ⟨{ calm.inv with }, calm.alive, calm.clear⟩
  | dtpConnectState state => exact dtpConnectState_follows calm state
  | startNextCmd => exact startNextCmd_follows calm

/-! ### The sockets -/

variable (env) in
/-- A line of a listing, while the `LIST` was sent last. -/
theorem listLine_leads (calm : Calm s) (list : StartsWith "LIST" s.pi.currentCmd)
    (line : QByteArray) :
    Leads env s.up (s.listLine line).up ∧ Calm (s.listLine line) ∧ (s.listLine line).pi = s.pi := by
  unfold listLine
  split
  · rename_i info _
    obtain ⟨id, file, head, -⟩ := calm.inv.listing _ List.mem_cons_self list
    have listed : (s.up.ftp.pending.head?.bind fun running => running.2.listed?) = some file := by
      rw [head]
      rfl
    simp only [listed]
    have logged :
      Inv { s with up := { s.up with log := .listed file info.toUrlInfo :: s.up.log } } :=
      { calm.inv with }
    have grown := logged.grow (listInfo_grows _ info.toUrlInfo)
    refine ⟨.of_step (e := .ftpList info.toUrlInfo) ?_, ⟨{ grown with }, ?_, calm.clear⟩, rfl⟩
    · rw [step_eq_react calm.alive, MediaUpdater.react, listed]
      rfl
    · exact (listInfo_crashed _ _).trans calm.alive
  · split
    · exact ⟨.refl _, ⟨{ calm.inv with }, calm.alive, calm.clear⟩, rfl⟩
    · exact ⟨.refl _, calm, rfl⟩

variable (env) in
/-- The lines of a listing. -/
theorem listLines_leads (lines : List QByteArray) (calm : Calm s)
    (list : StartsWith "LIST" s.pi.currentCmd) :
    Leads env s.up (lines.foldl listLine s).up ∧ Calm (lines.foldl listLine s) := by
  induction lines generalizing s with
  | nil => exact ⟨.refl _, calm⟩
  | cons line lines ih =>
      obtain ⟨first, next, same⟩ := listLine_leads env calm list line
      obtain ⟨rest, last⟩ := ih next (same ▸ list)
      exact ⟨first.trans rest, last⟩

/-- `QFtpDTP::socketReadyRead` -/
theorem socketReadyRead_follows (calm : Calm s) : Follows env s.up s.socketReadyRead := by
  unfold socketReadyRead
  split
  · exact closeDtp_follows (calm.push (.dtpConnectState .closed) rfl)
  split
  · rename_i list
    have read :
      Calm { s with dtp := { s.dtp with unread := (Lines.complete 10 s.dtp.unread).2 } } :=
      ⟨{ calm.inv with }, calm.alive, calm.clear⟩
    obtain ⟨leads, last⟩ := listLines_leads env (Lines.complete 10 s.dtp.unread).1 read list
    exact last.follows.of_leads leads
  · exact calm.follows

/-- The command socket changes its state, and does not begin to connect. -/
theorem setSocket_calm (calm : Calm s) (socket : SocketState) (unread : QByteArray)
    (opens : socket = .hostLookup ∨ socket = .connecting →
      s.pi.socket = .hostLookup ∨ s.pi.socket = .connecting) :
    Calm { s with pi := { s.pi with socket := socket, unread := unread } } :=
  calm.setPi (fun _ => List.mem_cons_self) (fun _ mem _ => mem) .inl fun opening =>
    .inl (opens opening)

/-- What the sockets report. -/
theorem report_follows (calm : Calm s) (idle : s.stack = []) {e : SessionEvent}
    (reports : s.report e = some t) : Follows env s.up t := by
  have unconnected := setSocket_calm calm .unconnected s.pi.unread (by simp)
  cases e with
  | tick | other e => cases reports
  | start =>
      simp only [report, Option.ite_none_left_eq_some, Option.some.injEq] at reports
      obtain ⟨-, rfl⟩ := reports
      have fired : Calm { s with starts := s.starts - 1 } :=
        ⟨{ calm.inv with }, calm.alive, calm.clear⟩
      exact startNextCommand_follows fired fun id failure mem =>
        absurd (idle ▸ mem) List.not_mem_nil
  | hostFound =>
      simp only [report, Option.ite_none_right_eq_some, Option.some.injEq] at reports
      obtain ⟨before, rfl⟩ := reports
      exact connectState_follows (setSocket_calm calm .connecting s.pi.unread fun _ => .inl before)
        .connecting
  | connected peerAddress ipv6 =>
      simp only [report, Option.ite_none_right_eq_some, Option.some.injEq] at reports
      obtain ⟨before, rfl⟩ := reports
      have opened : Calm { s with pi := { s.pi with
          socket := .connected, peerAddress := peerAddress, ipv6 := ipv6, state := .begin } } :=
        calm.setPi (fun _ => List.mem_cons_self) (fun _ mem _ => mem)
          (fun _ => .inr (calm.inv.opening (.inr before)))
          (by simp)
      exact connectState_follows opened .connected
  | hostNotFound =>
      simp only [report, Option.ite_none_right_eq_some, Option.some.injEq] at reports
      obtain ⟨-, rfl⟩ := reports
      exact connectState_follows (unconnected.push (.piError .hostNotFound) rfl) .unconnected
  | refused =>
      simp only [report, Option.ite_none_right_eq_some, Option.some.injEq] at reports
      obtain ⟨-, rfl⟩ := reports
      exact connectState_follows (unconnected.push (.piError .connectionRefused) rfl) .unconnected
  | socketError =>
      simp only [report, Option.ite_none_right_eq_some, Option.some.injEq] at reports
      obtain ⟨-, rfl⟩ := reports
      exact unconnected.follows
  | received bytes =>
      simp only [report, Option.ite_none_right_eq_some, Option.some.injEq] at reports
      obtain ⟨-, rfl⟩ := reports
      exact readyRead_follows (reads_calm calm s.pi.reader (s.pi.unread ++ bytes))
  | disconnected =>
      simp only [report, Option.ite_none_right_eq_some, Option.some.injEq] at reports
      obtain ⟨-, rfl⟩ := reports
      exact connectState_follows (setSocket_calm calm .unconnected [] (by simp)) .unconnected
  | dtpConnected =>
      simp only [report, Option.ite_none_right_eq_some, Option.some.injEq] at reports
      obtain ⟨-, rfl⟩ := reports
      exact ((setDtp_calm calm { s.dtp with state := .connected }).push _ rfl).follows
  | dtpRefused =>
      simp only [report, Option.ite_none_right_eq_some, Option.some.injEq] at reports
      obtain ⟨-, rfl⟩ := reports
      exact ((setDtp_calm calm { s.dtp with state := .unconnected }).push _ rfl).follows
  | dtpError =>
      simp only [report, Option.ite_none_right_eq_some, Option.some.injEq] at reports
      obtain ⟨-, rfl⟩ := reports
      exact (setDtp_calm calm { s.dtp with state := .unconnected }).follows
  | dtpReceived bytes =>
      simp only [report, Option.ite_none_right_eq_some, Option.some.injEq] at reports
      obtain ⟨-, rfl⟩ := reports
      exact socketReadyRead_follows
        (setDtp_calm calm { s.dtp with unread := s.dtp.unread ++ bytes })
  | dtpDisconnected =>
      simp only [report, Option.ite_none_right_eq_some, Option.some.injEq] at reports
      obtain ⟨-, rfl⟩ := reports
      exact closeDtp_follows calm

/-! ### The refinement -/

/-- A new `QFtp`. -/
theorem renewed_inv (starts : ℕ) (pending : up.ftp.pending = [] ∨
    ∃ id, up.ftp.pending = [(id, .connectToHost), (id + 1, .login)] ∧ up.idCounter = id + 2) :
    Inv { up := up, starts := starts } := by
  have quiet : ¬ Lists {} := by
    rintro ⟨cmd, mem, list⟩
    obtain rfl := List.mem_singleton.mp mem
    exact not_startsWith_nil list
  constructor
  case waits => nofun
  case tails => exact fun id failure mem => absurd mem List.not_mem_nil
  case listing => exact fun cmd mem list => absurd ⟨cmd, mem, list⟩ quiet
  case begin_ => exact fun _ => quiet
  case opening => exact fun _ => quiet
  all_goals
    rcases pending with none | ⟨id, two, counter⟩
    · simp [none]
    · simp [two, counter]

/-- The updater has gone on by itself. -/
theorem updated_inv {e : Event} (inv : Inv s) (idle : s.stack = [] ∨ e = .restart)
    (other : e.isFtp = false)
    (takes : MediaUpdater.step env s.up e = some up) :
    Inv (s.updated e up) ∧ Connects (s.updated e up) := by
  unfold updated
  split
  · rename_i new
    exact ⟨renewed_inv _ (step_renews takes new), .of_clear List.not_mem_nil⟩
  · rename_i same
    rw [Bool.not_eq_true] at same
    have stack : s.stack = [] := idle.resolve_right fun restart => by simp [restart, renews] at same
    have grown := inv.grow (step_grows takes other same)
    exact ⟨{ grown with }, .of_clear fun mem => absurd (stack ▸ mem) List.not_mem_nil⟩

/-- **A step of a session** is a run of the system. -/
theorem step_leads {e : SessionEvent} (inv : Inv s) (connects : Connects s)
    (takes : step env s e = some t) :
    Leads env s.up t.up ∧ Inv t ∧ Connects t := by
  cases e with
  | tick =>
      simp only [step, Option.ite_none_left_eq_some, Bool.or_eq_true, not_or,
        Bool.not_eq_true] at takes
      obtain ⟨⟨-, alive⟩, takes⟩ := takes
      split at takes
      · cases takes
      · rename_i task rest stack
        obtain rfl := Option.some.inj takes
        have follows : Follows env s.up _ := run_follows inv connects alive stack
        exact ⟨follows.leads, follows.inv, follows.connects⟩
  | other e =>
      simp only [step, Option.ite_none_left_eq_some, Option.map_eq_some_iff,
        Bool.not_eq_true] at takes
      obtain ⟨other, possible, up, takes, rfl⟩ := takes
      have idle : s.stack = [] ∨ e = .restart := by
        cases e <;> simp_all [Event.isRestart]
      have result : (s.updated e up).up = up := by
        unfold updated
        split <;> rfl
      obtain ⟨inv', connects'⟩ := updated_inv inv idle other takes
      refine ⟨?_, inv', connects'⟩
      rw [result]
      exact .of_step takes
  | _ =>
      simp only [step, Option.ite_none_left_eq_some, Bool.or_eq_true, not_or,
        Bool.not_eq_true] at takes
      obtain ⟨⟨⟨-, alive⟩, idle⟩, reports⟩ := takes
      have idle : s.stack = [] := by simpa using idle
      have calm : Calm s := ⟨inv, alive, by simp [idle]⟩
      have follows : Follows env s.up t := report_follows calm idle reports
      exact ⟨follows.leads, follows.inv, follows.connects⟩

theorem refines_inv (reached : Reachable (step env) (fun _ _ => True) Initial s) :
    Reachable (MediaUpdater.step env) (fun _ _ => True) MediaUpdater.Initial s.up ∧ Inv s ∧
    Connects s := by
  refine Reachable.invariant (fun s => Reachable (MediaUpdater.step env) (fun _ _ => True)
    MediaUpdater.Initial s.up ∧ Inv s ∧ Connects s) ?_ ?_ reached
  · rintro s ⟨fs, rfl⟩
    exact ⟨.of_init ⟨fs, rfl⟩, renewed_inv 0 (.inl rfl), .of_clear List.not_mem_nil⟩
  · intro s e t _ ⟨known, inv, connects⟩ _ takes
    obtain ⟨⟨es, run⟩, inv', connects'⟩ := step_leads inv connects takes
    exact ⟨known.run run, inv', connects'⟩

/-- A dialogue with a server up to the first `LIST`. -/
def dialogue : List SessionEvent :=
  let rest (n : ℕ) : List SessionEvent := List.replicate n .tick
  let line (text : String) : SessionEvent := .received (ascii (text ++ "\r\n"))
  [.other (.updateStart true), .other (.accountReady (some .demo)), .start, .tick, .hostFound,
      .connected (str "10.0.0.7") false, line "220 ready"] ++ rest 5 ++
    line "331 password" :: rest 6 ++ line "230 logged in" :: rest 6 ++ line "200 type" :: rest 6 ++
    line "227 (10,0,0,7,4,1)" :: rest 7 ++ [.dtpConnected, .tick]

theorem dialogue_lists :
    (execute (step .demo) (fun _ _ => True) { up := State.boot .blank } dialogue).map
        (fun s => (s.pi.currentCmd, s.dead)) =
      some (str "LIST mediabox/7/cron.d/adverttable\r\n", false) := by
  decide +kernel

/-- **The client does nothing else to the updater** than `Download.System` says: what the
sockets deliver, in whatever order, the updater is in a state that the system reaches. -/
theorem refines (reached : Reachable (step env) (fun _ _ => True) Initial s) :
    Reachable (MediaUpdater.step env) (fun _ _ => True) MediaUpdater.Initial s.up :=
  (refines_inv reached).1

theorem refines_demo :
    ∃ s : Session, s.pi.currentCmd = str "LIST mediabox/7/cron.d/adverttable\r\n" ∧
      Reachable (MediaUpdater.step .demo) (fun _ _ => True) MediaUpdater.Initial s.up := by
  obtain ⟨s, played, facts⟩ := Option.map_eq_some_iff.mp dialogue_lists
  refine ⟨s, (Prod.mk.inj facts).1, ?_⟩
  exact refines ⟨_, _, ⟨_, rfl⟩, .of_execute played⟩

/-- **A listing belongs to the file that was asked for**: while a `LIST` is the command sent last,
so that the lines of the data connection are announced, it is the one for the running command. -/
theorem listing_isRunning (reached : Reachable (step env) (fun _ _ => True) Initial s)
    (list : StartsWith "LIST" s.pi.currentCmd) : IsRunning s.up s.pi.currentCmd :=
  (refines_inv reached).2.1.listing _ List.mem_cons_self list

theorem listing_isRunning_demo :
    ∃ up, IsRunning up (str "LIST mediabox/7/cron.d/adverttable\r\n") := by
  obtain ⟨s, played, facts⟩ := Option.map_eq_some_iff.mp dialogue_lists
  have sent : s.pi.currentCmd = str "LIST mediabox/7/cron.d/adverttable\r\n" :=
    (Prod.mk.inj facts).1
  refine ⟨s.up, sent ▸ listing_isRunning ⟨_, _, ⟨_, rfl⟩, .of_execute played⟩ ?_⟩
  rw [sent]
  decide

end Session

end MediaUpdater
