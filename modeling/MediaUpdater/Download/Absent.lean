import MediaUpdater.Download.SizePhase

/-!
# Files that the server does not have

The size phase goes on to the next file from two handlers: `listInfo`, for a line of the
listing, and `ftpCommandFinished`, for the login and for a failure.  The success of a
`LIST` is ignored, since a line of it has been handled before.  When there was no line,
neither handler goes on: no command is left in the queue of `QFtp`, nothing is
scheduled, and the phase waits for `mFtpTimer`.

## Main results

* `Stands.exchange` — an answer with a line or a failure leads on to the next file.
* `size_phase_visits_iff` — the size phase visits all files, for all answers of the
  server, if and only if none of them is a success without a line.
* `size_phase_visits_fails` — one file without a line.
-/

namespace MediaUpdater

open Library DownloadManager Relation

variable {env : Env} {s t u : State} {files : List SContentInfo} {file : SContentInfo}

/-! ### What the server answers -/

/-- The answer of the server to the `LIST` of a file. -/
inductive ListAnswer where
  /-- The file is there: one line, and success. -/
  | present (size : ℤ)
  /-- It is not, and the command fails with an `UnknownError`. -/
  | failing (failure : FtpFailure) (unknown : failure.error = .unknownError)
  /-- It is not, and the command succeeds without a line. -/
  | silent

/-- The events of an answer. -/
def ListAnswer.events : ListAnswer → List Event
  | present size => [.ftpList ⟨true, true, size⟩, .ftpDone none]
  | failing failure _ => [.ftpDone (some failure)]
  | silent => [.ftpDone none]

variable (answer : SContentInfo → ListAnswer)

/-- The queue entry of a file, if the server has it. -/
def presentInfo (file : SContentInfo) : Option SContentInfo :=
  match answer file with
  | .present size => some (file.setSize size)
  | _ => none

/-- The events of the answer to a command; connecting and the login succeed. -/
def answerEvents : FtpCommand → List Event
  | .connectToHost => [.ftpDone none]
  | .login => [.ftpState .loggedIn, .ftpDone none]
  | .list file => (answer file).events
  | .close => [.ftpDone none]

variable (env) in
/-- During the size phase the server answers the running command. -/
def Exchange (s t : State) : Prop :=
  s.sizeEnds = 0 ∧ ∃ running, s.ftp.pending.head? = some running ∧
    Run (step env) (fun _ _ => True) s (answerEvents answer running.2) t

variable {answer}

/-- The answers leave no choice. -/
theorem Exchange.rightUnique : Relator.RightUnique (Exchange env answer) := by
  rintro s t u ⟨-, running, head, run⟩ ⟨-, running', head', run'⟩
  obtain rfl := Option.some.inj (head.symm.trans head')
  exact run.unique run'

/-- After the phase, and when no command is left, the server has nothing to answer. -/
theorem Exchange.stops (stopped : s.sizeEnds ≠ 0 ∨ s.ftp.pending = []) :
    ¬ Exchange env answer s t := by
  rintro ⟨going, running, head, -⟩
  rcases stopped with ended | empty
  · exact ended going
  · simp [empty] at head

/-! ### Where the phase stands -/

variable (answer) in
/-- The phase that was entered in `s₀` has visited `files`. -/
structure Visited (s₀ s : State) (files : List SContentInfo) : Prop where
  alive : s.crashed = false
  heard : s.ftpTimeout = false
  fresh : s.loginCommand < s.idCounter
  /-- The files that the server has are queued. -/
  queue : s.contentFiles = files.filterMap (presentInfo answer)
  /-- Each was listed, and the pass is not over. -/
  log : ∃ acts, s.log = acts ++ s₀.log ∧ Action.startTimer ∉ acts ∧
    ∀ file ∈ files, ∃ failure, Action.listFinished file failure ∈ acts

variable (answer) in
/-- The phase has visited `files` and has scheduled `nextDownload`. -/
structure VisitedAll (s₀ s : State) (files : List SContentInfo) : Prop
    extends Visited answer s₀ s files where
  ended : s.sizeEnds = 1
  scheduled : s.scheduled = s₀.scheduled + 1

variable (answer) in
/-- The phase has visited `files` and asks for `file`; after it, `left` are to be listed. -/
structure Asking (s₀ s : State) (files : List SContentInfo) (file : SContentInfo)
    (left : List SContentInfo) : Prop extends Visited answer s₀ s files where
  going : s.sizeEnds = 0
  scheduled : s.scheduled = s₀.scheduled
  left : (s.ftpContentFiles.filter fun file => file.serverPath ≠ []) = left
  current : s.currentContentFile = some file
  pending : ∃ id, id ≠ s.loginCommand ∧ s.ftp.pending = [(id, .list file)]

variable (answer) in
/-- The phase has visited `files`; `left` are to be listed. -/
def Stands (s₀ s : State) (files : List SContentInfo) : List SContentInfo → Prop
  | [] => VisitedAll answer s₀ s files
  | file :: left => Asking answer s₀ s files file left

variable {s₀ : State} {left : List SContentInfo}

/-- `nextFtpFile` leads on, when one command runs and leaves the queue afterwards. -/
theorem Stands.of_nextFtpFile {log : List Action} {running : ℕ × FtpCommand}
    (visited : Visited answer s₀ { s with log := log } files) (going : s.sizeEnds = 0)
    (scheduled : s.scheduled = s₀.scheduled)
    (toList : (s.ftpContentFiles.filter fun file => file.serverPath ≠ []) = left)
    (pending : s.ftp.pending = [running]) :
    Stands answer s₀
      { nextFtpFile s with log := log, ftp := (nextFtpFile s).ftp.removeFirst } files left := by
  obtain ⟨alive, heard, fresh, queue, logged⟩ := visited
  rcases nextFtpFileOf_cases s s.ftpContentFiles with
    ⟨empty, ends⟩ | ⟨skipped, file, rest, split, empty, listed, sent⟩
  · have none : left = [] := by
      rw [← toList]
      simpa [List.filter_eq_nil_iff] using empty
    rw [none, nextFtpFile, ends]
    refine ⟨⟨alive, heard, Nat.lt_succ_of_lt fresh, queue, logged⟩, ?_, ?_⟩
    · show s.sizeEnds + 1 = 1
      rw [going]
    · show s.scheduled + 1 = s₀.scheduled + 1
      rw [scheduled]
  · have some : left = file :: rest.filter fun file => file.serverPath ≠ [] := by
      have none : (skipped.filter fun file => file.serverPath ≠ []) = [] := by
        simpa [List.filter_eq_nil_iff] using empty
      rw [← toList, split, List.filter_append, none, List.nil_append,
        List.filter_cons_of_pos (by simpa using listed)]
    rw [some, nextFtpFile, sent]
    refine ⟨⟨alive, rfl, Nat.lt_succ_of_lt fresh, queue, logged⟩, going, scheduled, rfl, rfl,
      s.idCounter, Nat.ne_of_gt fresh, ?_⟩
    simp [addFtpCommand, pending]

/-- What `nextFtpFile` leaves for the end of the running command. -/
theorem nextFtpFile_ftp (s : State) :
    ∃ command, (nextFtpFile s).ftp = s.ftp.addCommand s.idCounter command ∧
      (nextFtpFile s).loginCommand = s.loginCommand ∧ (nextFtpFile s).crashed = s.crashed ∧
      (nextFtpFile s).log = s.log := by
  rcases nextFtpFileOf_cases s s.ftpContentFiles with ⟨-, ends⟩
    | ⟨skipped, file, rest, -, -, -, sent⟩
  · exact ⟨.close, by rw [nextFtpFile, ends]; exact ⟨rfl, rfl, rfl, rfl⟩⟩
  · exact ⟨.list file, by rw [nextFtpFile, sent]; exact ⟨rfl, rfl, rfl, rfl⟩⟩

/-- The same, when `nextFtpFile` is called at the end of the running command. -/
theorem Stands.of_ended {running : ℕ × FtpCommand} (visited : Visited answer s₀ s files)
    (going : s.sizeEnds = 0) (scheduled : s.scheduled = s₀.scheduled)
    (toList : (s.ftpContentFiles.filter fun file => file.serverPath ≠ []) = left)
    (pending : s.ftp.pending = [running]) :
    Stands answer s₀ { nextFtpFile s with ftp := (nextFtpFile s).ftp.removeFirst } files left := by
  obtain ⟨command, -, -, -, logged⟩ := nextFtpFile_ftp s
  have sameLog : Visited answer s₀ { s with log := (nextFtpFile s).log } files := by
    rw [logged]
    exact visited
  exact Stands.of_nextFtpFile sameLog going scheduled toList pending

/-- The listing of a file is over. -/
theorem Visited.log_snoc (visited : Visited answer s₀ s files) (file : SContentInfo)
    (failure : Option FtpFailure) (new : List Action) (silent : Action.startTimer ∉ new) :
    ∃ acts, answers failure (.list file) ++ (new ++ s.log) = acts ++ s₀.log ∧
      Action.startTimer ∉ acts ∧
      ∀ other ∈ files ++ [file], ∃ failure, Action.listFinished other failure ∈ acts := by
  obtain ⟨acts, logged, notTimer, all⟩ := visited.log
  refine ⟨.listFinished file failure :: (new ++ acts), ?_, ?_, fun other mem => ?_⟩
  · rw [logged]
    simp [answers, FtpCommand.listed?]
  · simp [silent, notTimer]
  · rcases List.mem_append.mp mem with before | now
    · obtain ⟨failure', mem'⟩ := all other before
      exact ⟨failure', by simp [mem']⟩
    · exact ⟨failure, by simp [List.mem_singleton.mp now]⟩

namespace Asking

/-- A failure leads on. -/
theorem failing (asking : Asking answer s₀ s files file left) {failure : FtpFailure}
    (unknown : failure.error = .unknownError) (absent : presentInfo answer file = none) :
    ∃ t, Run (step env) (fun _ _ => True) s [.ftpDone (some failure)] t ∧
      Stands answer s₀ t (files ++ [file]) left := by
  obtain ⟨id, other, pending⟩ := asking.pending
  have takes : step env s (.ftpDone (some failure)) =
      some (ftpDone s (some failure) id (.list file)) := by
    rw [step_eq_react asking.alive]
    simp [react, pending]
  refine ⟨_, .single trivial takes, ?_⟩
  let u : State :=
    { s with
      log := answers (some failure) (.list file) ++ s.log
      ftp := s.ftp.fail failure.error
      ftpTimer := false }
  have ended : ftpDone s (some failure) id (.list file) =
      { nextFtpFile u with ftp := (nextFtpFile u).ftp.removeFirst } := by
    rw [ftpDone, commandFinished_failure
      { s with log := answers (some failure) (.list file) ++ s.log } asking.heard, if_pos unknown]
  have one : u.ftp.pending = [(id, .list file)] := by simp [u, pending]
  have queue : u.contentFiles = (files ++ [file]).filterMap (presentInfo answer) := by
    simp [u, asking.queue, absent]
  have log := asking.toVisited.log_snoc file (some failure) [] (by simp)
  rw [ended]
  exact Stands.of_ended ⟨asking.alive, asking.heard, asking.fresh, queue, log⟩ asking.going
    asking.scheduled asking.left one

/-- A line leads on, and the success after it changes nothing more. -/
theorem present (asking : Asking answer s₀ s files file left) {size : ℤ}
    (is : answer file = .present size) :
    ∃ t, Run (step env) (fun _ _ => True) s [.ftpList ⟨true, true, size⟩, .ftpDone none] t ∧
      Stands answer s₀ t (files ++ [file]) left := by
  obtain ⟨id, other, pending⟩ := asking.pending
  -- the state in which `listInfo` calls `nextFtpFile`
  let u : State :=
    { s with
      log := .listed file ⟨true, true, size⟩ :: s.log
      ftpTimer := false
      totalBytes := qint64 (s.totalBytes + size)
      currentContentFile := some (file.setSize size)
      contentFiles := s.contentFiles ++ [file.setSize size]
      contentManager := s.contentManager.appendSize size }
  have line : step env s (.ftpList ⟨true, true, size⟩) = some (nextFtpFile u) := by
    rw [step_eq_react asking.alive]
    have running : (s.ftp.pending.head?.bind fun running => running.2.listed?) = some file := by
      simp [pending, FtpCommand.listed?]
    simp only [react, running, listInfo, if_neg (by simp [asking.heard] : ¬ s.ftpTimeout = true)]
    simp only [QUrlInfo.isRegularFile, Bool.and_self, if_true, appendListed, asking.current]
    rfl
  obtain ⟨command, ftp, login, crashed, logged⟩ := nextFtpFile_ftp u
  have success : step env (nextFtpFile u) (.ftpDone none) =
      some { nextFtpFile u with
        log := answers none (.list file) ++ u.log
        ftp := (nextFtpFile u).ftp.removeFirst } := by
    have head : (nextFtpFile u).ftp.pending.head? = some (id, .list file) := by
      rw [ftp]
      simp [u, pending]
    rw [step_eq_react (crashed.trans asking.alive)]
    simp only [react, head, Option.map_some]
    rw [ftpDone_success (nextFtpFile u) (by rw [login]; exact other), logged]
  refine ⟨_, .cons trivial line (.single trivial success), ?_⟩
  have queue : u.contentFiles = (files ++ [file]).filterMap (presentInfo answer) := by
    simp [u, asking.queue, presentInfo, is]
  have log := asking.toVisited.log_snoc file none [.listed file ⟨true, true, size⟩] (by simp)
  exact Stands.of_nextFtpFile ⟨asking.alive, asking.heard, asking.fresh, queue, log⟩ asking.going
    asking.scheduled asking.left pending

/-- A success without a line leaves no command. -/
theorem silent (asking : Asking answer s₀ s files file left)
    (run : Run (step env) (fun _ _ => True) s [.ftpDone none] t) :
    t.sizeEnds = 0 ∧ t.ftp.pending = [] := by
  obtain ⟨id, other, pending⟩ := asking.pending
  cases run with
  | cons _ takes rest =>
      cases rest
      rw [step_eq_react asking.alive] at takes
      simp only [react, pending, List.head?_cons, Option.map_some, Option.some.injEq] at takes
      rw [← takes, ftpDone_success s other]
      exact ⟨asking.going, by simp [pending]⟩

variable (env) in
/-- **The answer to one `LIST`.**  With a line or a failure the phase goes on to the next
file; a success without a line is the last thing that happens. -/
theorem exchange (asking : Asking answer s₀ s files file left) (served : answer file ≠ .silent) :
    ∃ t, Exchange env answer s t ∧ Stands answer s₀ t (files ++ [file]) left := by
  obtain ⟨id, -, pending⟩ := asking.pending
  obtain ⟨t, run, stands⟩ : ∃ t, Run (step env) (fun _ _ => True) s (answer file).events t ∧
      Stands answer s₀ t (files ++ [file]) left := by
    cases is : answer file with
    | present size => exact asking.present is
    | failing failure unknown => exact asking.failing unknown (by simp [presentInfo, is])
    | silent => exact absurd is served
  exact ⟨t, ⟨asking.going, (id, .list file), by simp [pending], run⟩, stands⟩

theorem stuck (asking : Asking answer s₀ s files file left) (silent : answer file = .silent)
    (exchange : Exchange env answer s t) : t.sizeEnds = 0 ∧ t.ftp.pending = [] := by
  obtain ⟨-, running, head, run⟩ := exchange
  obtain ⟨id, -, pending⟩ := asking.pending
  obtain rfl : (id, .list file) = running := by simpa [pending] using head
  rw [answerEvents, silent] at run
  exact asking.silent run

end Asking

/-! ### The size phase -/

variable (env answer) in
/-- The connection and the login come before the first `LIST`. -/
theorem SizeStart.stands (start : SizeStart s files) :
    ∃ t, ReflTransGen (Exchange env answer) s t ∧
      Stands answer s t [] (files.filter fun file => file.serverPath ≠ []) := by
  obtain ⟨alive, heard, going, left, empty, total, ⟨id, other, pending⟩, fresh, distinct⟩ := start
  let connecting : State := { s with ftp := { s.ftp with pending := [(s.loginCommand, .login)] } }
  have connected : step env s (.ftpDone none) = some connecting := by
    rw [step_eq_react alive]
    simp only [react, pending, List.head?_cons, Option.map_some]
    rw [ftpDone_success s other]
    simp [connecting, answers, FtpCommand.listed?, QFtp.removeFirst, pending]
  let loggedIn : State := { connecting with ftp := { connecting.ftp with state := .loggedIn } }
  have answered : step env connecting (.ftpState .loggedIn) = some loggedIn := step_eq_react alive
  let u : State := { loggedIn with ftpTimer := false }
  have success : step env loggedIn (.ftpDone none) =
      some { nextFtpFile u with ftp := (nextFtpFile u).ftp.removeFirst } := by
    have handled : commandFinished loggedIn s.loginCommand none = nextFtpFile u := by
      rw [commandFinished_login loggedIn heard, if_pos rfl]
    have reacts : step env loggedIn (.ftpDone none) =
      some (ftpDone loggedIn none s.loginCommand .login) :=
      step_eq_react alive
    rw [reacts, ← handled]
    rfl
  have first : Exchange env answer s connecting :=
    ⟨going, (id, .connectToHost), by simp [pending], .single trivial connected⟩
  have second : Exchange env answer connecting
      { nextFtpFile u with ftp := (nextFtpFile u).ftp.removeFirst } :=
    ⟨going, (s.loginCommand, .login), rfl, .cons trivial answered (.single trivial success)⟩
  refine ⟨_, (ReflTransGen.single first).tail second, ?_⟩
  exact Stands.of_ended (s := u) ⟨alive, heard, fresh, empty, [], rfl, by simp, by simp⟩ going rfl
    (by rw [← left]) rfl

variable (env) in
/-- **A phase whose answers have lines or failures goes on to its end.** -/
theorem Stands.visits (stands : Stands answer s₀ s files left)
    (served : ∀ file ∈ left, answer file ≠ .silent) :
    ∃ t, ReflTransGen (Exchange env answer) s t ∧ VisitedAll answer s₀ t (files ++ left) := by
  induction left generalizing s files with
  | nil => exact ⟨s, .refl, by rwa [List.append_nil]⟩
  | cons file left ih =>
      have asking : Asking answer s₀ s files file left := stands
      obtain ⟨t, exchange, stands'⟩ := asking.exchange env (served file List.mem_cons_self)
      obtain ⟨u, rest, all⟩ := ih stands' fun other mem => served other (List.mem_cons_of_mem _ mem)
      refine ⟨u, .head exchange rest, ?_⟩
      rwa [List.append_assoc] at all

/-- **A success without a line is where the phase stays.** -/
theorem Stands.stays (stands : Stands answer s₀ s files left)
    (unserved : ∃ file ∈ left, answer file = .silent)
    (reaches : ReflTransGen (Exchange env answer) s t) :
    t.sizeEnds = 0 := by
  induction left generalizing s files with
  | nil =>
      obtain ⟨file, mem, -⟩ := unserved
      cases mem
  | cons file left ih =>
      have asking : Asking answer s₀ s files file left := stands
      rcases reaches.cases_head with rfl | ⟨u, exchange, rest⟩
      · exact asking.going
      · by_cases silent : answer file = .silent
        · obtain ⟨going, empty⟩ := asking.stuck silent exchange
          rcases rest.cases_head with rfl | ⟨v, next, -⟩
          · exact going
          · exact absurd next (Exchange.stops (.inr empty))
        · obtain ⟨v, exchange', stands'⟩ := asking.exchange env silent
          obtain rfl := Exchange.rightUnique exchange exchange'
          refine ih stands' ?_ rest
          obtain ⟨other, mem, isSilent⟩ := unserved
          rcases List.mem_cons.mp mem with rfl | mem
          · exact absurd isSilent silent
          · exact ⟨other, mem, isSilent⟩

/-- **A file that is missing on the server.**  For every list of files and all answers of
the server, the size phase always goes on to its end — all files visited, exactly the
present ones queued, `nextDownload` scheduled and no `startTimer` — if and only if no
`LIST` succeeds without a line. -/
theorem size_phase_visits_iff (start : SizeStart s files) :
    (∀ t, ReflTransGen (Exchange env answer) s t →
      ∃ u, ReflTransGen (Exchange env answer) t u ∧
        VisitedAll answer s u (files.filter fun file => file.serverPath ≠ [])) ↔
      ∀ file ∈ files, file.serverPath ≠ [] → answer file ≠ .silent := by
  obtain ⟨first, login, stands⟩ := start.stands env answer
  constructor
  · intro visits file mem listed silent
    obtain ⟨u, reaches, all⟩ := visits first login
    have stays : u.sizeEnds = 0 :=
      stands.stays ⟨file, List.mem_filter.mpr ⟨mem, by simpa using listed⟩, silent⟩ reaches
    have ended := all.ended
    omega
  · intro served t reached
    obtain ⟨u, reaches, all⟩ := stands.visits env fun file mem => by
      obtain ⟨mem, listed⟩ := List.mem_filter.mp mem
      exact served file mem (by simpa using listed)
    rw [List.nil_append] at all
    -- the exchanges leave no choice, so `t` is on the way to `u`
    rcases ReflTransGen.total_of_right_unique Exchange.rightUnique reached
      (login.trans reaches) with
      onward | back
    · exact ⟨u, onward, all⟩
    · rcases back.cases_head with rfl | ⟨v, next, -⟩
      · exact ⟨u, .refl, all⟩
      · exact absurd next (Exchange.stops (.inl (by simp [all.ended])))

/-! ### One file is missing -/

/-- The server has `b.mp3`; the `LIST` of `a.mp3` fails, or succeeds without a line. -/
def demoAnswer (fails : Bool) (file : SContentInfo) : ListAnswer :=
  if file.fileName = str "b.mp3" then .present 7
  else if fails then .failing .noSuchFile rfl else .silent

/-- The `LIST` of the first file fails. -/
theorem size_phase_visits_demo :
    ∃ u, ReflTransGen (Exchange .demo (demoAnswer true)) .demoSizing u ∧
      VisitedAll (demoAnswer true) .demoSizing u demoFiles ∧
      u.contentFiles.map (fun info => (info.fileName, info.size)) = [(str "b.mp3", 7)] := by
  have served : ∀ file ∈ demoFiles, file.serverPath ≠ [] → demoAnswer true file ≠ .silent := by
    intro file mem _
    unfold demoAnswer
    split <;> simp
  obtain ⟨u, reaches, all⟩ :=
    (size_phase_visits_iff sizeStart_demoSizing).mpr served .demoSizing .refl
  have listed : (demoFiles.filter fun file => file.serverPath ≠ []) = demoFiles := by decide
  rw [listed] at all
  refine ⟨u, reaches, all, ?_⟩
  rw [all.queue]
  decide

/-- The `LIST` of the first file succeeds without a line. -/
theorem size_phase_visits_fails :
    ¬ ∀ answer t, ReflTransGen (Exchange .demo answer) .demoSizing t →
      ∃ u, ReflTransGen (Exchange .demo answer) t u ∧
        VisitedAll answer .demoSizing u (demoFiles.filter fun file => file.serverPath ≠ []) := by
  intro visits
  obtain ⟨first, login, stands⟩ := sizeStart_demoSizing.stands .demo (demoAnswer false)
  obtain ⟨u, reaches, all⟩ := visits _ first login
  have silent : ∃ file ∈ demoFiles.filter fun file => file.serverPath ≠ [],
      demoAnswer false file = .silent := ⟨.demo (str "a.mp3"), by decide, rfl⟩
  have stays := stands.stays silent reaches
  rw [all.ended] at stays
  cases stays

end MediaUpdater
