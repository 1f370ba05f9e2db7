import MediaUpdater.Download.Handlers
import MediaUpdater.Library.Enquiry

/-!
# The size phase

`getTotalSize` asks the FTP server for the size of every file of a stage and
queues the files it finds.  `listInfo` queues `mCurrentContentFile`, the file
whose `LIST` was sent last, and sends the next `LIST` at once, although the
listing it is called from may go on.  The size phase is thus a sequence of
pipelined enquiries (`Library.Enquiry`): a line belongs to the running `LIST` and
is taken for the last one.  The lines go on when no file is left and `nextDownload`
has been scheduled: further lines of a packet are read before it runs.

The queue is right exactly when every line for a regular file is the first line of its
listing, or belongs to the listing of the last file, which is not queued yet.

## Main results

* `Lists.next` — the handlers refine the moves of `Enquiry`.
* `size_phase_queue` — the queue is right if and only if every line for a regular
  file is attributed.
* `size_phase_queue_fails` — two lines in one listing.
-/

namespace MediaUpdater

open Library DownloadManager

variable {env : Env} {s t : State} {e : Event} {files : List SContentInfo}

/-! ### The right queue of a size phase -/

/-- A line that reports a regular file, with the file of its own `LIST`. -/
def Action.reported? : Action → Option (SContentInfo × ℤ)
  | listed file info => if info.isRegularFile then some (file, info.size) else none
  | _ => none

/-- The sizes that the server has reported, in order. -/
def reported (acts : List Action) : List (SContentInfo × ℤ) :=
  acts.reverse.filterMap Action.reported?

theorem reported_append (new old : List Action) :
    reported (new ++ old) = reported old ++ reported new := by
  simp [reported]

theorem reported_answers (failure : Option FtpFailure) (command : FtpCommand) :
    reported (answers failure command) = [] := by
  cases command <;> rfl

/-- **The right queue**: `sized` are files of the list, each at most once and in
order, with the sizes of their own listings; every file whose own listing
reported a regular file is among them; and the total is the sum, as a `qint64`. -/
structure RightQueue (files : List SContentInfo) (reported sized : List (SContentInfo × ℤ))
    (total : ℤ) : Prop where
  subsequence : (sized.map Prod.fst).Sublist files
  once : (sized.map Prod.fst).Nodup
  own : ∀ p ∈ sized, p ∈ reported
  complete : ∀ p ∈ reported, p.1 ∈ sized.map Prod.fst
  total : total = qint64 (sized.map Prod.snd).sum

/-- The queue entry of a file with its size. -/
def sizedInfo (p : SContentInfo × ℤ) : SContentInfo := p.1.setSize p.2

/-- The start of a size phase over `files`. -/
structure SizeStart (s : State) (files : List SContentInfo) : Prop where
  alive : s.crashed = false
  heard : s.ftpTimeout = false
  going : s.sizeEnds = 0
  left : s.ftpContentFiles = files
  empty : s.contentFiles = []
  total : s.totalBytes = 0
  pending : ∃ id, id ≠ s.loginCommand ∧
    s.ftp.pending = [(id, .connectToHost), (s.loginCommand, .login)]
  fresh : s.loginCommand < s.idCounter
  /-- The files are keyed by their names. -/
  distinct : (files.map fun file => file.fileName).Nodup

/-- The answers of the size phase: a command ends with success or with an `UnknownError`.
They may go on when `nextDownload` has been scheduled, until it runs. -/
def InSizePhase (_ : State) : Event → Prop
  | .ftpState _ | .ftpList _ => True
  | .ftpDone failure => ∀ f ∈ failure, f.error = .unknownError
  | _ => False

/-- The running `LIST` is about `mCurrentContentFile`, which is not in the queue yet. -/
def ListsCurrent (s : State) : Prop :=
  match s.ftp.pending.head?.bind fun running => running.2.listed? with
  | some file =>
      (s.currentContentFile.map fun info => info.fileName) = some file.fileName ∧
        ∀ info ∈ s.contentFiles, info.fileName ≠ file.fileName
  | none => False

/-- A line for a regular file is the first line of its listing: no command waits behind the
running `LIST` when it arrives.  Or no file is left, and it comes in the listing of the last file,
behind lines for directories only. -/
def Attributed (s : State) (e : Event) : Prop :=
  InSizePhase s e ∧
    match e with
    | .ftpList info =>
        info.isRegularFile → s.ftp.pending.length = 1 ∨ s.sizeEnds ≠ 0 ∧ ListsCurrent s
    | _ => True

/-! ### Refinement -/

/-- The files that are enquired about. -/
def enquired (files : List SContentInfo) : List SContentInfo :=
  files.filter fun file => file.serverPath ≠ []

/-- A line is taken to be about `x`: that is `mCurrentContentFile`, with its size when it has
been queued. -/
def TakenFor (s : State) (l : Enquiry SContentInfo ℤ) (x : SContentInfo) : Prop :=
  s.currentContentFile = some x ∨
    x ∈ l.collected.map Prod.fst ∧ ∃ size, s.currentContentFile = some (x.setSize size)

/-- The size phase `s` over `files`, entered in `s₀`, is in the state `l` of its enquiries, but for
the commands of the client. -/
structure Records (files : List SContentInfo) (s₀ s : State) (l : Enquiry SContentInfo ℤ) :
    Prop where
  alive : s.crashed = false
  ended : s.sizeEnds ≠ 0 ↔ l.ended = true
  queue : s.contentFiles = l.collected.map sizedInfo
  total : s.totalBytes = qint64 (l.collected.map Prod.snd).sum
  log : ∃ acts, s.log = acts ++ s₀.log ∧ reported acts = l.answered
  heard : s.ftpTimeout = false
  left : enquired s.ftpContentFiles = l.left
  exhausted : l.ended = true → s.ftpContentFiles = []
  within : ∀ file ∈ s.ftpContentFiles, file ∈ files
  asked : ∀ file ∈ l.pending, file ∈ files
  listed : ∀ p ∈ l.collected, p.1 ∈ files
  /-- At the end the files without a server path have been passed over. -/
  current : ∀ last, l.pending.getLast? = some last →
    ∃ x, TakenFor s l x ∧ (x = last ∨ l.ended = true ∧ x ∈ files ∧ x.serverPath = [])
  fresh : s.loginCommand < s.idCounter

/-- The commands behind the login: the enquiries, and behind them a `QUIT` for every end. -/
def Asked (login : ℕ) (commands : List (ℕ × FtpCommand)) (l : Enquiry SContentInfo ℤ) : Prop :=
  (∀ running ∈ commands, running.1 ≠ login) ∧
    ∃ closes, commands.map Prod.snd = l.pending.map .list ++ List.replicate closes .close ∧
      (closes = 0 ∨ l.ended = true) ∧ (l.ended = true → closes ≠ 0 ∨ l.pending = [])

/-- The size phase is in the state `l` of its enquiries, with its commands. -/
structure Lists (files : List SContentInfo) (s₀ s : State) (l : Enquiry SContentInfo ℤ) : Prop
    extends Records files s₀ s l where
  /-- The login comes before all enquiries. -/
  pending :
    l.pending = [] ∧ (∃ id, id ≠ s.loginCommand ∧
        s.ftp.pending = [(id, .connectToHost), (s.loginCommand, .login)]) ∨
      l.pending = [] ∧ s.ftp.pending = [(s.loginCommand, .login)] ∨
      Asked s.loginCommand s.ftp.pending l

/-- What `nextFtpFile` needs to refine an advance: the state before it, with the
enquiries that will be pending when `drop` has been applied to the queue. -/
structure Lists.Advances (files : List SContentInfo) (s₀ s : State) (l : Enquiry SContentInfo ℤ)
    (drop : QFtp → QFtp) : Prop extends Records files s₀ s l where
  login : ∀ command, ∀ running ∈ (drop (s.ftp.addCommand s.idCounter command)).pending,
    running.1 ≠ s.loginCommand
  pending : ∃ closes, (closes = 0 ∨ l.ended = true) ∧ ∀ command,
    (drop (s.ftp.addCommand s.idCounter command)).pending.map Prod.snd =
      l.pending.map .list ++ List.replicate closes .close ++ [command]

section Refinement

variable {s₀ : State} {l : Enquiry SContentInfo ℤ} {x : SContentInfo}

/-- The start of a size phase. -/
theorem Lists.init (start : SizeStart s files) :
    Lists files s s { left := enquired files } where
  alive := start.alive
  ended := by simp [start.going]
  queue := start.empty
  total := start.total
  log := ⟨[], rfl, rfl⟩
  heard := start.heard
  left := by rw [start.left]
  exhausted ended := by simp at ended
  within file mem := start.left ▸ mem
  asked _ none := absurd none List.not_mem_nil
  listed _ none := absurd none List.not_mem_nil
  current last none := by cases none
  fresh := start.fresh
  pending := .inl ⟨rfl, start.pending⟩

namespace TakenFor

theorem name (taken : TakenFor s l x) :
    (s.currentContentFile.map fun info => info.fileName) = some x.fileName := by
  rcases taken with current | ⟨-, size, current⟩
  · rw [current]
    rfl
  · rw [current]
    rfl

theorem append (taken : TakenFor s l x) (size : ℤ) :
    appendListed s size =
      { s with
        totalBytes := qint64 (s.totalBytes + size)
        currentContentFile := some (x.setSize size)
        contentFiles := s.contentFiles ++ [x.setSize size]
        contentManager := s.contentManager.appendSize size } := by
  unfold appendListed
  rcases taken with current | ⟨-, size', current⟩
  · rw [current]
  · rw [current]
    rfl

end TakenFor

namespace Records

/-- The end of a command that no handler acts on. -/
theorem ignored (records : Records files s₀ s l) (failure : Option FtpFailure)
    (command : FtpCommand) (ftp : QFtp) (pending : List SContentInfo)
    (fewer : ∀ file ∈ pending, file ∈ l.pending)
    (last : ∀ file, pending.getLast? = some file → l.pending.getLast? = some file) :
    Records files s₀ { s with log := answers failure command ++ s.log, ftp := ftp }
      { l with pending := pending } := by
  obtain ⟨acts, logged, same⟩ := records.log
  refine { records with
    log := ⟨answers failure command ++ acts, ?_, ?_⟩
    asked := fun file mem => records.asked file (fewer file mem)
    current := fun file atLast => records.current file (last file atLast) }
  · rw [logged, List.append_assoc]
  · rw [reported_append, reported_answers, List.append_nil, same]

/-- A line that is recorded. -/
theorem record (records : Records files s₀ s l) {a : SContentInfo} {queued : List SContentInfo}
    (running : l.pending = a :: queued) (taken : TakenFor s l x)
    (is : x = queued.getLastD a ∨ l.ended = true ∧ x ∈ files ∧ x.serverPath = []) (info : QUrlInfo)
    (regular : info.isRegularFile = true) :
    Records files s₀
      (appendListed { s with log := .listed a info :: s.log, ftpTimer := false } info.size)
      (l.record a x info.size) := by
  obtain ⟨acts, logged, same⟩ := records.log
  have known : x ∈ files := by
    rcases is with rfl | ⟨-, known, -⟩
    · refine records.asked _ (List.mem_of_getLast? ?_)
      rw [running, List.getLast?_cons, List.getLastD_eq_getLast?]
    · exact known
  rw [TakenFor.append (s := { s with log := .listed a info :: s.log, ftpTimer := false }) taken]
  refine { records with
    queue := ?_
    total := ?_
    log := ⟨.listed a info :: acts, ?_, ?_⟩
    listed := fun p mem => ?_
    current := fun last atLast => ⟨x, .inr ⟨?_, info.size, rfl⟩, ?_⟩ }
  · simp [Enquiry.record, records.queue, sizedInfo]
  · simp [Enquiry.record, records.total, qint64_add]
  · rw [logged]
    rfl
  · rw [← List.singleton_append, reported_append, same]
    simp [reported, Action.reported?, regular, Enquiry.record]
  · rcases List.mem_append.mp mem with before | new
    · exact records.listed p before
    · rw [List.mem_singleton.mp new]
      exact known
  · simp [Enquiry.record]
  · have same : last = queued.getLastD a := by
      have atLast' : l.pending.getLast? = some last := atLast
      rw [running, List.getLast?_cons] at atLast'
      rw [← Option.some.inj atLast', List.getLastD_eq_getLast?]
    rw [same]
    exact is

/-- A file is not in the queue when nothing is recorded for it, and the other way round. -/
theorem unqueued_iff (records : Records files s₀ s l)
    (distinct : (files.map fun file => file.fileName).Nodup) {file : SContentInfo}
    (known : file ∈ files) :
    (∀ info ∈ s.contentFiles, info.fileName ≠ file.fileName) ↔
      file ∉ l.collected.map Prod.fst := by
  rw [records.queue]
  refine ⟨fun others mem => ?_, fun notMem info mem name => notMem ?_⟩
  · obtain ⟨p, inside, rfl⟩ := List.mem_map.mp mem
    exact others (sizedInfo p) (List.mem_map_of_mem inside) rfl
  · obtain ⟨p, inside, rfl⟩ := List.mem_map.mp mem
    have same := List.inj_on_of_nodup_map distinct (records.listed p inside) known name
    exact same ▸ List.mem_map_of_mem (f := Prod.fst) inside

end Records

/-- `nextFtpFile` is an advance of the enquiries. -/
theorem Lists.advance (drop : QFtp → QFtp) (before : Lists.Advances files s₀ s l drop) :
    Lists files s₀ { nextFtpFile s with ftp := drop (nextFtpFile s).ftp } l.advance := by
  have left := before.left
  have exhausted := before.exhausted
  obtain ⟨records, login, closes, counted, pending⟩ := before
  rcases nextFtpFileOf_cases s s.ftpContentFiles with
    ⟨empty, ends⟩ | ⟨skipped, file, rest, split, empty, path, sent⟩
  · have none : l.left = [] := by
      rw [← left]
      simpa [enquired, List.filter_eq_nil_iff] using empty
    have advanced : l.advance = { l with ended := true } := by simp [Enquiry.advance, none]
    rw [advanced, nextFtpFile, ends]
    refine { records with
      ended := by simp
      left := none.symm
      exhausted := fun _ => rfl
      within := fun _ mem => absurd mem List.not_mem_nil
      current := fun last atLast => ?_
      fresh := Nat.lt_succ_of_lt records.fresh
      pending := .inr (.inr ⟨login .close, closes + 1, ?_, .inr rfl,
        fun _ => .inl (Nat.succ_ne_zero closes)⟩) }
    · rcases found : s.ftpContentFiles.getLast? with _ | passed
      · obtain ⟨x, taken, is⟩ := records.current last atLast
        refine ⟨x, ?_, is.imp_right fun stray => ⟨rfl, stray.2⟩⟩
        rw [TakenFor, currentAfter, found]
        exact taken
      · have mem := List.mem_of_getLast? found
        refine ⟨passed, .inl ?_, .inr ⟨rfl, records.within passed mem, empty passed mem⟩⟩
        rw [currentAfter, found]
        rfl
    · rw [List.replicate_succ', ← List.append_assoc]
      exact pending .close
  · have some : l.left = file :: enquired rest := by
      have none : enquired skipped = [] := by
        simpa [enquired, List.filter_eq_nil_iff] using empty
      rw [← left, split, enquired, List.filter_append, ← enquired, none, List.nil_append,
        List.filter_cons_of_pos (by simpa using path), ← enquired]
    have going : l.ended = false := by
      refine eq_false_of_ne_true fun done => ?_
      rw [exhausted done] at split
      exact absurd split (by simp)
    have advanced : l.advance = { l with
        pending := l.pending ++ [file]
        left := enquired rest } := by
      simp [Enquiry.advance, some]
    have rest_within : ∀ other ∈ file :: rest, other ∈ files := fun other mem =>
      records.within other (split ▸ List.mem_append_right skipped mem)
    rw [advanced, nextFtpFile, sent]
    refine { records with
      heard := rfl
      left := rfl
      exhausted := fun done => ?_
      within := fun other mem => rest_within other (List.mem_cons_of_mem file mem)
      asked := fun other mem => ?_
      current := fun last atLast => ⟨last, .inl ?_, .inl rfl⟩
      fresh := Nat.lt_succ_of_lt records.fresh
      pending := .inr (.inr ⟨login (.list file), 0, ?_, .inl rfl, fun done => ?_⟩) }
    · exact absurd (going.symm.trans done) Bool.false_ne_true
    · rcases List.mem_append.mp mem with before | new
      · exact records.asked other before
      · rw [List.mem_singleton.mp new]
        exact rest_within file List.mem_cons_self
    · simpa using atLast
    · have one := pending (.list file)
      rw [counted.resolve_right (by simp [going]), List.replicate_zero, List.append_nil] at one
      rw [List.map_append, List.replicate_zero, List.append_nil]
      exact one
    · exact absurd (going.symm.trans done) Bool.false_ne_true

namespace Lists

/-- While a `LIST` runs, the login is done. -/
theorem running (lists : Lists files s₀ s l) {file : SContentInfo}
    (runs : (s.ftp.pending.head?.bind fun running => running.2.listed?) = some file) :
    Asked s.loginCommand s.ftp.pending l ∧ ∃ queued, l.pending = file :: queued := by
  rcases lists.pending with ⟨-, id, -, pending⟩ | ⟨-, pending⟩ | asked
  · simp [pending, FtpCommand.listed?] at runs
  · simp [pending, FtpCommand.listed?] at runs
  · refine ⟨asked, ?_⟩
    obtain ⟨-, closes, commands, -, -⟩ := asked
    cases ftpPending : s.ftp.pending with
    | nil => simp [ftpPending] at runs
    | cons head rest =>
        simp only [ftpPending, List.head?_cons, Option.bind_some] at runs
        rw [ftpPending, List.map_cons] at commands
        cases enquiries : l.pending with
        | nil =>
            -- only the end of the phase is left
            rw [enquiries, List.map_nil, List.nil_append] at commands
            have close : head.2 = .close :=
              List.eq_of_mem_replicate (commands ▸ List.mem_cons_self)
            rw [close] at runs
            cases runs
        | cons a queued =>
            rw [enquiries, List.map_cons, List.cons_append, List.cons.injEq] at commands
            rw [commands.1] at runs
            exact ⟨queued, by rw [Option.some.inj runs]⟩

/-- When is the line that was recorded attributed? -/
theorem attributed_iff (lists : Lists files s₀ s l)
    (distinct : (files.map fun file => file.fileName).Nodup) {file : SContentInfo}
    (runs : (s.ftp.pending.head?.bind fun running => running.2.listed?) = some file)
    {queued taken : List SContentInfo} (pending : l.pending = file :: queued)
    (right : l.Right (enquired files) taken) (held : TakenFor s l x)
    (is : x = queued.getLastD file ∨ l.ended = true ∧ x ∈ files ∧ x.serverPath = []) :
    s.ftp.pending.length = 1 ∨ s.sizeEnds ≠ 0 ∧ ListsCurrent s ↔
      x = queued.getLastD file ∧ queued = [] ∧ file ∉ l.collected.map Prod.fst := by
  obtain ⟨⟨-, closes, commands, counted, ends⟩, -⟩ := lists.running runs
  have length : s.ftp.pending.length = queued.length + 1 + closes := by
    have lengths := congrArg List.length commands
    rw [List.length_map, List.length_append, List.length_map, List.length_replicate,
      pending] at lengths
    exact lengths
  have item := right.ordered.running_mem pending
  have atLast := right.ordered.getLast? pending
  have known : file ∈ files := List.mem_of_mem_filter item
  cases going : l.ended with
  | false =>
      have idle : ¬ s.sizeEnds ≠ 0 := fun some => by
        rw [lists.ended.mp some] at going
        cases going
      rw [counted.resolve_right (by simp [going]), Nat.add_zero] at length
      have last : x = queued.getLastD file := is.resolve_right (by simp [going])
      refine ⟨?_, fun first => .inl (by simp [length, first.2.1])⟩
      rintro (first | ⟨some, -⟩)
      · have empty : queued = [] := List.eq_nil_of_length_eq_zero (by omega)
        refine ⟨last, empty, ?_⟩
        rw [empty] at atLast
        exact right.last_notMem going atLast
      · exact absurd some idle
  | true =>
      have more : closes ≠ 0 := (ends going).resolve_right (by simp [pending])
      have exhausted : s.sizeEnds ≠ 0 := lists.ended.mpr going
      have other : x ∈ files := by
        rcases is with rfl | ⟨-, other, -⟩
        · refine List.mem_of_mem_filter (p := fun file => file.serverPath ≠ []) ?_
          rw [← enquired, right.ordered.split]
          exact List.mem_append_left _ (List.mem_of_getLast? atLast)
        · exact other
      have current : ListsCurrent s ↔ x = file ∧ file ∉ l.collected.map Prod.fst := by
        simp only [ListsCurrent, runs, held.name, Option.some.injEq,
          lists.unqueued_iff distinct known]
        refine and_congr_left fun _ => ⟨fun name => ?_, fun same => by rw [same]⟩
        exact List.inj_on_of_nodup_map distinct other known name
      have several : s.ftp.pending.length ≠ 1 := by omega
      rw [or_iff_right several, and_iff_right exhausted, current]
      refine ⟨?_, ?_⟩
      · rintro ⟨rfl, fresh⟩
        have last : x = queued.getLastD x := by
          refine is.resolve_right fun stray => ?_
          have path := List.of_mem_filter item
          simp [stray.2.2] at path
        exact ⟨last, right.ordered.queued_eq_nil pending last.symm, fresh⟩
      · rintro ⟨last, rfl, fresh⟩
        exact ⟨last, fresh⟩

/-- A listing line. -/
theorem ftpList_next (lists : Lists files s₀ s l)
    (distinct : (files.map fun file => file.fileName).Nodup) {info : QUrlInfo}
    (takes : step env s (.ftpList info) = some t) :
    ∃ flag l', Enquiry.Next (enquired files) flag l l' ∧ Lists files s₀ t l' ∧
      ∀ taken, l.Right (enquired files) taken → (flag = true ↔
        (info.isRegularFile → s.ftp.pending.length = 1 ∨ s.sizeEnds ≠ 0 ∧ ListsCurrent s)) := by
  rw [step_eq_react lists.alive] at takes
  cases runs : s.ftp.pending.head?.bind fun running => running.2.listed? with
  | none => simp [react, runs] at takes
  | some file =>
      simp only [react, runs, Option.some.injEq] at takes
      subst takes
      obtain ⟨⟨login, closes, commands, counted, -⟩, queued, pending⟩ := lists.running runs
      have command' (command : FtpCommand) :
          (s.ftp.addCommand s.idCounter command).pending.map Prod.snd =
            l.pending.map .list ++ List.replicate closes .close ++ [command] := by
        rw [← commands]
        simp
      have login' (command : FtpCommand) :
          ∀ running ∈ (s.ftp.addCommand s.idCounter command).pending,
            running.1 ≠ s.loginCommand := by
        intro running mem
        rcases List.mem_append.mp mem with before | new
        · exact login running before
        · rw [List.mem_singleton.mp new]
          exact Nat.ne_of_gt lists.fresh
      obtain ⟨x, held, is⟩ := lists.current (queued.getLastD file) (by
        rw [pending, List.getLast?_cons, List.getLastD_eq_getLast?])
      rw [listInfo, if_neg (by simp [lists.heard])]
      cases regular : info.isRegularFile with
      | false =>
          refine ⟨true, l.advance, .silent pending, ?_, by simp⟩
          refine advance id ⟨?_, login', closes, counted, command'⟩
          obtain ⟨acts, logged, same⟩ := lists.log
          refine { lists.toRecords with log := ⟨.listed file info :: acts, by simp [logged], ?_⟩ }
          rw [← List.singleton_append, reported_append, same]
          simp [reported, Action.reported?, regular]
      | true =>
          have recorded := lists.toRecords.record pending held is info regular
          have next : Lists files s₀ (nextFtpFile (appendListed
              { s with log := .listed file info :: s.log, ftpTimer := false } info.size))
              (l.record file x info.size).advance := by
            obtain ⟨bytes, current, infos, manager, appended⟩ := @appendListed_eq
              { s with log := .listed file info :: s.log, ftpTimer := false } info.size
            refine advance id ⟨recorded, ?_, closes, counted, ?_⟩
            · rw [appended]
              exact login'
            · rw [appended]
              exact command'
          rw [if_pos rfl]
          by_cases last : x = queued.getLastD file
          · refine ⟨decide (queued = [] ∧ file ∉ l.collected.map Prod.fst), _,
              .answer info.size pending decide_eq_true_iff, last ▸ next, fun taken right => ?_⟩
            rw [lists.attributed_iff distinct runs pending right held is, decide_eq_true_iff]
            exact ⟨fun meets _ => ⟨last, meets⟩, fun meets => (meets rfl).2⟩
          · obtain ⟨exhausted, -, path⟩ := is.resolve_left last
            have foreign : x ∉ enquired files := fun mem => by
              have some := List.of_mem_filter mem
              simp [path] at some
            have same : (l.record file x info.size).advance = l.record file x info.size := by
              have none : l.left = [] := by
                rw [← lists.left, lists.exhausted exhausted]
                rfl
              simp [Enquiry.advance, Enquiry.record, none, exhausted]
            refine ⟨false, _, .stray info.size exhausted pending foreign, same ▸ next,
              fun taken right => ?_⟩
            rw [lists.attributed_iff distinct runs pending right held is]
            exact ⟨fun no => absurd no Bool.false_ne_true, fun meets => absurd (meets rfl).1 last⟩

/-- The end of a command. -/
theorem ftpDone_next (lists : Lists files s₀ s l) {failure : Option FtpFailure}
    (unknown : ∀ f ∈ failure, f.error = .unknownError)
    (takes : step env s (.ftpDone failure) = some t) :
    ∃ l', Enquiry.Next (enquired files) true l l' ∧ Lists files s₀ t l' := by
  rw [step_eq_react lists.alive] at takes
  cases pending : s.ftp.pending with
  | nil => simp [react, pending] at takes
  | cons running queued =>
      obtain ⟨id, command⟩ := running
      simp only [react, pending, List.head?_cons, Option.map_some, Option.some.injEq] at takes
      subst takes
      -- the enquiries are given up, and the next file is listed
      have dropped (ftp : QFtp) (sole : ftp.removeFirst.pending = [])
          (nonempty : ftp.pending ≠ []) :
          Lists files s₀
            { nextFtpFile { s with
                log := answers failure command ++ s.log, ftp := ftp, ftpTimer := false } with
              ftp := (nextFtpFile { s with
                log := answers failure command ++ s.log, ftp := ftp, ftpTimer := false }
                ).ftp.removeFirst }
            { l with pending := [] }.advance := by
        have tail (x : ℕ × FtpCommand) : (ftp.pending ++ [x]).tail = [x] := by
          rw [List.tail_append_of_ne_nil nonempty]
          simpa using sole
        have records := lists.toRecords.ignored failure command ftp []
          (fun _ mem => absurd mem List.not_mem_nil) (fun _ none => by cases none)
        refine advance QFtp.removeFirst
          ⟨{ records with }, fun command' running mem => ?_, 0, .inl rfl, fun command' => ?_⟩
        · obtain rfl : running = (s.idCounter, command') := by simpa [tail] using mem
          exact Nat.ne_of_gt lists.fresh
        · simp [tail]
      cases failure with
      | some failure =>
          refine ⟨_, .drop l, ?_⟩
          rw [ftpDone, commandFinished_failure
            { s with log := answers (some failure) command ++ s.log } lists.heard,
            if_pos (unknown failure rfl)]
          exact dropped _ (by simp [pending]) (by simp [pending])
      | none =>
          rcases lists.pending with ⟨idle, id', other, pending'⟩ | ⟨idle, pending'⟩ |
            ⟨login, closes, commands, counted, ends⟩
          · rw [pending] at pending'
            obtain ⟨⟨rfl, rfl⟩, rfl⟩ : (id = id' ∧ command = .connectToHost) ∧
                queued = [(s.loginCommand, .login)] := by simpa using pending'
            refine ⟨l, .stay l, ?_⟩
            rw [ftpDone_success s other]
            exact ⟨lists.toRecords.ignored none .connectToHost _ _ (fun _ mem => mem)
              (fun _ atLast => atLast), .inr (.inl ⟨idle, by simp [pending]⟩)⟩
          · rw [pending] at pending'
            obtain ⟨⟨rfl, rfl⟩, rfl⟩ : (id = s.loginCommand ∧ command = .login) ∧ queued = [] := by
              simpa using pending'
            rw [ftpDone, commandFinished_login
              { s with log := answers none .login ++ s.log } lists.heard]
            split
            · exact ⟨_, .drop l, dropped s.ftp (by simp [pending]) (by simp [pending])⟩
            · refine ⟨l, .stay l, ?_⟩
              exact ⟨lists.toRecords.ignored none .login _ _ (fun _ mem => mem)
                (fun _ atLast => atLast), .inr (.inr ⟨by simp [pending], 0, by simp [pending, idle],
                  .inl rfl, fun _ => .inr idle⟩)⟩
          · refine ⟨_, .finish l, ?_⟩
            rw [ftpDone_success s (login (id, command) (by simp [pending]))]
            refine ⟨lists.toRecords.ignored none command _ _ (fun _ => List.mem_of_mem_tail)
              (fun file atLast => ?_), .inr (.inr ⟨fun running mem => login running
                (List.mem_of_mem_tail mem), ?_⟩)⟩
            · cases enquiries : l.pending with
              | nil => simp [enquiries] at atLast
              | cons a rest =>
                  cases rest with
                  | nil => simp [enquiries] at atLast
                  | cons b rest => simpa [enquiries] using atLast
            · rw [QFtp.pending_removeFirst, List.map_tail, commands]
              cases enquiries : l.pending with
              | nil =>
                  refine ⟨closes - 1, ?_, ?_, fun _ => .inr rfl⟩
                  · rw [List.map_nil, List.nil_append, List.tail_replicate, List.tail_nil]
                    rfl
                  · exact counted.imp_left fun none => by rw [none]
              | cons a rest =>
                  refine ⟨closes, rfl, counted, fun done => .inl ?_⟩
                  exact (ends done).resolve_right (by simp [enquiries])

/-- **The size phase refines its enquiries.**  The move is attributed exactly when the
event is. -/
theorem next (lists : Lists files s₀ s l)
    (distinct : (files.map fun file => file.fileName).Nodup) (phase : InSizePhase s e)
    (takes : step env s e = some t) :
    ∃ flag l', Enquiry.Next (enquired files) flag l l' ∧ Lists files s₀ t l' ∧
      ∀ taken, l.Right (enquired files) taken → (flag = true ↔ Attributed s e) := by
  cases e with
  | ftpState state =>
      rw [step_eq_react lists.alive] at takes
      obtain rfl := Option.some.inj takes
      refine ⟨true, l, .stay l, ?_, by simp [Attributed, InSizePhase]⟩
      exact ⟨lists.toRecords.ignored none .login _ _ (fun _ mem => mem) (fun _ atLast => atLast),
        lists.pending⟩
  | ftpList info =>
      obtain ⟨flag, l', move, lists', attributed⟩ := lists.ftpList_next distinct takes
      refine ⟨flag, l', move, lists', fun taken right => (attributed taken right).trans ?_⟩
      exact ⟨fun meets => ⟨trivial, meets⟩, fun meets => meets.2⟩
  | ftpDone failure =>
      obtain ⟨l', move, lists'⟩ := lists.ftpDone_next phase takes
      exact ⟨true, l', move, lists', fun _ _ => ⟨fun _ => ⟨phase, trivial⟩, fun _ => rfl⟩⟩
  | _ => exact absurd phase id

end Lists

end Refinement

/-! ### The right queue -/

section Queue

variable {s₀ : State} {l : Enquiry SContentInfo ℤ} {es : List Event}
variable {taken : List SContentInfo}

/-- After one misattributed line the collection stays wrong. -/
theorem wrong_run (lists : Lists files s₀ s l)
    (distinct : (files.map fun file => file.fileName).Nodup)
    (wrong : l.Wrong (enquired files) taken) (run : Run (step env) InSizePhase s es t) :
    ∃ l', Lists files s₀ t l' ∧ ∃ taken, l'.Wrong (enquired files) taken := by
  refine run.invariant
    (fun t => ∃ l', Lists files s₀ t l' ∧ ∃ taken, l'.Wrong (enquired files) taken) ?_
    ⟨l, lists, taken, wrong⟩
  rintro t e u ⟨l, lists, taken, wrong⟩ phase takes
  obtain ⟨flag, l', move, lists', -⟩ := lists.next distinct phase takes
  exact ⟨l', lists', wrong.next move⟩

/-- **The run lemma of the size phase.**  Either all lines for regular files are
attributed and the collection is right, or one is not and the collection is
wrong. -/
theorem lists_run (lists : Lists files s₀ s l)
    (distinct : (files.map fun file => file.fileName).Nodup)
    (right : l.Right (enquired files) taken) (run : Run (step env) InSizePhase s es t) :
    ∃ l', Lists files s₀ t l' ∧
      (Run (step env) Attributed s es t ∧ (∃ taken, l'.Right (enquired files) taken) ∨
        ¬ Run (step env) Attributed s es t ∧ ∃ taken, l'.Wrong (enquired files) taken) := by
  induction run generalizing l taken with
  | nil s => exact ⟨l, lists, .inl ⟨.nil s, taken, right⟩⟩
  | @cons s u t e es phase takes rest ih =>
      obtain ⟨flag, l', move, lists', attributed⟩ := lists.next distinct phase takes
      have attributed := attributed taken right
      cases flag with
      | false =>
          -- the line is not attributed, so no attributed run starts with it
          obtain ⟨taken, wrong⟩ := Enquiry.Wrong.of_next right.ordered move
          obtain ⟨l'', lists'', wrong'⟩ := wrong_run lists' distinct wrong rest
          refine ⟨l'', lists'', .inr ⟨?_, wrong'⟩⟩
          rintro (_ | ⟨meets, -, -⟩)
          exact Bool.false_ne_true (attributed.mpr meets)
      | true =>
          obtain ⟨taken', right'⟩ := right.next move
          obtain ⟨l'', lists'', outcome⟩ := ih lists' right'
          refine ⟨l'', lists'', ?_⟩
          rcases outcome with ⟨run, right''⟩ | ⟨noRun, wrong⟩
          · exact .inl ⟨.cons (attributed.mp rfl) takes run, right''⟩
          · refine .inr ⟨?_, wrong⟩
            rintro (_ | ⟨-, takes', run'⟩)
            rw [takes] at takes'
            cases takes'
            exact noRun run'

/-- The items of the enquiries are the files with a server path. -/
theorem SizeStart.nodup_items (start : SizeStart s files) : (enquired files).Nodup :=
  (List.Nodup.of_map _ start.distinct).filter _

/-- A right collection is a right queue. -/
theorem rightQueue_of_right {total : ℤ} (right : l.Right (enquired files) taken)
    (sum : total = qint64 (l.collected.map Prod.snd).sum) :
    RightQueue files l.answered l.collected total where
  subsequence := right.sublist_items.trans List.filter_sublist
  once := right.ordered.nodup.sublist right.sublist_items
  own _ mem := right.same ▸ mem
  complete _ mem := List.mem_map_of_mem (right.same ▸ mem)
  total := sum

/-- A wrong collection is no right queue, however the queue is read as files with
sizes. -/
theorem not_rightQueue_of_wrong {total : ℤ} {sized : List (SContentInfo × ℤ)}
    (distinct : (files.map fun file => file.fileName).Nodup)
    (listed : ∀ p ∈ l.collected, p.1 ∈ files) (wrong : l.Wrong (enquired files) taken)
    (queue : sized.map sizedInfo = l.collected.map sizedInfo) :
    ¬ RightQueue files l.answered sized total := by
  intro right
  have known : ∀ p ∈ sized, p.1 ∈ files := fun p mem =>
    right.subsequence.subset (List.mem_map_of_mem mem)
  rcases wrong.wrong with double | ⟨x, ⟨b, valued⟩, unanswered⟩
  · -- the names of the queue differ
    have names : (sized.map fun p => p.1.fileName) = l.collected.map fun p => p.1.fileName := by
      have same := congrArg (List.map fun info : SContentInfo => info.fileName) queue
      rwa [List.map_map, List.map_map] at same
    refine double (List.Nodup.of_map (fun file : SContentInfo => file.fileName) ?_)
    rw [List.map_map]
    show (l.collected.map fun p => p.1.fileName).Nodup
    rw [← names]
    have different : ((sized.map Prod.fst).map fun file => file.fileName).Nodup :=
      distinct.sublist (right.subsequence.map _)
    rwa [List.map_map] at different
  · have queued : sizedInfo (x, b) ∈ sized.map sizedInfo := by
      rw [queue]
      exact List.mem_map_of_mem valued
    obtain ⟨⟨y, n⟩, sizedMem, same⟩ := List.mem_map.mp queued
    have name : y.fileName = x.fileName := congrArg (fun info => info.fileName) same
    obtain rfl : y = x :=
      List.inj_on_of_nodup_map distinct (known _ sizedMem) (listed _ valued) name
    exact unanswered n (right.own _ sizedMem)

/-- **The size phase builds the right queue** — for every list of files and all
listings, at every point until `nextDownload` runs and in particular then —
if and only if every line for a regular file is the first line of its listing, or belongs to
the listing of the last file, which is not queued yet. -/
theorem size_phase_queue (start : SizeStart s files) (run : Run (step env) InSizePhase s es t) :
    ∃ acts, t.log = acts ++ s.log ∧
      ((∃ sized, t.contentFiles = sized.map sizedInfo ∧
          RightQueue files (reported acts) sized t.totalBytes) ↔
        Run (step env) Attributed s es t) := by
  obtain ⟨l, lists, outcome⟩ :=
    lists_run (Lists.init start) start.distinct (Enquiry.Right.init start.nodup_items) run
  obtain ⟨acts, logged, answered⟩ := lists.log
  refine ⟨acts, logged, ?_⟩
  rw [answered, lists.queue]
  rcases outcome with ⟨attributed, taken, right⟩ | ⟨notAttributed, taken, wrong⟩
  · exact ⟨fun _ => attributed, fun _ =>
      ⟨l.collected, rfl, rightQueue_of_right right lists.total⟩⟩
  · refine ⟨?_, fun attributed => absurd attributed notAttributed⟩
    rintro ⟨sized, queue, right⟩
    exact absurd right (not_rightQueue_of_wrong start.distinct lists.listed wrong queue.symm)

end Queue

/-- `getTotalSize` starts a size phase over the files of the manager, unless it cannot
connect. -/
theorem sizeStart_getTotalSize (alive : s.crashed = false) (empty : s.contentFiles = [])
    (keyed : s.contentManager.Keyed) (connects : (getTotalSize s).ftp.pending ≠ []) :
    SizeStart (getTotalSize s) s.contentManager.contentFiles := by
  have distinct := ContentManager.contentFiles_nodup keyed
  rcases getTotalSize_cases s with ⟨-, made⟩ | ⟨-, made⟩ | ⟨-, made⟩ <;> rw [made] at connects ⊢
  · exact absurd rfl connects
  · exact ⟨alive, rfl, rfl, rfl, empty, rfl, ⟨s.idCounter, by simp, rfl⟩, by simp, distinct⟩
  · exact absurd rfl connects

/-! ### Two lines in one listing -/

/-- A file of an advertising content. -/
def SContentInfo.demo (fileName : QString) : SContentInfo where
  dirName := str "ads"
  fileName := fileName
  serverPath := str "ads/" ++ fileName
  url := ⟨str "ftp", str "host", str "ads/" ++ fileName, 21, str "login", str "password"⟩
  content := ⟨.advert, Env.demo.station.boxDir (str "7"), false⟩

/-- Two files to be listed. -/
def demoFiles : List SContentInfo := [.demo (str "a.mp3"), .demo (str "b.mp3")]

/-- The start of a size phase over them. -/
def State.demoSizing : State :=
  { State.boot .blank with
    ftp := { pending := [(0, .connectToHost), (1, .login)], state := .loggedIn }
    idCounter := 2
    loginCommand := 1
    ftpContentFiles := demoFiles }

theorem sizeStart_demoSizing : SizeStart .demoSizing demoFiles where
  alive := rfl
  heard := rfl
  going := rfl
  left := rfl
  empty := rfl
  total := rfl
  pending := ⟨0, by decide, rfl⟩
  fresh := by decide
  distinct := by decide

instance (s : State) : DecidablePred (InSizePhase s)
  | .ftpState _ | .ftpList _ => .isTrue trivial
  | .ftpDone failure =>
      inferInstanceAs (Decidable (∀ f ∈ failure, f.error = .unknownError))
  | .restart | .updateStart _ | .accountReady _ | .ftpTimer | .nextDownload | .netData _
  | .netProgress _ _ | .netError | .netFinished | .deliver | .downloadTimer => .isFalse id

instance (s : State) : Decidable (ListsCurrent s) := by
  unfold ListsCurrent
  split <;> infer_instance

instance (s : State) : DecidablePred (Attributed s)
  | .ftpList info =>
      inferInstanceAs (Decidable (InSizePhase s (.ftpList info) ∧ (info.isRegularFile →
        s.ftp.pending.length = 1 ∨ s.sizeEnds ≠ 0 ∧ ListsCurrent s)))
  | .restart | .updateStart _ | .accountReady _ | .ftpState _ | .ftpDone _ | .ftpTimer
  | .nextDownload | .netData _ | .netProgress _ _ | .netError | .netFinished | .deliver
  | .downloadTimer => inferInstanceAs (Decidable (InSizePhase s _ ∧ True))

/-- The listings of the two files, one line each. -/
theorem size_phase_queue_demo :
    ∃ (t : State) (acts : List Action) (sized : List (SContentInfo × ℤ)), t.sizeEnds = 1 ∧
      t.contentFiles = sized.map sizedInfo ∧
      RightQueue demoFiles (reported acts) sized t.totalBytes := by
  have plays : (execute (step .demo) Attributed .demoSizing
      [.ftpDone none, .ftpDone none, .ftpList ⟨true, true, 5⟩, .ftpDone none,
        .ftpList ⟨true, true, 7⟩]).map State.sizeEnds = some 1 := by
    decide
  obtain ⟨t, played, reached⟩ := Option.map_eq_some_iff.mp plays
  have run := Run.of_execute played
  obtain ⟨acts, -, right⟩ :=
    size_phase_queue sizeStart_demoSizing (run.mono fun _ _ attributed => attributed.1)
  obtain ⟨sized, queue, rightQueue⟩ := right.mpr run
  exact ⟨t, acts, sized, reached, queue, rightQueue⟩

/-- The listing of the first file has two lines: the second file is queued with the
size of the second line, although it has not been listed. -/
theorem size_phase_queue_fails :
    ∃ t es, Run (step .demo) InSizePhase .demoSizing es t ∧ t.sizeEnds = 1 ∧
      ¬ ∃ sized, t.contentFiles = sized.map sizedInfo ∧
        RightQueue demoFiles (reported t.log) sized t.totalBytes := by
  have plays : (execute (step .demo) InSizePhase .demoSizing
      [.ftpDone none, .ftpDone none, .ftpList ⟨true, true, 5⟩, .ftpList ⟨true, true, 7⟩]).map
        (fun t => (t.sizeEnds, reported t.log, t.contentFiles.map fun info => info.fileName)) =
      some (1, [(.demo (str "a.mp3"), 5), (.demo (str "a.mp3"), 7)],
      [str "a.mp3", str "b.mp3"]) := by
    decide
  obtain ⟨t, played, facts⟩ := Option.map_eq_some_iff.mp plays
  simp only [Prod.mk.injEq] at facts
  obtain ⟨reached, sizes, names⟩ := facts
  refine ⟨t, _, .of_execute played, reached, ?_⟩
  rintro ⟨sized, queue, right⟩
  have listed : str "b.mp3" ∈ t.contentFiles.map fun info => info.fileName := by
    rw [names]
    simp
  rw [queue, List.map_map] at listed
  obtain ⟨p, mem, name⟩ := List.mem_map.mp listed
  have own := right.own p mem
  rw [sizes] at own
  have other : p.1.fileName = str "a.mp3" := by
    rcases List.mem_cons.mp own with rfl | own
    · rfl
    · rw [List.mem_singleton.mp own]
      rfl
  have same : p.1.fileName = str "b.mp3" := name
  rw [other] at same
  exact absurd same (by decide)

end MediaUpdater
