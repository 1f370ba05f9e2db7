import MediaUpdater.Download.Transfer
import MediaUpdater.Content.Collect

/-!
# What is accepted

`saveDownloadedFile` only logs that the staged file cannot be opened or written;
`downloadFinished` accepts every download whose reply has no error, which has not timed
out, and whose staged file exists.  Existence says neither that the bytes have arrived
there nor, when it fails, that any are missing: a chunk may be lost after an earlier one
created the file, and a reply without bytes never creates it.

## Main results

* `CompleteDownload.accepted_iff_fileExists` — a complete download is accepted when the
  staged file exists.
* `CompleteDownload.lost_rejected_iff` — lost bytes keep a download from being accepted
  exactly when the file was not there before and no call has opened it.
* `CompleteDownload.content_accepted_iff` — on a reliable disk a complete download leaves
  the server's content, accepted, exactly when nothing was staged before and the content
  is not empty, or an empty file was staged.
-/

namespace MediaUpdater

open Library DownloadManager FileSystem

variable {env : Env} {s t u : State} {e : Event} {reply reply' : Reply} {es : List Event}

/-! ### One download -/

namespace Event

/-- The events of one download. -/
def isDownload : Event → Bool
  | netData _ | netProgress _ _ | netError | netFinished | deliver | downloadTimer => true
  | _ => false

/-- The events of one download; `readyRead` is emitted only when there are bytes to read. -/
def isAnnounced : Event → Bool
  | netData bytes => !bytes.isEmpty
  | e => e.isDownload

theorem isStage_of_isDownload (download : e.isDownload) : e.isStage := by
  cases e <;> first | rfl | cases download

theorem isDownload_of_isAnnounced (announced : e.isAnnounced) : e.isDownload := by
  cases e <;> first | rfl | exact announced

end Event

theorem FileSystem.fileExists_openAppend {fs : FileSystem} {p : Path} :
    (fs.openAppend p).2.fileExists p = (fs.fileExists p || (fs.openAppend p).1) := by
  unfold FileSystem.openAppend
  cases fs.outcomes.openAppend.head with
  | true => simp [fileExists_put]
  | false => simp [FileSystem.fileExists, FileSystem.read]

/-- A transfer creates the staged file by opening it. -/
theorem Transfer.absent_iff (transfer : Transfer s e t reply reply') :
    t.fs.fileExists reply.file.stagedPath = false ↔
      s.fs.fileExists reply.file.stagedPath = false ∧
        (Saves s e → (s.fs.openAppend reply.file.stagedPath).1 = false) := by
  cases transfer with
  | data bytes event fs => simp [fs, event, Saves]
  | still calls fs => simp [fs, calls]
  | saved calls _ _ effect =>
      have opens := s.fs.fileExists_openAppend (p := reply.file.stagedPath)
      rcases effect with ⟨opened, -, ⟨-, fs⟩ | fs⟩ | ⟨opened, -, fs⟩ <;> rw [fs]
      · rw [opens, opened]
        simp [calls]
      · rw [FileSystem.write, fileExists_put, opened]
        simp [calls]
      · rw [opens, opened]
        simp

/-- An outstanding reply for `file`, since `w`. -/
structure Receiving (w : State) (file : SContentInfo) (s : State) (reply : Reply) : Prop where
  downloading : Downloading s reply
  alive : s.crashed = false
  file : reply.file = file
  revision : s.revision = w.revision
  contentManager : s.contentManager = w.contentManager

namespace Receiving

variable {w : State} {file : SContentInfo}

/-- **One event of a download**: it is a transfer, or the download is over. -/
theorem next (receiving : Receiving w file s reply) (download : e.isDownload)
    (takes : step env s e = some t) :
    (∃ reply', Receiving w file t reply' ∧ reply'.id = reply.id ∧
        Transfer s e t reply reply') ∨
      Waiting t ∧ t.crashed = false := by
  have kept (only : DownloadOnly s t) : t.crashed = s.crashed ∧ t.revision = s.revision ∧
      t.contentManager = s.contentManager := by
    rw [only]
    exact ⟨rfl, rfl, rfl⟩
  obtain ⟨downloading, alive, own, revision, contentManager⟩ := receiving
  cases downloading.inverted alive (Event.isStage_of_isDownload download) takes with
  | @transfers _ reply' downloading' id file only transfer log =>
      obtain ⟨crashed, revision', contentManager'⟩ := kept only
      exact .inl ⟨reply', ⟨downloading', crashed.trans alive, file.trans own,
        revision'.trans revision, contentManager'.trans contentManager⟩, id, transfer⟩
  | judges waiting posted only same judged =>
      obtain ⟨crashed, -, -⟩ := kept only
      exact .inr ⟨waiting, crashed.trans alive⟩

/-- A download that is over stays so. -/
theorem stopped {ok : State → Event → Prop} (downloads : ∀ s e, ok s e → e.isDownload)
    (waiting : Waiting s) (alive : s.crashed = false) (run : Run (step env) ok s es t) : t = s := by
  cases run with
  | nil => rfl
  | cons meets takes rest =>
      have download := downloads _ _ meets
      obtain ⟨rfl, -⟩ := waiting.next alive (Event.isStage_of_isDownload download) takes
      cases download

/-- **Invariants of a download.**  What every transfer preserves holds as long as the
reply is outstanding. -/
theorem invariant {ok : State → Event → Prop} (downloads : ∀ s e, ok s e → e.isDownload)
    (Inv : State → Reply → Prop)
    (preserves : ∀ s e t reply reply', Receiving w file s reply → Receiving w file t reply' →
      reply'.id = reply.id → Inv s reply → ok s e → Transfer s e t reply reply' → Inv t reply')
    (receiving : Receiving w file s reply) (start : Inv s reply)
    (run : Run (step env) ok s es t) (replying : t.currentReply = some reply') :
    Receiving w file t reply' ∧ Inv t reply' := by
  induction run generalizing reply with
  | nil =>
      obtain rfl := Option.some.inj (receiving.downloading.replying.symm.trans replying)
      exact ⟨receiving, start⟩
  | cons meets takes rest ih =>
      rcases receiving.next (downloads _ _ meets) takes with
        ⟨next, receiving', id, transfer⟩ | ⟨waiting, alive⟩
      · exact ih receiving' (preserves _ _ _ _ _ receiving receiving' id start meets transfer)
          replying
      · obtain rfl := stopped downloads waiting alive rest
        rw [waiting.replying] at replying
        cases replying

/-- The file comes to be there when a call of `saveDownloadedFile` opens it. -/
theorem absent_iff {ok : State → Event → Prop} (downloads : ∀ s e, ok s e → e.isDownload)
    (receiving : Receiving w file s reply) (run : Run (step env) ok s es t)
    (replying : t.currentReply = some reply') :
    t.fs.fileExists file.stagedPath = false ↔
      s.fs.fileExists file.stagedPath = false ∧
        Run (step env)
          (fun s e => ok s e ∧ (Saves s e → (s.fs.openAppend file.stagedPath).1 = false)) s es
            t := by
  induction run generalizing reply with
  | nil s => exact ⟨fun absent => ⟨absent, .nil s⟩, fun absent => absent.1⟩
  | @cons s u t e es meets takes rest ih =>
      rcases receiving.next (downloads _ _ meets) takes with
        ⟨next, receiving', id, transfer⟩ | ⟨waiting, alive⟩
      · have first := transfer.absent_iff
        rw [receiving.file] at first
        rw [ih receiving' replying, first]
        constructor
        · rintro ⟨⟨absent, closed⟩, unopened⟩
          exact ⟨absent, .cons ⟨meets, closed⟩ takes unopened⟩
        · rintro ⟨absent, unopened⟩
          cases unopened with
          | cons meets' takes' unopened =>
              obtain rfl := Option.some.inj (takes.symm.trans takes')
              exact ⟨⟨absent, meets'.2⟩, unopened⟩
      · obtain rfl := stopped downloads waiting alive rest
        rw [waiting.replying] at replying
        cases replying

end Receiving

/-! ### A complete download -/

/-- **A complete download.**  `before` waits for the `nextDownload` that requests `file`;
the events of the download lead to `last`, where the `finished` of a reply without an
error and without a timeout is delivered. -/
structure CompleteDownload (env : Env) (ok : Event → Bool) where
  before : State
  waiting : Waiting before
  alive : before.crashed = false
  file : SContentInfo
  rest : List SContentInfo
  left : before.contentFiles = file :: rest
  requested : State
  requests : step env before .nextDownload = some requested
  events : List Event
  last : State
  run : Run (step env) (fun _ e => ok e) requested events last
  reply : Reply
  replying : last.currentReply = some reply
  finished : last.posted.head? = some (reply.id, .finished)
  noError : reply.error = false
  inTime : last.downloadTimeout = false
  after : State
  takes : step env last .deliver = some after

/-- The verdict by which a download is accepted. -/
def Action.accepts : Action → Bool
  | setTrust _ _ _ _ => true
  | setRev _ _ status => status = .downloadOk
  | _ => false

namespace CompleteDownload

variable {ok : Event → Bool} (d : CompleteDownload env ok)

/-- Where the file is downloaded to. -/
def path : Path := d.file.stagedPath

/-- `downloadFinished` sets trust, or records `DOWNLOAD_OK`. -/
def Accepted : Prop := ∃ a, Emits d.last d.after a ∧ a.accepts

/-- Bytes that the reply has delivered are not in the staged file. -/
def Lost : Prop :=
  (d.last.fs.read d.path).getD [] ≠ (d.before.fs.read d.path).getD [] ++ d.reply.delivered

/-- No call of `saveDownloadedFile` has opened the staged file. -/
def Unopened : Prop :=
  Run (step env) (fun s e => ok e ∧ (Saves s e → (s.fs.openAppend d.path).1 = false))
    d.requested d.events d.last

/-- The file is trusted, or its status is `DOWNLOAD_OK`. -/
def Marked : Prop :=
  let boxId := d.after.contentManager.loginInfo.boxId
  if d.before.revision then
    CheckDownloadedContent.checkRev env boxId d.after.fs d.file.fileName =
      CheckStatus.downloadOk.toInt
  else CheckDownloadedContent.trust env boxId d.after.fs d.file.toEntry = true

/-- The state in which the download begins. -/
theorem requested_eq : d.requested =
    requestFile { d.before with scheduled := 0 } d.file d.rest := by
  obtain ⟨-, requested⟩ := d.waiting.next d.alive rfl d.requests
  rw [requested]
  exact nextDownload_cons env { d.before with scheduled := 0 } d.left

theorem receiving :
    Receiving d.before d.file d.requested { id := d.before.replies, file := d.file } := by
  rw [d.requested_eq]
  exact ⟨d.waiting.request d.file d.rest, d.alive, rfl, rfl, rfl⟩

theorem fs_requested : d.requested.fs = d.before.fs := by
  rw [d.requested_eq]
  rfl

section Downloads

variable (downloads : ∀ e, ok e → e.isDownload)

include downloads

/-- What every transfer preserves holds in the last state. -/
theorem invariant (Inv : State → Reply → Prop)
    (preserves : ∀ s e t reply reply', Receiving d.before d.file s reply →
      Receiving d.before d.file t reply' → reply'.id = reply.id → Inv s reply → ok e →
      Transfer s e t reply reply' → Inv t reply')
    (start : Inv d.requested { id := d.before.replies, file := d.file }) :
    Receiving d.before d.file d.last d.reply ∧ Inv d.last d.reply :=
  d.receiving.invariant (fun _ e meets => downloads e meets) Inv preserves start d.run d.replying

/-- **The verdict.** -/
theorem judged :
    Receiving d.before d.file d.last d.reply ∧ d.last.posted = [(d.reply.id, .finished)] ∧
      ∃ file, SameFile file d.file ∧ Judged env d.last d.after d.reply file ∧
        d.after.contentManager = d.last.contentManager := by
  obtain ⟨receiving, -⟩ := d.invariant downloads (fun _ _ => True)
    (fun _ _ _ _ _ _ _ _ _ _ _ => trivial) trivial
  obtain ⟨rest, posted⟩ : ∃ rest, d.last.posted = (d.reply.id, .finished) :: rest := by
    cases posted : d.last.posted with
    | nil => simpa [posted] using d.finished
    | cons head rest => exact ⟨rest, by simpa [posted] using d.finished⟩
  refine ⟨receiving, ?_⟩
  cases receiving.downloading.inverted receiving.alive rfl d.takes with
  | transfers downloading' id file only transfer log =>
      -- the handler of `finished` gives the reply away
      obtain ⟨current, is, -⟩ := receiving.downloading.current
      have handled : downloadFinished env { d.last with posted := rest } d.reply.id = d.after := by
        have reacts := (step_eq_react receiving.alive).symm.trans d.takes
        simp only [react, posted, Option.some.injEq] at reacts
        exact reacts
      have given : d.after.currentReply = none := by
        rw [← handled]
        exact (judged_downloadFinished (s := { d.last with posted := rest }) is d.replying).1
      exact absurd (given.symm.trans downloading'.replying) (by simp)
  | @judges file waiting posted only same judged =>
      refine ⟨posted, file, receiving.file ▸ same, judged, ?_⟩
      rw [only]

/-- **A complete download is accepted when the staged file exists.** -/
theorem accepted_iff_fileExists : d.Accepted ↔ d.last.fs.fileExists d.path = true := by
  obtain ⟨-, -, file, same, judged, -⟩ := d.judged downloads
  have place : file.stagedPath = d.path := same.stagedPath
  have accepts :
    (d.last.fs.fileExists file.stagedPath && !d.last.downloadTimeout && !d.reply.error) =
      d.last.fs.fileExists d.path := by
    rw [place, d.inTime, d.noError]
    simp
  have of_log (acts : List Action) (logged : d.after.log = acts ++ d.last.log) :
      d.Accepted ↔ ∃ a ∈ acts, a.accepts := by
    constructor
    · rintro ⟨a, emitted, accepts⟩
      exact ⟨a, mem_of_emits acts logged emitted, accepts⟩
    · rintro ⟨a, mem, accepts⟩
      exact ⟨a, (emits_iff logged a).mpr mem, accepts⟩
  cases judged with
  | revision stage status is fs log =>
      rw [of_log [.setRev d.reply.id file status] log, is, accepts]
      cases d.last.fs.fileExists d.path <;> simp [Action.accepts]
  | content stage n fs log present ok =>
      rw [of_log _ log]
      rw [place] at present
      constructor
      · rintro ⟨a, mem, -⟩
        exact present (List.mem_replicate.mp mem).1
      · intro exists_
        exact ⟨_, List.mem_replicate.mpr ⟨ok (accepts.trans exists_), rfl⟩, rfl⟩

end Downloads

/-- **A failed write and the verdict.**  Whatever the calls of `saveDownloadedFile` lose,
the loss keeps the download from being accepted exactly when the staged file was not there
before and no call has opened it. -/
theorem lost_rejected_iff (d : CompleteDownload env Event.isDownload) :
    (d.Lost → ¬ d.Accepted) ↔
      (d.Lost → d.before.fs.fileExists d.path = false ∧ d.Unopened) := by
  have absent : d.last.fs.fileExists d.path = false ↔
      d.before.fs.fileExists d.path = false ∧ d.Unopened := by
    rw [← d.fs_requested]
    exact d.receiving.absent_iff (fun _ _ download => download) d.run d.replying
  rw [d.accepted_iff_fileExists fun _ download => download, Bool.not_eq_true, absent]

/-- The download of a file that is played event by event. -/
def play (before : State) (waiting : Waiting before) (alive : before.crashed = false)
    (file : SContentInfo) {rest : List SContentInfo} (left : before.contentFiles = file :: rest)
    (events : List Event)
    (plays : ((step env before .nextDownload).bind fun requested =>
      execute (step env) (fun _ e => ok e) requested events).isSome)
    (replies : (Option.get _ plays).currentReply.isSome)
    (finished : (Option.get _ plays).posted.head? = some ((Option.get _ replies).id, .finished))
    (noError : (Option.get _ replies).error = false)
    (inTime : (Option.get _ plays).downloadTimeout = false)
    (ends : (step env (Option.get _ plays) .deliver).isSome) : CompleteDownload env ok where
  before := before
  waiting := waiting
  alive := alive
  file := file
  rest := rest
  left := left
  requested := nextDownload env { before with scheduled := 0 }
  requests := by
    rw [step_eq_react alive]
    simp [react, waiting.scheduled]
  events := events
  last := Option.get _ plays
  run := by
    obtain ⟨requested, requests, played⟩ := Option.bind_eq_some_iff.mp (Option.some_get plays).symm
    obtain ⟨-, rfl⟩ := waiting.next alive rfl requests
    exact .of_execute played
  reply := Option.get _ replies
  replying := (Option.some_get replies).symm
  finished := finished
  noError := noError
  inTime := inTime
  after := Option.get _ ends
  takes := (Option.some_get ends).symm

end CompleteDownload

/-- The file of `State.demoStage`. -/
def SContentInfo.demoStaged : SContentInfo :=
  { dirName := str "ads"
    fileName := str "a.mp3"
    serverPath := str "ads/a.mp3"
    url := ⟨str "ftp", str "host", str "ads/a.mp3", 21, str "login", str "password"⟩
    content := ⟨.advert, Env.demo.station.boxDir (str "7"), false⟩ }

/-- A disk that is full: files can be opened, but not written. -/
def FileSystem.full : FileSystem :=
  { blank with outcomes := { Outcomes.success with write := .const (some 0) } }

/-- A download to a full disk. -/
def CompleteDownload.demoFull : CompleteDownload .demo Event.isDownload :=
  .play { State.demoStage with fs := .full } ⟨rfl, rfl, rfl, rfl⟩ rfl .demoStaged rfl
    [.netData [1, 2], .deliver, .netFinished] (by decide) (by decide) (by decide) (by decide)
    (by decide) (by decide)

/-- No byte of the file can be written, and the empty file becomes trusted. -/
theorem lost_rejected_fails : ¬ ∀ d : CompleteDownload .demo Event.isDownload, d.Lost →
    ¬ d.Accepted := by
  intro rejected
  refine rejected .demoFull ?_ ?_
  · show _ ≠ _
    decide
  · rw [CompleteDownload.accepted_iff_fileExists _ fun _ download => download]
    decide

/-! ### The bytes of a complete download -/

/-- Nothing has been done for a reply that has delivered nothing. -/
structure Idle (fs : FileSystem) (s : State) (reply : Reply) : Prop where
  fs : s.fs = fs
  buffer : reply.buffer = []
  silent : ∀ signal ∈ s.posted, signal.2 ≠ .readyRead

/-- Without `readyRead` and without bytes there is nothing to save. -/
theorem Idle.transfer {fs : FileSystem} (idle : Idle fs s reply)
    (replying : s.currentReply = some reply)
    (announced : e.isAnnounced) (empty : reply'.delivered = [])
    (transfer : Transfer s e t reply reply') : Idle fs t reply' := by
  obtain ⟨same, buffer, silent⟩ := idle
  cases transfer with
  | data bytes event _ _ delivered =>
      rw [delivered, List.append_eq_nil_iff] at empty
      subst event
      simp [Event.isAnnounced, empty.2] at announced
  | still _ fs buffer' _ posted =>
      refine ⟨fs.trans same, buffer'.trans buffer, fun signal mem read => ?_⟩
      exact silent signal ((posted signal read).mp mem) read
  | saved calls =>
      cases e with
      | deliver =>
          obtain ⟨signal, head, read⟩ := Option.map_eq_some_iff.mp calls
          exact absurd read (silent signal (List.mem_of_head? head))
      | downloadTimer =>
          obtain ⟨other, replying', buffered⟩ := calls
          obtain rfl := Option.some.inj (replying.symm.trans replying')
          exact absurd buffer buffered
      | _ => exact calls.elim

theorem Transfer.delivered_prefix (transfer : Transfer s e t reply reply') :
    reply.delivered <+: reply'.delivered := by
  cases transfer with
  | data bytes _ _ _ delivered =>
      rw [delivered]
      exact List.prefix_append _ _
  | still _ _ _ delivered | saved _ delivered => rw [delivered]

namespace CompleteDownload

variable (d : CompleteDownload env Event.isAnnounced)

theorem announces : ∀ e, Event.isAnnounced e → e.isDownload :=
  fun _ => Event.isDownload_of_isAnnounced

/-- A reply that delivers nothing leaves the disk as it is. -/
theorem fs_last (empty : d.reply.delivered = []) : d.last.fs = d.before.fs := by
  have kept := d.invariant announces
    (fun s reply => reply.delivered = [] → Idle d.before.fs s reply)
    (fun s e t reply reply' receiving _ _ idle announced transfer empty =>
      (idle (List.prefix_nil.mp (empty ▸ transfer.delivered_prefix))).transfer
        receiving.downloading.replying announced empty transfer)
    (fun _ => ⟨d.fs_requested, rfl, by simp [d.requested_eq, requestFile, d.waiting.posted]⟩)
  exact (kept.2 empty).fs

/-- The staged bytes are what was there before, followed by what the reply delivers. -/
theorem gathered (reliable : d.before.fs.Reliable) :
    (d.last.fs.read d.path).getD [] = (d.before.fs.read d.path).getD [] ++ d.reply.delivered := by
  have start : Gathered ((d.before.fs.read d.path).getD []) d.requested
      { id := d.before.replies, file := d.file } := by
    rw [← d.fs_requested]
    exact @Gathered.request d.requested { id := d.before.replies, file := d.file } ⟨rfl, rfl⟩
  have kept := d.invariant announces
    (fun s reply => s.fs.Reliable ∧ Gathered ((d.before.fs.read d.path).getD []) s reply)
    (fun s e t reply reply' receiving receiving' id gathered _ transfer =>
      ⟨transfer.frame.1.reliable gathered.1, gathered.2.transfer gathered.1 id
        (receiving'.file.trans receiving.file.symm) transfer⟩)
    ⟨d.fs_requested ▸ reliable, start⟩
  obtain ⟨receiving, posted, -⟩ := d.judged announces
  have complete := kept.2.2.complete posted
  rwa [receiving.file] at complete

/-- The verdict leaves the staged file alone; when it exists, the verdict is good. -/
theorem marked :
    d.after.fs.read d.path = d.last.fs.read d.path ∧
      (d.last.fs.fileExists d.path = true → d.Marked) := by
  obtain ⟨receiving, -, file, same, judged, contentManager⟩ := d.judged announces
  have place : file.stagedPath = d.path := same.stagedPath
  have ok (present : d.last.fs.fileExists d.path = true) :
      (d.last.fs.fileExists file.stagedPath && !d.last.downloadTimeout && !d.reply.error) =
        true := by
    rw [place, present, d.inTime, d.noError]
    rfl
  unfold Marked
  simp only [contentManager, ← receiving.revision, ← same.toEntry]
  cases judged with
  | revision stage status is fs log =>
      rw [fs, if_pos stage]
      refine ⟨rfl, fun present => ?_⟩
      rw [is, ok present]
      have name : file.fileName = d.file.fileName := congrArg Entry.fileName same.toEntry
      simp [name, CheckDownloadedContent.checkRev, CheckDownloadedContent.setRev,
        settingsValue_setSettingsValue, QVariant.toInt]
  | content stage n fs log _ calls =>
      rw [if_neg (by simp [stage]), fs]
      refine ⟨read_iterate_setTrust n, fun present => ?_⟩
      obtain ⟨m, rfl⟩ := Nat.exists_eq_succ_of_ne_zero (calls (ok present))
      rw [Function.iterate_succ_apply', CheckDownloadedContent.trust_setTrust]
      simp

/-- **A complete download and its content.**  When every call succeeds, the download
leaves exactly the bytes of the reply, trusted or marked, if and only if nothing is staged
before it, or an empty file, and there is such a file already when the reply has no bytes:
without bytes there is no `readyRead`, and nothing else creates the staged file. -/
theorem content_accepted_iff (d : CompleteDownload env Event.isAnnounced)
    (reliable : d.before.fs.Reliable) :
    (d.after.fs.read d.path = some d.reply.delivered ∧ d.Marked) ↔
      (d.before.fs.read d.path).getD [] = [] ∧
        (d.reply.delivered = [] → d.before.fs.read d.path = some []) := by
  obtain ⟨kept, marked⟩ := d.marked
  have gathered := d.gathered reliable
  rw [kept]
  constructor
  · rintro ⟨staged, -⟩
    rw [staged, Option.getD_some, List.self_eq_append_left] at gathered
    refine ⟨gathered, fun empty => ?_⟩
    rw [← d.fs_last empty, staged, empty]
  · rintro ⟨free, created⟩
    rw [free, List.nil_append] at gathered
    have staged : d.last.fs.read d.path = some d.reply.delivered := by
      by_cases empty : d.reply.delivered = []
      · rw [d.fs_last empty, created empty, empty]
      · obtain ⟨bytes, there⟩ : ∃ bytes, d.last.fs.read d.path = some bytes := by
          by_contra none
          rw [not_exists, ← Option.eq_none_iff_forall_ne_some] at none
          rw [none] at gathered
          exact empty gathered.symm
        rw [there] at gathered ⊢
        exact congrArg some gathered
    exact ⟨staged, marked (fileExists_of_read staged)⟩

/-- The file of `State.demoStage`, in two chunks. -/
def demoChunks : CompleteDownload .demo Event.isAnnounced :=
  .play .demoStage ⟨rfl, rfl, rfl, rfl⟩ rfl .demoStaged rfl
    [.netData [1, 2], .deliver, .netProgress 2 3, .netData [3], .deliver, .netFinished, .deliver]
    (by decide) (by decide) (by decide) (by decide) (by decide) (by decide)

/-- `content_accepted_iff` for a file in two chunks. -/
theorem content_accepted_iff_chunks :
    demoChunks.after.fs.read demoChunks.path = some [1, 2, 3] ∧ demoChunks.Marked := by
  refine (demoChunks.content_accepted_iff rfl).mpr ⟨by decide, fun empty => ?_⟩
  exact absurd empty (by decide)

/-- An empty file. -/
def demoEmpty : CompleteDownload .demo Event.isAnnounced :=
  .play .demoStage ⟨rfl, rfl, rfl, rfl⟩ rfl .demoStaged rfl [.netFinished]
    (by decide) (by decide) (by decide) (by decide) (by decide) (by decide)

/-- An empty file is neither staged nor trusted. -/
theorem content_accepted_fails :
    ¬ ∀ d : CompleteDownload .demo Event.isAnnounced, d.before.fs.Reliable →
      d.after.fs.read d.path = some d.reply.delivered ∧ d.Marked := by
  intro accepted
  obtain ⟨staged, -⟩ := accepted demoEmpty rfl
  have missing : demoEmpty.after.fs.read demoEmpty.path = none := by decide
  rw [missing] at staged
  cases staged

end CompleteDownload

end MediaUpdater
