import MediaUpdater.Download.Handlers

/-!
# The download stage

A stage downloads the files of `mContentFiles` one after the other.  Between two
events it is in one of two states: *waiting* for the one scheduled
`nextDownload`, or *downloading*, with one outstanding reply and its signals in
the event queue, `finished` last.

## Main results

* `Downloading.progresses` — every event of the stage keeps the reply and the file it
  was requested for together, or ends the download with its verdict.
* `StageRecord.next` — the bookkeeping of a stage, as an invariant of its runs.
* `download_stage_attribution` — the files are requested once each and in order,
  bytes and verdicts go to the file they belong to, no handler meets a null
  reply, and the stage ends once.
-/

namespace MediaUpdater

open Library DownloadManager

variable {env : Env} {s t : State} {e : Event} {reply : Reply}

/-! ### The queued signals of a reply -/

/-- The queued signals of a reply: they carry its number, and `finished` is among
them exactly when the reply has emitted it, at the end. -/
def Queued (reply : Reply) (posted : List (ℕ × Signal)) : Prop :=
  ∃ signals, Signal.finished ∉ signals ∧
    posted = (signals ++ if reply.finished then [.finished] else []).map fun signal =>
      (reply.id, signal)

namespace Queued

variable {posted : List (ℕ × Signal)} {reply' : Reply} {signal : Signal} {sender : ℕ}

theorem nil (unfinished : reply.finished = false) : Queued reply [] :=
  ⟨[], by simp, by simp [unfinished]⟩

/-- The queue depends on the number of the reply and on whether it has finished. -/
theorem congr (queued : Queued reply posted) (id : reply'.id = reply.id)
    (finished : reply'.finished = reply.finished) : Queued reply' posted := by
  obtain ⟨signals, unfinished, rfl⟩ := queued
  exact ⟨signals, unfinished, by rw [id, finished]⟩

theorem snoc (queued : Queued reply posted) (unfinished : reply.finished = false)
    (other : signal ≠ .finished) : Queued reply (posted ++ [(reply.id, signal)]) := by
  obtain ⟨signals, notMem, rfl⟩ := queued
  refine ⟨signals ++ [signal], ?_, by simp [unfinished]⟩
  simpa [notMem] using other.symm

theorem finish (queued : Queued reply posted) (unfinished : reply.finished = false)
    (id : reply'.id = reply.id) (finished : reply'.finished = true) :
    Queued reply' (posted ++ [(reply'.id, .finished)]) := by
  obtain ⟨signals, notMem, rfl⟩ := queued
  exact ⟨signals, notMem, by simp [unfinished, finished, id]⟩

/-- Taking a signal from the queue: it is the reply's own; when it is `finished`,
nothing is left. -/
theorem of_cons (queued : Queued reply ((sender, signal) :: posted)) :
    sender = reply.id ∧
      (signal = .finished ∧ posted = [] ∧ reply.finished = true ∨
        signal ≠ .finished ∧ Queued reply posted) := by
  obtain ⟨signals, notMem, split⟩ := queued
  cases signals with
  | nil =>
      cases finished : reply.finished with
      | true =>
          simp only [finished, if_true, List.nil_append, List.map_cons, List.map_nil,
            List.cons.injEq, Prod.mk.injEq] at split
          exact ⟨split.1.1, .inl ⟨split.1.2, split.2, rfl⟩⟩
      | false => simp [finished] at split
  | cons head tail =>
      simp only [List.cons_append, List.map_cons, List.cons.injEq, Prod.mk.injEq] at split
      obtain ⟨⟨own, rfl⟩, rest⟩ := split
      refine ⟨own, .inr ⟨fun same => notMem (by simp [same]), tail, ?_, rest⟩⟩
      exact fun mem => notMem (by simp [mem])

end Queued

/-! ### Waiting and downloading -/

/-- One `nextDownload` is scheduled, and nothing of a download is left. -/
structure Waiting (s : State) : Prop where
  scheduled : s.scheduled = 1
  replying : s.currentReply = none
  posted : s.posted = []
  downloadTimer : s.downloadTimer = false

/-- The reply `reply` is outstanding for the current file, and nothing is
scheduled. -/
structure Downloading (s : State) (reply : Reply) : Prop where
  scheduled : s.scheduled = 0
  replying : s.currentReply = some reply
  current : ∃ file, s.currentContentFile = some file ∧ SameFile file reply.file
  queued : Queued reply s.posted

/-- The step changes nothing but the download of the current file. -/
def DownloadOnly (s t : State) : Prop :=
  t = { s with
    fs := t.fs
    currentContentFile := t.currentContentFile
    lastBytes := t.lastBytes
    currentBytes := t.currentBytes
    downloadTimer := t.downloadTimer
    downloadTimeout := t.downloadTimeout
    fullDownloadBytes := t.fullDownloadBytes
    currentReply := t.currentReply
    scheduled := t.scheduled
    posted := t.posted
    log := t.log }

namespace Event

/-- The events of a download stage. -/
def isStage : Event → Bool
  | nextDownload | netData _ | netProgress _ _ | netError | netFinished | deliver
  | downloadTimer => true
  | _ => false

end Event

namespace Action

/-- What happens to the reply `id` before it finishes: its bytes are written to
`path`, or it is aborted. -/
inductive IsTransfer (id : ℕ) (path : Path) : Action → Prop
  | append (bytes : QByteArray) : IsTransfer id path (.append id path bytes)
  | abort : IsTransfer id path (.abort id)

end Action

/-- What one event makes of an outstanding reply: it stays outstanding, for the same
file, or its `finished` is handled and the stage waits again. -/
inductive Progresses (s t : State) (reply : Reply) (acts : List Action) : Event → Prop
  | goesOn {e : Event} {reply' : Reply} (downloading : Downloading t reply')
      (id : reply'.id = reply.id) (file : reply'.file = reply.file)
      (transfers : ∀ a ∈ acts, a.IsTransfer reply.id reply.file.stagedPath) :
      Progresses s t reply acts e
  | ends {file : SContentInfo} (waiting : Waiting t)
      (finished : s.posted.head? = some (reply.id, .finished))
      (same : SameFile file reply.file)
      (verdicts : ∀ a ∈ acts, a.IsVerdict reply.id file) :
      Progresses s t reply acts .deliver

namespace Downloading

/-- The specification of `saveDownloadedFile` in a download. -/
theorem save (downloading : Downloading s reply) :
    ∃ acts, (saveDownloadedFile s).log = acts ++ s.log ∧
      DownloadOnly s (saveDownloadedFile s) ∧
      ∃ reply', Downloading (saveDownloadedFile s) reply' ∧ reply'.id = reply.id ∧
        reply'.file = reply.file ∧
        ∀ a ∈ acts, a.IsTransfer reply.id reply.file.stagedPath := by
  obtain ⟨file, current, same⟩ := downloading.current
  obtain ⟨fs, buffer, acts, saved, shape⟩ :=
    saveDownloadedFile_eq s current downloading.replying
  rw [saved]
  refine ⟨acts, rfl, rfl, _, ⟨downloading.scheduled, rfl, ⟨file, current, same⟩,
    downloading.queued.congr rfl rfl⟩, rfl, rfl, ?_⟩
  rcases shape with rfl | rfl
  · simp
  · simpa [same.stagedPath] using .append _

/-- A signal of the reply joins the queue. -/
theorem emits (downloading : Downloading s reply) (unfinished : reply.finished = false)
    {reply' : Reply} {signal : Signal} (id : reply'.id = reply.id)
    (file : reply'.file = reply.file)
    (last : signal = .finished ∧ reply'.finished = true ∨
      signal ≠ .finished ∧ reply'.finished = false) :
    Downloading (s.emits reply' signal) reply' := by
  refine ⟨downloading.scheduled, rfl, ?_, ?_⟩
  · rw [file]
    exact downloading.current
  · rcases last with ⟨rfl, finished⟩ | ⟨other, unfinished'⟩
    · exact downloading.queued.finish unfinished id finished
    · simp only [State.emits, id]
      exact (downloading.queued.snoc unfinished other).congr id (by rw [unfinished', unfinished])

/-- What `step` needs of a signal: the reply goes on, nothing is logged. -/
theorem emits_progress (downloading : Downloading s reply) {change : Reply → Reply}
    {signal : Signal}
    (takes : s.activeReply.map (fun reply => s.emits (change reply) signal) = some t)
    (id : (change reply).id = reply.id) (file : (change reply).file = reply.file)
    (last : signal = .finished ∧ (change reply).finished = true ∨
      signal ≠ .finished ∧ (change reply).finished = reply.finished) :
    ∃ acts, t.log = acts ++ s.log ∧ DownloadOnly s t ∧ Progresses s t reply acts e := by
  rw [activeReply_eq downloading.replying] at takes
  cases unfinished : reply.finished with
  | true => simp [unfinished] at takes
  | false =>
      simp only [unfinished, Bool.false_eq_true, if_false, Option.map_some,
        Option.some.injEq] at takes
      subst takes
      rw [unfinished] at last
      exact ⟨[], rfl, rfl, .goesOn (downloading.emits unfinished id file last) id file (by simp)⟩

/-- The delivery of a signal to its handler. -/
theorem delivered (downloading : Downloading s reply) {sender : ℕ} {signal : Signal}
    {rest : List (ℕ × Signal)} (posted : s.posted = (sender, signal) :: rest) :
    ∃ acts, (deliver env { s with posted := rest } sender signal).log =
        acts ++ s.log ∧
      DownloadOnly s (deliver env { s with posted := rest } sender signal) ∧
      Progresses s (deliver env { s with posted := rest } sender signal) reply acts
        .deliver := by
  obtain ⟨scheduled, replying, ⟨file, current, same⟩, queued⟩ := downloading
  rw [posted] at queued
  obtain ⟨rfl, ⟨rfl, rfl, -⟩ | ⟨other, left⟩⟩ := queued.of_cons
  · obtain ⟨fs, acts, finished, verdicts⟩ :=
      downloadFinished_eq env { s with posted := [] } reply.id current replying
    simp only [deliver]
    rw [finished]
    exact ⟨acts, rfl, rfl,
      .ends ⟨by simp [scheduled], rfl, rfl, rfl⟩ (by simp [posted]) same verdicts⟩
  · have still : Downloading { s with posted := rest } reply :=
      ⟨scheduled, replying, ⟨file, current, same⟩, left⟩
    cases signal with
    | readyRead =>
        obtain ⟨acts, logged, only, reply', downloading, id, file, transfers⟩ := still.save
        exact ⟨acts, logged, only, .goesOn downloading id file transfers⟩
    | downloadProgress cb tb =>
        obtain ⟨currentBytes, lastBytes, full, file', progressed, same'⟩ :=
          downloadProgress_eq { s with posted := rest } cb tb current
        simp only [deliver]
        rw [progressed]
        exact ⟨[], rfl, rfl, .goesOn ⟨scheduled, replying, ⟨file', rfl, same'.trans same⟩, left⟩
          rfl rfl (by simp)⟩
    | error =>
        exact ⟨[], rfl, rfl, .goesOn ⟨scheduled, replying, ⟨file, current, same⟩, left⟩
          rfl rfl (by simp)⟩
    | finished => exact absurd rfl other

/-- **One event of a download.** -/
theorem progresses (downloading : Downloading s reply) (alive : s.crashed = false)
    (stage : e.isStage) (takes : step env s e = some t) :
    ∃ acts, t.log = acts ++ s.log ∧ DownloadOnly s t ∧ Progresses s t reply acts e := by
  rw [step_eq_react alive] at takes
  cases e with
  | nextDownload => simp [react, downloading.scheduled] at takes
  | netData bytes => exact downloading.emits_progress takes rfl rfl (.inr ⟨by simp, rfl⟩)
  | netProgress cb tb => exact downloading.emits_progress takes rfl rfl (.inr ⟨by simp, rfl⟩)
  | netError => exact downloading.emits_progress takes rfl rfl (.inr ⟨by simp, rfl⟩)
  | netFinished => exact downloading.emits_progress takes rfl rfl (.inl ⟨rfl, rfl⟩)
  | downloadTimer =>
      rw [react, Option.ite_none_right_eq_some] at takes
      obtain ⟨-, fired⟩ := takes
      obtain rfl := Option.some.inj fired
      rw [downloadTimedOut_eq s downloading.replying]
      obtain ⟨scheduled, replying, current, queued⟩ := downloading
      split
      · have still : Downloading { s with downloadTimer := false } reply :=
          ⟨scheduled, replying, current, queued⟩
        obtain ⟨acts, logged, only, reply', downloading, id, file, transfers⟩ := still.save
        exact ⟨acts, logged, only, .goesOn downloading id file transfers⟩
      · refine ⟨[.abort reply.id], rfl, rfl, .goesOn ⟨scheduled, rfl, current,
          queued.congr rfl rfl⟩ rfl rfl ?_⟩
        simpa using .abort
  | deliver =>
      simp only [react] at takes
      split at takes
      · cases takes
      case h_2 sender signal rest posted =>
          obtain rfl := Option.some.inj takes
          exact downloading.delivered posted
  | _ => cases stage

end Downloading

namespace Waiting

/-- While a stage waits, the only event is `nextDownload`. -/
theorem next (waiting : Waiting s) (alive : s.crashed = false) (stage : e.isStage)
    (takes : step env s e = some t) :
    e = .nextDownload ∧ t = nextDownload env { s with scheduled := 0 } := by
  obtain ⟨scheduled, replying, posted, downloadTimer⟩ := waiting
  rw [step_eq_react alive] at takes
  cases e with
  | nextDownload => exact ⟨rfl, by simpa [react, scheduled] using takes.symm⟩
  | deliver => simp [react, posted] at takes
  | downloadTimer => simp [react, downloadTimer] at takes
  | netData | netProgress | netError | netFinished =>
      simp [react, State.activeReply, replying] at takes
  | _ => cases stage

/-- The next file is requested. -/
theorem request (waiting : Waiting s) (file : SContentInfo) (rest : List SContentInfo) :
    Downloading (requestFile { s with scheduled := 0 } file rest)
      { id := s.replies, file := file } :=
  ⟨rfl, rfl, ⟨file, rfl, .refl file⟩, by
    rw [DownloadManager.requestFile, waiting.posted]
    exact .nil rfl⟩

end Waiting

/-! ### Runs of a stage -/

namespace Action

/-- The request of a log entry. -/
def request? : Action → Option (ℕ × SContentInfo)
  | request id file => some (id, file)
  | _ => none

/-- What belongs to the download of single files. -/
def isDownload : Action → Bool
  | request _ _ | append _ _ _ | setTrust _ _ _ _ | setRev _ _ _ | abort _ => true
  | _ => false

theorem IsTransfer.isDownload {id : ℕ} {path : Path} {a : Action}
    (transfer : a.IsTransfer id path) :
    a.isDownload := by cases transfer <;> rfl

theorem IsVerdict.isDownload {id : ℕ} {file : SContentInfo} {a : Action}
    (verdict : a.IsVerdict id file) : a.isDownload := by cases verdict <;> rfl

theorem IsTransfer.request? {id : ℕ} {path : Path} {a : Action} (transfer : a.IsTransfer id path) :
    a.request? = none := by cases transfer <;> rfl

theorem IsVerdict.request? {id : ℕ} {file : SContentInfo} {a : Action}
    (verdict : a.IsVerdict id file) : a.request? = none := by cases verdict <;> rfl

end Action

/-- The requests of a part of the log, in the order in which they were made. -/
def requests (acts : List Action) : List (ℕ × SContentInfo) :=
  acts.reverse.filterMap Action.request?

theorem requests_append (new old : List Action) :
    requests (new ++ old) = requests old ++ requests new := by
  simp [requests]

theorem requests_eq_nil {acts : List Action} (none : ∀ a ∈ acts, a.request? = none) :
    requests acts = [] := by
  simpa [requests, List.filterMap_eq_nil_iff] using none

/-- The events of a stage that do not end it. -/
structure InStage (s : State) (e : Event) : Prop where
  stage : e.isStage
  /-- `nextDownload` finds a file. -/
  left : e = .nextDownload → s.contentFiles ≠ []

theorem InStage.iff (s : State) (e : Event) :
    InStage s e ↔ e.isStage ∧ (e = .nextDownload → s.contentFiles ≠ []) :=
  ⟨fun h => ⟨h.1, h.2⟩, fun h => ⟨h.1, h.2⟩⟩

instance (s : State) (e : Event) : Decidable (InStage s e) := decidable_of_iff' _ (InStage.iff s e)

/-- **The bookkeeping of a stage** that was entered in `s`, has come to `t` and has
done `acts`. -/
structure StageRecord (s t : State) (acts : List Action) : Prop where
  log : t.log = acts ++ s.log
  /-- No handler has met a null reply. -/
  alive : t.crashed = false
  /-- The files requested so far are a prefix of the list, the others are left. -/
  requested : (requests acts).map Prod.snd ++ t.contentFiles = s.contentFiles
  /-- The replies have numbers of their own. -/
  numbered : (requests acts).map Prod.fst = List.range' s.replies (requests acts).length
  replies : t.replies = s.replies + (requests acts).length
  revision : t.revision = s.revision
  /-- The stage is not over: `nextDownload` is scheduled or a reply outstanding. -/
  pending : Waiting t ∨ ∃ reply, Downloading t reply ∧ (reply.id, reply.file) ∈ requests acts
  /-- Bytes of a reply go to the staging path of its file. -/
  appended : ∀ id path bytes, .append id path bytes ∈ acts →
    ∃ file, (id, file) ∈ requests acts ∧ path = file.stagedPath
  /-- A verdict is about the file of the reply whose signal is handled. -/
  judged : ∀ a ∈ acts, ∀ sender file, a.IsVerdict sender file →
    ∃ file', (sender, file') ∈ requests acts ∧ SameFile file file'
  /-- Nothing but downloads has happened. -/
  downloads : ∀ a ∈ acts, a.isDownload

namespace StageRecord

variable {acts : List Action} {u : State}

theorem init (waiting : Waiting s) (alive : s.crashed = false) : StageRecord s s [] where
  log := rfl
  alive := alive
  requested := rfl
  numbered := rfl
  replies := rfl
  revision := rfl
  pending := .inl waiting
  appended := by simp
  judged := by simp
  downloads := by simp

/-- The next request. -/
theorem request (record : StageRecord s t acts) (waiting : Waiting t) {file : SContentInfo}
    {rest : List SContentInfo} (left : t.contentFiles = file :: rest) :
    StageRecord s (requestFile { t with scheduled := 0 } file rest)
      (.request t.replies file :: acts) := by
  have all : requests (.request t.replies file :: acts) = requests acts ++ [(t.replies, file)] :=
    requests_append [.request t.replies file] acts
  refine ⟨?_, record.alive, ?_, ?_, ?_, record.revision, ?_, ?_, ?_, ?_⟩
  · rw [requestFile, record.log, List.cons_append]
  · rw [all, List.map_append, List.append_assoc]
    simpa [requestFile, left] using record.requested
  · rw [all, List.map_append, record.numbered, List.length_append]
    simp [List.range'_concat, record.replies]
  · rw [all, List.length_append, requestFile, record.replies]
    rfl
  · exact .inr ⟨_, waiting.request file rest, by simp [all]⟩
  · intro id path bytes mem
    obtain ⟨file', mem', own⟩ := record.appended id path bytes (by simpa using mem)
    exact ⟨file', by simp [all, mem'], own⟩
  · rintro a (_ | ⟨_, mem⟩) sender file' verdict
    · cases verdict
    · obtain ⟨file'', mem', same⟩ := record.judged a mem sender file' verdict
      exact ⟨file'', by simp [all, mem'], same⟩
  · rintro a (_ | ⟨_, mem⟩)
    · rfl
    · exact record.downloads a mem

/-- An event of a download. -/
theorem progress (record : StageRecord s t acts) {reply : Reply}
    (mem : (reply.id, reply.file) ∈ requests acts) {new : List Action}
    (logged : u.log = new ++ t.log) (only : DownloadOnly t u)
    (progress : Progresses t u reply new e) : StageRecord s u (new ++ acts) := by
  have others : ∀ a ∈ new, a.request? = none := by
    cases progress with
    | goesOn _ _ _ transfers => exact fun a mem => (transfers a mem).request?
    | ends _ _ _ verdicts => exact fun a mem => (verdicts a mem).request?
  have all : requests (new ++ acts) = requests acts := by
    rw [requests_append, requests_eq_nil others, List.append_nil]
  have field : ∀ {α : Type} (f : State → α), f u = f { t with
      fs := u.fs, currentContentFile := u.currentContentFile, lastBytes := u.lastBytes
      currentBytes := u.currentBytes, downloadTimer := u.downloadTimer
      downloadTimeout := u.downloadTimeout, fullDownloadBytes := u.fullDownloadBytes
      currentReply := u.currentReply, scheduled := u.scheduled, posted := u.posted
      log := u.log } := fun f => congrArg f only
  refine ⟨by rw [logged, record.log, List.append_assoc], ?_, ?_, ?_, ?_, ?_, ?_, ?_, ?_, ?_⟩
  · exact (field State.crashed).trans record.alive
  · rw [all, field State.contentFiles]
    exact record.requested
  · rw [all]
    exact record.numbered
  · rw [all, field State.replies]
    exact record.replies
  · exact (field State.revision).trans record.revision
  · rw [all]
    cases progress with
    | goesOn downloading id file _ => exact .inr ⟨_, downloading, by rwa [id, file]⟩
    | ends waiting _ _ _ => exact .inl waiting
  · intro id path bytes appended
    rw [all]
    rcases List.mem_append.mp appended with now | before
    · cases progress with
      | goesOn _ _ _ transfers =>
          cases transfers _ now with
          | append => exact ⟨reply.file, mem, rfl⟩
      | ends _ _ _ verdicts => cases verdicts _ now
    · exact record.appended id path bytes before
  · intro a judged sender file verdict
    rw [all]
    rcases List.mem_append.mp judged with now | before
    · cases progress with
      | goesOn _ _ _ transfers => cases verdict <;> cases transfers _ now
      | ends _ _ same verdicts =>
          cases verdict <;> cases verdicts _ now <;> exact ⟨reply.file, mem, same⟩
    · exact record.judged a before sender file verdict
  · intro a happened
    rcases List.mem_append.mp happened with now | before
    · cases progress with
      | goesOn _ _ _ transfers => exact (transfers a now).isDownload
      | ends _ _ _ verdicts => exact (verdicts a now).isDownload
    · exact record.downloads a before

/-- **The step lemma of a stage.** -/
theorem next (record : StageRecord s t acts) (inStage : InStage t e)
    (takes : step env t e = some u) : ∃ new, StageRecord s u (new ++ acts) := by
  rcases record.pending with waiting | ⟨reply, downloading, mem⟩
  · obtain ⟨rfl, rfl⟩ := waiting.next record.alive inStage.stage takes
    obtain ⟨file, rest, left⟩ := List.exists_cons_of_ne_nil (inStage.left rfl)
    refine ⟨[.request t.replies file], ?_⟩
    rw [nextDownload_cons env { t with scheduled := 0 } left]
    exact record.request waiting left
  · obtain ⟨new, logged, only, progress⟩ := downloading.progresses record.alive inStage.stage takes
    exact ⟨new, record.progress mem logged only progress⟩

/-- The run lemma of a stage. -/
theorem run {es : List Event} (record : StageRecord s t acts)
    (run : Run (step env) InStage t es u) : ∃ acts, StageRecord s u acts := by
  have preserves : ∀ t e u, (∃ acts, StageRecord s t acts) → InStage t e →
      step env t e = some u → ∃ acts, StageRecord s u acts := by
    rintro t e u ⟨acts, record⟩ inStage takes
    obtain ⟨new, record'⟩ := record.next inStage takes
    exact ⟨new ++ acts, record'⟩
  exact run.invariant (fun t => ∃ acts, StageRecord s t acts) preserves ⟨acts, record⟩

end StageRecord

/-! ### The end of a stage -/

/-- How a stage ends: one `startContent` in the revision stage, one
commit/sync/`startTimer` block in the content stage. -/
inductive StageEnds (revision : Bool) (s t : State) : Prop
  | content (isRevision : revision = true)
      (log : t.log = .startContent :: s.log ∨ t.log = .startTimer :: .startContent :: s.log)
  | pass (isContent : revision = false) (before after : FileSystem) (commits : List Action)
      (log : t.log = .startTimer :: .syncContent before after :: commits ++ s.log)
      (once : commits = [] ∨ ∃ disk, commits = [.setRevLocal disk])

theorem Waiting.ends (waiting : Waiting s) (alive : s.crashed = false)
    (empty : s.contentFiles = []) (takes : step env s .nextDownload = some t) :
    StageEnds s.revision s t := by
  obtain ⟨-, rfl⟩ := waiting.next alive rfl takes
  rw [nextDownload_nil env { s with scheduled := 0 } empty]
  by_cases revision : s.revision = true
  · rw [if_pos revision]
    exact .content revision (startContent_log env _)
  · obtain ⟨fs, manager, before, commits, ended, once⟩ :=
      endPass_eq env { s with scheduled := 0 }
    rw [if_neg revision, ended]
    exact .pass (by simpa using revision) before fs commits rfl once

/-- A stage with one advertising file, whose download has two chunks. -/
def State.demoStage : State :=
  { State.boot .blank with
    contentFiles := [{
      dirName := str "ads"
      fileName := str "a.mp3"
      serverPath := str "ads/a.mp3"
      url := ⟨str "ftp", str "host", str "ads/a.mp3", 21, str "login", str "password"⟩
      content := ⟨.advert, Env.demo.station.boxDir (str "7"), false⟩ }]
    revision := false
    scheduled := 1
    startScheduled := false }

end MediaUpdater
