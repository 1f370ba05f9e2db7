import MediaUpdater.Download.StageStep

/-!
# Trust is sound

A download is appended to whatever lies at its staging path, so the file that becomes
trusted is the one that the server has sent only if nothing was there when the download
began.  Two places of the code see to that: `checkFile`, which removes the untrusted
files while the manifests are read, and `checkAllFiles` at the end of a pass.

While the manifests are read, though, `checkFile` looks for a music file in
`<channel>/<file>` and not in `music/<channel>/<file>`, where it is downloaded to.  The
bytes of a music file whose download was cut short are still there in the next pass,
and the next download is appended to them.

## Main results

* `Fresh`, `Intact` — the invariant: nothing lies where the files that are left will be
  downloaded to, and the staged bytes of the current file are those of its reply.
* `trusted_exact` — a file that becomes trusted holds the bytes of its reply, if nothing
  is left of a pending music file when the second stage starts.
* `trusted_exact_fails` — a process that dies in a download and is started again.
-/

namespace MediaUpdater

open Library DownloadManager FileSystem

variable {env : Env} {boxId : QString} {fs fs' : FileSystem} {s t : State} {e : Event}
variable {reply reply' : Reply}

/-! ### The bytes of the current file -/

/-- No bytes lie at `p`. -/
structure Vacant (fs : FileSystem) (p : Path) : Prop where
  bytes : (fs.read p).getD [] = []
  /-- It is no INI file. -/
  ordinary : fs.settings p = ∅

namespace Vacant

variable {p : Path} {touched : Path → Prop}

theorem of_absent (absent : fs.fileExists p = false) : Vacant fs p :=
  ⟨by rw [read_eq_none absent, Option.getD_none], settings_eq_empty absent⟩

/-- What happens elsewhere leaves it vacant. -/
theorem frame (vacant : Vacant fs p) (frame : Frame touched fs fs') (away : ¬ touched p) :
    Vacant fs' p :=
  ⟨by rw [frame.read p away, vacant.bytes], by rw [frame.settings p away, vacant.ordinary]⟩

end Vacant

/-- The staged bytes and the buffer are what the reply has delivered. -/
structure Intact (s : State) (reply : Reply) : Prop where
  gathered : Gathered [] s reply
  /-- The staged file is no INI file. -/
  ordinary : s.fs.settings reply.file.stagedPath = ∅

namespace Intact

/-- A reply that was just requested. -/
theorem request (vacant : Vacant s.fs reply.file.stagedPath)
    (fresh : reply.buffer = [] ∧ reply.delivered = []) : Intact s reply := by
  refine ⟨?_, vacant.ordinary⟩
  have gathered := Gathered.request (s := s) fresh
  rwa [vacant.bytes] at gathered

theorem transfer (intact : Intact s reply) (reliable : s.fs.Reliable) (id : reply'.id = reply.id)
    (file : reply'.file = reply.file) (transfer : Transfer s e t reply reply') :
    Intact t reply' := by
  refine ⟨intact.gathered.transfer reliable id file transfer, ?_⟩
  rw [transfer.frame.2, file]
  exact intact.ordinary

/-- When `finished` is all that is left in the queue, the staged bytes are complete. -/
theorem complete (intact : Intact s reply) (posted : s.posted = [(reply.id, .finished)])
    (present : s.fs.fileExists reply.file.stagedPath = true) :
    s.fs.read reply.file.stagedPath = some reply.delivered := by
  have bytes := intact.gathered.complete posted
  simp only [FileSystem.fileExists, intact.ordinary, AList.empty_entries, List.isEmpty_nil,
    Bool.not_true, Bool.or_false] at present
  obtain ⟨content, there⟩ := Option.isSome_iff_exists.mp present
  rw [there] at bytes ⊢
  exact congrArg some bytes

end Intact

/-! ### The invariant -/

/-- The invariant of the second stage. -/
structure Clean (env : Env) (s : State) : Prop where
  reliable : s.fs.Reliable
  planned : Planned env s.contentManager.loginInfo.boxId s.stageFiles
  /-- No bytes lie where the files that are left will be downloaded to. -/
  vacant : ∀ file ∈ s.remaining, Vacant s.fs file.path
  intact : ∀ reply, s.currentReply = some reply → Intact s reply

/-- **The step lemma of the second stage.** -/
theorem Clean.next (clean : Clean env s) (passing : Passing s) (passing' : Passing t)
    (second : s.revision = false) (steps : StageStep env s e t) : Clean env t := by
  have planned : Planned env t.contentManager.loginInfo.boxId t.stageFiles := by
    rw [steps.manager_eq.2]
    exact clean.planned.sublist (steps.stageFiles_sublist passing passing')
  -- the file that is downloaded is the first of the stage
  have current (reply : Reply) (replying : s.currentReply = some reply) :
      Planned env s.contentManager.loginInfo.boxId (reply.file.stageFile :: s.remaining) := by
    have files := clean.planned
    rwa [State.stageFiles, replying] at files
  cases steps with
  | aside only queue =>
      obtain ⟨fs, replying, posted⟩ : t.fs = s.fs ∧ t.currentReply = s.currentReply ∧
          t.posted = s.posted := by
        rw [only.rest]
        exact ⟨rfl, rfl, rfl⟩
      refine ⟨fs ▸ clean.reliable, planned, fun file mem => ?_, fun reply some => ?_⟩
      · rw [fs]
        exact clean.vacant file ((only.remaining_sublist queue).subset mem)
      · obtain ⟨⟨bytes, announced⟩, ordinary⟩ := clean.intact reply (replying ▸ some)
        exact ⟨⟨by rw [fs, bytes], by rwa [posted]⟩, by rw [fs, ordinary]⟩
  | asks sizing advances =>
      refine ⟨advances.fs ▸ clean.reliable, planned, fun file mem => ?_, fun reply some => ?_⟩
      · rw [advances.fs]
        exact clean.vacant file ((advances.remaining_sublist passing sizing).subset mem)
      · rw [advances.replying passing'] at some
        cases some
  | @requests file rest waiting left state =>
      subst state
      have split := passing.remaining_cons waiting left passing'
      refine ⟨clean.reliable, planned, fun other mem => ?_, fun reply some => ?_⟩
      · exact clean.vacant other (split ▸ List.mem_cons_of_mem _ mem)
      · obtain rfl := Option.some.inj some
        have free : Vacant s.fs file.stagedPath :=
          clean.vacant file.stageFile (split ▸ List.mem_cons_self)
        exact .request free ⟨rfl, rfl⟩
  | transfers downloading downloading' file only transfer log id =>
      have remaining := only.remaining_eq passing passing' downloading
        (.inr (by simp [downloading'.replying]))
      refine ⟨transfer.frame.1.reliable clean.reliable, planned, fun other mem => ?_,
        fun reply some => ?_⟩
      · rw [remaining] at mem
        exact (clean.vacant other mem).frame transfer.frame.1
          ((current _ downloading.replying).path_ne mem)
      · obtain rfl := Option.some.inj (downloading'.replying.symm.trans some)
        exact (clean.intact _ downloading.replying).transfer clean.reliable id file transfer
  | judges downloading waiting event posted only same judged =>
      have remaining := only.remaining_eq passing passing' downloading
        (.inl (by simp [waiting.scheduled]))
      have frame : Frame (· = env.station.checkstorage s.contentManager.loginInfo.boxId) s.fs
        t.fs := by
        cases judged with
        | revision first => simp [second] at first
        | content _ n fs =>
            rw [fs]
            exact iterate_setTrust_frame _ n
      refine ⟨frame.reliable clean.reliable, planned, fun other mem => ?_, fun reply some => ?_⟩
      · rw [remaining] at mem
        exact (clean.vacant other mem).frame frame
          ((current _ downloading.replying).path_ne_checkstorage
          (List.mem_cons_of_mem _ mem))
      · rw [waiting.replying] at some
        cases some

/-! ### The start of the second stage -/

/-- Sweeping leaves a vacant place vacant. -/
theorem Swept.vacant {entries : List Entry} {p : Path} (swept : Swept env boxId entries fs fs')
    (reliable : fs.Reliable) (apart : p ≠ env.station.checkstorage boxId) (vacant : Vacant fs p) :
    Vacant fs' p := by
  by_cases touched : ∃ e ∈ entries, CheckDownloadedContent.trust env boxId fs e = false ∧
      p = pairPath (env.station.boxDir boxId) .revision e
  · obtain ⟨e, mem, untrusted, rfl⟩ := touched
    exact .of_absent (swept.gone reliable e mem untrusted)
  · exact vacant.frame swept.frame (not_or.mpr ⟨apart, touched⟩)

/-- What the second stage relies on: the calls succeed, the manifests name pairs, and
nothing is left of a music file that is pending. -/
structure StartsTidy (env : Env) (boxId : QString) (fs : FileSystem) : Prop where
  reliable : fs.Reliable
  pairs : ∀ type, type ≠ .revision → ∀ e ∈ stagedEntries env boxId fs type, IsPair type e
  vacant : ∀ e ∈ pendingEntries env boxId fs .music,
    Vacant fs (pairPath (env.station.boxDir boxId) .music e)

/-- **The second stage starts clean.** -/
theorem clean_startContent (idle : s.currentReply = none)
    (tidy : StartsTidy env s.contentManager.loginInfo.boxId s.fs) :
    Clean env (startContent env s) := by
  obtain ⟨reliable, pairs, vacant⟩ := tidy
  obtain ⟨queue, adverts, tracks⟩ :=
    s.contentManager.queueOf_stage reliable.readable.manifestsOpen pairs
  generalize first : s.contentManager.clear.addNetworkContent env s.fs .advert = swept
    at queue adverts tracks
  generalize second : swept.1.addNetworkContent env swept.2 .music = made at queue tracks
  have reliable' := adverts.frame.reliable reliable
  obtain ⟨disk, reply, -, login, remaining⟩ := startContent_stage env s
  simp only [first, second] at disk login remaining
  refine ⟨?_, ?_, fun file mem => ?_, fun current some => ?_⟩
  · rw [disk]
    exact tracks.frame.reliable reliable'
  · rw [login, queue.box]
    exact planned_startContent idle pairs
  · obtain ⟨info, inQueue, rfl⟩ := List.mem_map.mp (remaining.subset mem)
    obtain ⟨type, among, pending, content⟩ := queue.queued info inQueue
    obtain ⟨listed, isPending⟩ := List.mem_filter.mp pending
    have media : type ≠ .revision := by
      rintro rfl
      simp at among
    have pair := pairs type media _ listed
    have place : info.stageFile.path =
        pairPath (env.station.boxDir s.contentManager.loginInfo.boxId) type info.toEntry := by
      show info.content.filePath info.toEntry = _
      rw [content, filePath_networkRef media pair]
    have apart : pairPath (env.station.boxDir s.contentManager.loginInfo.boxId) type info.toEntry ≠
        env.station.checkstorage s.contentManager.loginInfo.boxId :=
      pairPath_ne_checkstorage env.station (.inl rfl)
    rw [disk, place]
    refine tracks.vacant reliable' apart ?_
    cases type with
    | music => exact adverts.vacant reliable apart (vacant _ pending)
    | advert =>
        -- `checkFile` looks for an advertising file where it is downloaded to
        have untrusted : CheckDownloadedContent.trust env s.contentManager.loginInfo.boxId s.fs
            info.toEntry = false := by
          cases trusted :
            CheckDownloadedContent.trust env s.contentManager.loginInfo.boxId s.fs info.toEntry
          · rfl
          · simp [MediaUpdater.isPending, trusted] at isPending
        have gone := adverts.gone reliable _ listed untrusted
        rw [pairPath, pair.advert rfl] at gone
        exact .of_absent gone
    | revision => exact absurd rfl media
  · rw [reply, idle] at some
    cases some

/-! ### Whole runs -/

/-- The events of a run whose FTP server is orderly and whose second stages start tidy. -/
structure Tidy (env : Env) (s : State) (e : Event) : Prop where
  orderly : Orderly s e
  starts : StartsContent s e → StartsTidy env s.contentManager.loginInfo.boxId s.fs

/-- Outside the second stage nothing is claimed. -/
def CleanStage (env : Env) (s : State) : Prop :=
  s.phase ≠ .stopped → s.revision = false → Clean env s

/-- **The step lemma.** -/
theorem CleanStage.next (clean : CleanStage env s) (passing : Passing s) (passing' : Passing t)
    (tidy : Tidy env s e) (passes : PassStep env s e t) : CleanStage env t := by
  intro going content
  rcases passes.stage_cases going with ⟨info, -, rfl⟩ | ⟨waiting, starts, rfl⟩ | ⟨one, steps⟩
  · rw [start_revision] at content
    cases content
  · exact clean_startContent (passing.phase.replying (by simp [waiting])) (tidy.starts starts)
  · have second : s.revision = false := one.revision ▸ content
    exact (clean one.before second).next passing passing' second steps

/-- In every state of a tidy run the second stage is clean. -/
theorem cleanStage_reachable (reached : Reachable (step env) (Tidy env) Initial s) :
    Passing s ∧ CleanStage env s := by
  refine pass_invariant (fun _ _ tidy => tidy.orderly) (CleanStage env) (fun fs going => ?_)
    (fun s e t passing passing' clean tidy _ passes => clean.next passing passing' tidy passes)
      reached
  exact absurd (phase_boot fs) going

/-- **Trust is sound.**  In every run whose FTP server is orderly, and whose second stages
start with manifests of pairs and with no bytes left of a pending music file, a file becomes
trusted only while the reply that was requested for it is handled, and the staged file then
holds exactly the bytes of this reply. -/
theorem trusted_exact (reached : Reachable (step env) (Tidy env) Initial s) (tidy : Tidy env s e)
    (takes : step env s e = some t) {sender : ℕ} {file : SContentInfo}
    {staged delivered : Option QByteArray}
    (emitted : Emits s t (.setTrust sender file staged delivered)) :
    ∃ reply, s.currentReply = some reply ∧ sender = reply.id ∧ SameFile file reply.file ∧
      staged = some reply.delivered ∧ delivered = some reply.delivered ∧
      t.fs.read file.stagedPath = some reply.delivered := by
  obtain ⟨passing, clean⟩ := cleanStage_reachable reached
  obtain ⟨passes, -⟩ := pass_step passing tidy.orderly takes
  obtain ⟨reply, file', downloading, posted, same, judged⟩ := passes.judges_of_emits emitted rfl
  cases judged with
  | revision _ status _ _ log =>
      have mem := mem_of_emits [.setRev reply.id file' status] log emitted
      simp at mem
  | content stage n fs log present =>
      have mem := mem_of_emits _ log emitted
      obtain ⟨some, is⟩ := List.mem_replicate.mp mem
      obtain ⟨rfl, rfl, rfl, rfl⟩ : sender = reply.id ∧ file = file' ∧
          staged = s.fs.read file'.stagedPath ∧ delivered = Option.some reply.delivered := by
        simpa using is
      have going : s.phase ≠ .stopped := by
        intro stopped
        have none := (passing.resting stopped).replying
        rw [downloading.replying] at none
        cases none
      have exact_ : s.fs.read reply.file.stagedPath = Option.some reply.delivered :=
        ((clean going stage).intact reply downloading.replying).complete posted
          (same.stagedPath ▸ present some)
      rw [← same.stagedPath] at exact_
      refine ⟨reply, downloading.replying, rfl, same, exact_, rfl, ?_⟩
      rw [fs, read_iterate_setTrust, exact_]

/-! ### A music file in one pass, and in two -/

/-- A file of the second stage becomes trusted at the end of a good download. -/
theorem emits_setTrust {file : SContentInfo} (alive : s.crashed = false)
    (posted : s.posted = [(reply.id, .finished)]) (current : s.currentContentFile = some file)
    (replying : s.currentReply = some reply) (stage : s.revision = false)
    (good : (s.fs.fileExists file.stagedPath && !s.downloadTimeout && !reply.error) = true) :
    ∃ t, step env s .deliver = some t ∧
      Emits s t (.setTrust reply.id file (s.fs.read file.stagedPath) (some reply.delivered)) := by
  refine ⟨downloadFinished env { s with posted := [] } reply.id, ?_, ?_⟩
  · rw [step_eq_react alive]
    simp only [react, posted]
    rfl
  · obtain ⟨-, judged⟩ : _ ∧ Judged env { s with posted := [] } _ reply file :=
      judged_downloadFinished current replying
    cases judged with
    | revision other => simp [stage] at other
    | content _ n fs log present ok => exact ⟨_, log, List.mem_replicate.mpr ⟨ok good, rfl⟩⟩

/-- A pass whose music manifest lists one file, up to its second stage. -/
def toSecondStage : List Event :=
  [.updateStart true, .accountReady (some .demo), .ftpState .loggedIn, .ftpDone none, .ftpDone none,
    .ftpDone (some .noSuchFile), .ftpList ⟨true, true, 19⟩, .ftpDone none,
    .ftpDone (some .noSuchFile), .ftpDone (some .noSuchFile), .ftpDone (some .noSuchFile),
    .nextDownload, .netData (ascii "rock=ftp/rock/a.mp3"), .deliver, .netFinished, .deliver]

/-- The second stage, from the login on, up to the download of the file. -/
def toTrack : List Event :=
  [.ftpState .loggedIn, .ftpDone none, .ftpDone none, .ftpList ⟨true, true, 3⟩, .nextDownload]

/-- The state in which the download of `file` is about to end well. -/
def State.finishing (s : State) (staged delivered : QByteArray) : Prop :=
  (s.crashed = false ∧ s.revision = false ∧ s.downloadTimeout = false) ∧
    (∃ reply ∈ s.currentReply, s.posted = [(reply.id, .finished)] ∧ reply.error = false ∧
      reply.delivered = delivered) ∧
    ∃ file ∈ s.currentContentFile, s.fs.read file.stagedPath = some staged

instance (s : State) (staged delivered : QByteArray) : Decidable (s.finishing staged delivered) :=
  inferInstanceAs (Decidable (_ ∧ _ ∧ _))

/-- Such a download ends with trust. -/
theorem State.finishing.emits {staged delivered : QByteArray}
    (finishing : s.finishing staged delivered) :
    ∃ t sender file, step env s .deliver = some t ∧
      Emits s t (.setTrust sender file (some staged) (some delivered)) := by
  obtain ⟨⟨alive, stage, inTime⟩, ⟨reply, replying, posted, noError, rfl⟩, file, current,
    content⟩ := finishing
  have present : s.fs.fileExists file.stagedPath = true := fileExists_of_read content
  obtain ⟨t, takes, emitted⟩ := @emits_setTrust env s reply file alive posted current replying stage
    (by simp [present, inTime, noError])
  exact ⟨t, reply.id, file, takes, content ▸ emitted⟩

/-- Events that do not start a second stage. -/
def Within (s : State) (e : Event) : Prop := Orderly s e ∧ ¬ StartsContent s e

instance (s : State) (e : Event) : Decidable (Within s e) := inferInstanceAs (Decidable (_ ∧ _))

theorem Within.tidy (within : Within s e) : Tidy env s e :=
  ⟨within.1, fun starts => absurd starts within.2⟩

/-- The file becomes trusted in one pass. -/
theorem trusted_exact_demo :
    ∃ s t reply file, Reachable (step .demo) (Tidy .demo) Initial s ∧
    step .demo s .deliver = some t ∧
      s.currentReply = some reply ∧ reply.delivered = [1, 2, 3] ∧
      t.fs.read (SContentInfo.stagedPath file) = some reply.delivered := by
  have plays : (execute (step .demo) Within (State.boot .blank) toSecondStage).map
      (fun s => decide ((s.crashed = false ∧ s.scheduled = 1 ∧ s.contentManager.loginInfo = .demo) ∧
        ((∀ e ∈ stagedEntries .demo (str "7") s.fs .music, IsPair .music e) ∧
          ∀ e ∈ stagedEntries .demo (str "7") s.fs .advert, IsPair .advert e) ∧
        (∀ e ∈ pendingEntries .demo (str "7") s.fs .music,
          s.fs.fileExists (pairPath (Env.demo.station.boxDir (str "7")) .music e) = false) ∧
        (execute (step .demo) Within (nextDownload .demo { s with scheduled := 0 })
          (toTrack ++ [.netData [1, 2, 3], .deliver, .netFinished])).any
            fun s => decide (s.finishing [1, 2, 3] [1, 2, 3]))) = some true := by
    decide
  have reliable : (execute (step .demo) Within (State.boot .blank) toSecondStage).map
      (fun s => s.fs.outcomes) = some .success := rfl
  obtain ⟨s, played, facts⟩ := Option.map_eq_some_iff.mp plays
  obtain ⟨⟨alive, scheduled, login⟩, ⟨tracks, adverts⟩, vacant, goesOn⟩ := of_decide_eq_true facts
  rw [played, Option.map_some, Option.some.injEq] at reliable
  -- the second stage starts tidy
  have starts : Tidy .demo s .nextDownload := by
    refine ⟨trivial, fun _ => ?_⟩
    rw [login]
    refine ⟨reliable, fun type media => ?_, fun e mem => .of_absent (vacant e mem)⟩
    cases type with
    | music => exact tracks
    | advert => exact adverts
    | revision => exact absurd rfl media
  have takes : step .demo s .nextDownload = some (nextDownload .demo { s with scheduled := 0 }) :=
    step_nextDownload alive scheduled
  obtain ⟨u, played', finishing⟩ := (Option.any_eq_true _ _).mp goesOn
  have before : Reachable (step .demo) (Tidy .demo) Initial s :=
    ⟨_, _, ⟨_, rfl⟩, (Run.of_execute played).mono fun _ _ within => within.tidy⟩
  have reached : Reachable (step .demo) (Tidy .demo) Initial u :=
    (before.next starts takes).run ((Run.of_execute played').mono fun _ _ within => within.tidy)
  have last : Tidy .demo u .deliver := ⟨trivial, fun starts => by cases starts.1⟩
  obtain ⟨t, sender, file, ends, emitted⟩ := (of_decide_eq_true finishing).emits
  obtain ⟨reply, replying, -, -, -, delivered, content⟩ := trusted_exact reached last ends emitted
  exact ⟨u, t, reply, file, reached, ends, replying, (Option.some.inj delivered).symm, content⟩

/-- The process dies when two of the three bytes have been saved; the next pass appends all
three to them. -/
theorem trusted_exact_fails :
    ∃ s t sender file staged delivered,
      Reachable (step .demo) Orderly (fun s => s = State.boot .blank) s ∧
        step .demo s .deliver = some t ∧ Emits s t (.setTrust sender file staged delivered) ∧
        staged ≠ delivered := by
  have plays : (execute (step .demo) Orderly (State.boot .blank)
      (toSecondStage ++ .nextDownload :: toTrack ++ [.netData [1, 2], .deliver, .restart] ++
        toSecondStage ++ .nextDownload :: toTrack ++
          [.netData [1, 2, 3], .deliver, .netFinished])).map
        (fun s => decide (s.finishing [1, 2, 1, 2, 3] [1, 2, 3])) = some true := by
    decide
  obtain ⟨s, played, finishing⟩ := Option.map_eq_some_iff.mp plays
  obtain ⟨t, sender, file, takes, emitted⟩ := (of_decide_eq_true finishing).emits
  exact ⟨s, t, sender, file, _, _, ⟨_, _, rfl, .of_execute played⟩, takes, emitted, by decide⟩

end MediaUpdater
