import MediaUpdater.Content.Mirror
import MediaUpdater.Download.Commit
import MediaUpdater.Download.Removal
import MediaUpdater.Download.Trust

/-!
# A pass mirrors the server

The second stage of a pass downloads the pending files of both manifests; the end of the
pass commits the revision when all of them are trusted, and syncs in any case.  When the
server is honest — a download that counts as complete has delivered the bytes at the address
of the file — the installed tree is afterwards a function of the manifests, the server and
the disk that the stage has started with.

Before and in the stage the events are `Orderly`, so that one chain of downloads runs; nothing
else is assumed about what happened before the stage, or about the order of the events in it.
What the disk has to be when the stage starts is `Mirrorable`.

## Main results

* `Mirroring.next` — what one event of the second stage does to the mirror.
* `pass_mirrors` — the end of a pass, and a commit.
-/

namespace MediaUpdater

open Library DownloadManager FileSystem CheckDownloadedContent

variable {env : Env} {login : LoginInfo} {s t u v : State} {e : Event} {type : ContentType}
variable {manifests : ContentType → QByteArray} {server : QUrl → Option QByteArray}
variable {fs₀ fs : FileSystem} {entry : Entry} {content : ContentRef}

/-! ### The addresses of the files -/

/-- The file is requested from the address of its content type and its name. -/
def AtAddress (login : LoginInfo) (info : SContentInfo) : Prop :=
  info.url = mediaUrl login info.content.contentType info.toEntry

/-- The files of the stage are requested from their addresses. -/
structure Addressed (s : State) : Prop where
  queue : ∀ file ∈ s.contentFiles, AtAddress s.contentManager.loginInfo file
  asking : s.phase = .sizing → ∀ file ∈ s.asked.toList ++ s.ftpContentFiles,
    AtAddress s.contentManager.loginInfo file
  reply : ∀ reply, s.currentReply = some reply → AtAddress s.contentManager.loginInfo reply.file

theorem Addressed.next (addressed : Addressed s) (passing : Passing s) (passing' : Passing t)
    (steps : StageStep env s e t) : Addressed t := by
  have login := steps.manager_eq.2
  -- a stage that downloads does not ask
  have busy (busy : t.scheduled ≠ 0 ∨ t.currentReply ≠ none) (sizing : t.phase = .sizing) : False :=
    passing'.phase.not_sizing busy sizing
  cases steps with
  | aside only queue =>
      obtain ⟨files, left, reply⟩ : t.contentFiles = s.contentFiles ∧
          t.ftpContentFiles = s.ftpContentFiles ∧ t.currentReply = s.currentReply := by
        rw [only.rest]
        exact ⟨rfl, rfl, rfl⟩
      refine ⟨by rw [login, files]; exact addressed.queue, fun sizing file mem => ?_,
        by rw [login, reply]; exact addressed.reply⟩
      rw [only.phase_eq] at sizing
      rw [login]
      refine addressed.asking sizing file ?_
      rw [left] at mem
      refine (List.mem_append.mp mem).elim (fun asked => List.mem_append_left _ ?_)
        (List.mem_append_right _)
      have pending : t.ftp.pending ≠ [] := by
        rintro empty
        simp [State.asked, empty] at asked
      rwa [← asked_eq queue pending]
  | asks sizing advances =>
      have files := addressed.asking sizing
      refine ⟨fun file mem => ?_, fun still file mem => ?_, fun reply some => ?_⟩
      · rw [login]
        rw [advances.queue] at mem
        rcases List.mem_append.mp mem with before | collected
        · exact addressed.queue file before
        · cases advances.cause with
          | line info pending =>
              obtain ⟨asked, is, current⟩ := passing.asked sizing _
                (by rw [pending]; exact List.mem_cons_self) rfl
              rw [collectedBy, current] at collected
              split at collected
              · obtain rfl : file = asked.setSize info.size := by simpa using collected
                exact files asked (List.mem_append_left _ (by simp [is]))
              · cases collected
          | login | failure => cases collected
      · rcases advances.next with ⟨waiting, -⟩ | ⟨-, skipped, next, split, -, asked, -⟩
        · rw [still] at waiting
          cases waiting
        · rw [login]
          refine files file (List.mem_append_right _ ?_)
          rw [split]
          rw [asked] at mem
          exact List.mem_append_right skipped (by simpa using mem)
      · rw [advances.replying passing'] at some
        cases some
  | @requests file rest waiting left state =>
      subst state
      have queue := addressed.queue
      rw [left] at queue
      refine ⟨fun other mem => queue other (List.mem_cons_of_mem file mem), fun sizing => ?_,
        fun reply some => ?_⟩
      · exact (busy (.inr (by simp [requestFile])) sizing).elim
      · obtain rfl := Option.some.inj some
        exact queue file List.mem_cons_self
  | transfers downloading downloading' file only =>
      have files : t.contentFiles = s.contentFiles := by rw [only]
      refine ⟨by rw [login, files]; exact addressed.queue, fun sizing => ?_, fun reply some => ?_⟩
      · exact (busy (.inr (by simp [downloading'.replying])) sizing).elim
      · obtain rfl := Option.some.inj (downloading'.replying.symm.trans some)
        rw [login, file]
        exact addressed.reply _ downloading.replying
  | judges downloading waiting event posted only =>
      have files : t.contentFiles = s.contentFiles := by rw [only]
      refine ⟨by rw [login, files]; exact addressed.queue, fun sizing => ?_, fun reply some => ?_⟩
      · exact (busy (.inl (by simp [waiting.scheduled])) sizing).elim
      · rw [waiting.replying] at some
        cases some

/-- The server is honest: a download of the second stage that counts as complete has delivered
the bytes at the address of the file. -/
def Honest (server : QUrl → Option QByteArray) (s : State) (e : Event) : Prop :=
  s.revision = false → e = .deliver → ∀ reply ∈ s.currentReply, s.posted = [(reply.id, .finished)] →
    (!s.downloadTimeout && !reply.error || s.fullDownloadBytes) = true →
      server reply.file.url = some reply.delivered

instance (server : QUrl → Option QByteArray) (s : State) (e : Event) :
    Decidable (Honest server s e) :=
  inferInstanceAs (Decidable (_ → _ → ∀ reply ∈ s.currentReply, _ → _ → _))

/-- The events of a stage that goes on, with an honest server. -/
structure Serving (server : QUrl → Option QByteArray) (s : State) (e : Event) : Prop where
  orderly : Orderly s e
  running : s.phase ≠ .stopped
  honest : Honest server s e

/-- A download that does not count as complete leaves the disk alone. -/
theorem downloadFinished_rejects {reply : Reply} {file : SContentInfo}
    (current : s.currentContentFile = some file) (replying : s.currentReply = some reply)
    (second : s.revision = false)
    (rejected : (!s.downloadTimeout && !reply.error || s.fullDownloadBytes) = false) :
    (downloadFinished env s reply.id).fs = s.fs := by
  obtain ⟨failed, notFull⟩ := Bool.or_eq_false_iff.mp rejected
  have bad : (s.fs.fileExists file.stagedPath && !s.downloadTimeout && !reply.error) = false := by
    rw [Bool.and_assoc, failed, Bool.and_false]
  rw [downloadFinished_verdict env s reply.id current replying, bad]
  simp [verdict, second, notFull, scheduleNextDownload]

/-- Setting trust again changes nothing. -/
theorem trust_iterate_setTrust {boxId : QString} {file x : Entry} (n : ℕ) :
    trust env boxId ((fun fs => CheckDownloadedContent.setTrust env boxId fs file)^[n + 1] fs) x =
      (decide (storageKey x = storageKey file) || trust env boxId fs x) := by
  induction n with
  | zero => rw [Function.iterate_one, trust_setTrust]
  | succ n ih =>
      rw [Function.iterate_succ_apply', trust_setTrust, ih, ← Bool.or_assoc, Bool.or_self]

/-- **Only the end of a complete download changes what is trusted**, and then for its file. -/
theorem StageStep.trust_cases (steps : StageStep env s e t) (second : s.revision = false)
    (passing : Passing s) (passing' : Passing t) (takes : step env s e = some t) :
    (∀ x, trust env s.contentManager.loginInfo.boxId t.fs x =
        trust env s.contentManager.loginInfo.boxId s.fs x) ∨
      ∃ reply, s.currentReply = some reply ∧ t.stageFiles = s.remaining ∧ e = .deliver ∧
        s.posted = [(reply.id, .finished)] ∧
        (!s.downloadTimeout && !reply.error || s.fullDownloadBytes) = true ∧
        s.fs.fileExists reply.file.stagedPath = true ∧ (∀ p, t.fs.read p = s.fs.read p) ∧
        ∀ x, trust env s.contentManager.loginInfo.boxId t.fs x =
          (decide (storageKey x = storageKey reply.file.toEntry) ||
            trust env s.contentManager.loginInfo.boxId s.fs x) := by
  cases steps with
  | aside only =>
      have disk : t.fs = s.fs := by rw [only.rest]
      exact .inl fun x => by rw [disk]
  | asks _ advances => exact .inl fun x => by rw [advances.fs]
  | requests _ _ state =>
      subst state
      exact .inl fun x => rfl
  | transfers _ _ _ _ transfer =>
      refine .inl fun x => ?_
      rw [trust, FileSystem.settingsValue, transfer.frame.2]
      rfl
  | @judges reply file downloading waiting event posted only same judged =>
      cases judged with
      | revision first => simp [second] at first
      | content _ n fs _ present =>
          cases n with
          | zero => exact .inl fun x => by rw [fs, Function.iterate_zero_apply]
          | succ n =>
              cases accepted : (!s.downloadTimeout && !reply.error || s.fullDownloadBytes) with
              | false =>
                  -- the disk is the same, although trust was set
                  obtain ⟨current, some, -⟩ := downloading.current
                  have ended : t = downloadFinished env { s with posted := [] } reply.id := by
                    rw [step_eq_react passing.alive, event] at takes
                    simp only [react, posted] at takes
                    exact (Option.some.inj takes).symm
                  refine .inl fun x => ?_
                  rw [ended]
                  have rejects : (downloadFinished env { s with posted := [] } reply.id).fs =
                    s.fs :=
                    downloadFinished_rejects some downloading.replying second accepted
                  rw [rejects]
              | true =>
                  have left : t.remaining = s.remaining :=
                    only.remaining_eq passing passing' downloading
                      (.inl (by simp [waiting.scheduled]))
                  have stage : t.stageFiles = s.remaining := by
                    rw [State.stageFiles, waiting.replying, left]
                    rfl
                  refine .inr ⟨reply, downloading.replying, stage, event, posted, accepted,
                    same.stagedPath ▸ present n.succ_ne_zero, fun p => ?_, fun x => ?_⟩
                  · rw [fs, read_iterate_setTrust]
                  · rw [fs, same.toEntry, trust_iterate_setTrust]

/-! ### The second stage -/

/-- The file is one of the pending ones. -/
structure Wanted (env : Env) (boxId : QString) (fs₀ : FileSystem) (entry : Entry)
    (content : ContentRef)
    (type : ContentType) : Prop where
  media : type ≠ .revision
  pending : entry ∈ pendingEntries env boxId fs₀ type
  content : content = networkRef env boxId type

/-- The staging path of a wanted file. -/
theorem Wanted.filePath (wanted : Wanted env login.boxId fs₀ entry content type)
    (ready : Mirrorable env login.boxId manifests fs₀) :
    content.filePath entry = pairPath (env.station.boxDir login.boxId) type entry := by
  rw [wanted.content, filePath_networkRef wanted.media
    (ready.isPair_of_pending wanted.media wanted.pending)]

/-- **The invariant of the second stage**, which started on the disk `fs₀`. -/
structure Mirroring (env : Env) (login : LoginInfo) (manifests : ContentType → QByteArray)
    (server : QUrl → Option QByteArray) (fs₀ : FileSystem) (s : State) : Prop where
  logged : s.contentManager.loginInfo = login
  second : s.revision = false
  clean : Clean env s
  addressed : Addressed s
  /-- What is left to download was pending, and is not trusted yet. -/
  left : ∀ file ∈ s.stageFiles, (∃ type, Wanted env login.boxId fs₀ file.entry file.content type) ∧
    trust env login.boxId s.fs file.entry = false
  queue : ∀ info ∈ s.contentManager.contentFiles, ∃ type,
      Wanted env login.boxId fs₀ info.toEntry info.content type
  covers : ∀ type, type ≠ .revision → ∀ x ∈ pendingEntries env login.boxId fs₀ type,
    ∃ info ∈ s.contentManager.contentFiles, info.toEntry = x
  progress : Progress env login manifests server fs₀ s.fs

/-- The file of a reply is one of those that are left. -/
theorem State.stageFile_mem {reply : Reply} (replying : s.currentReply = some reply) :
    reply.file.stageFile ∈ s.stageFiles := by
  rw [State.stageFiles, replying]
  exact List.mem_cons_self

namespace Mirroring

variable (mirroring : Mirroring env login manifests server fs₀ s)

include mirroring

/-- The second stage touches open paths only. -/
theorem frame (ready : Mirrorable env login.boxId manifests fs₀) (steps : StageStep env s e t) :
    Frame (Open env login.boxId fs₀ s.fs) s.fs t.fs := by
  refine (steps.frame mirroring.second).mono fun p touched => ?_
  rw [mirroring.logged] at touched
  rcases touched with same | ⟨file, mem, same⟩
  · exact .inl same
  · obtain ⟨⟨type, wanted⟩, untrusted⟩ := mirroring.left file mem
    exact .inr (.inr ⟨type, file.entry, wanted.media, wanted.pending, untrusted,
      same.trans (wanted.filePath ready)⟩)

/-- **A complete download earns trust for its file**, and for no other that is left. -/
theorem earns {reply : Reply} (ready : Mirrorable env login.boxId manifests fs₀)
    (honest : Honest server s .deliver) (replying : s.currentReply = some reply)
    (posted : s.posted = [(reply.id, .finished)])
    (accepted : (!s.downloadTimeout && !reply.error || s.fullDownloadBytes) = true)
    (present : s.fs.fileExists reply.file.stagedPath = true) :
    ∃ type, Earned env login server fs₀ s.fs type reply.file.toEntry := by
  obtain ⟨⟨type, wanted⟩, -⟩ := mirroring.left _ (State.stageFile_mem replying)
  have bytes := (mirroring.clean.intact reply replying).complete posted present
  have address := mirroring.addressed.reply reply replying
  have served := honest mirroring.second rfl reply replying posted accepted
  have content : reply.file.content.contentType = type := by
    rw [show reply.file.content = networkRef env login.boxId type from wanted.content]
    rfl
  rw [AtAddress, mirroring.logged, content] at address
  rw [address] at served
  refine ⟨type, wanted.media, wanted.pending, reply.delivered, served, ?_⟩
  rw [← bytes]
  exact congrArg _ (wanted.filePath ready).symm

/-- **The step lemma.** -/
theorem next (ready : Mirrorable env login.boxId manifests fs₀) (passing : Passing s)
    (passing' : Passing t)
    (honest : Honest server s e) (takes : step env s e = some t) (one : OneStage s t)
    (steps : StageStep env s e t) : Mirroring env login manifests server fs₀ t := by
  have second := mirroring.second
  have logged : t.contentManager.loginInfo = login := steps.manager_eq.2.trans mirroring.logged
  have cases := steps.trust_cases second passing passing' takes
  rw [mirroring.logged] at cases
  have mono (x : Entry) (trusted : trust env login.boxId s.fs x = true) :
    trust env login.boxId t.fs x = true := by
    rcases cases with same | ⟨reply, -, -, -, -, -, -, -, trusts⟩
    · rw [same, trusted]
    · rw [trusts, trusted, Bool.or_true]
  refine ⟨logged, one.revision.trans second, mirroring.clean.next passing passing' second steps,
    mirroring.addressed.next passing passing' steps, fun file mem => ?_, ?_, ?_, ?_⟩
  · have less := steps.stageFiles_sublist passing passing'
    obtain ⟨wanted, untrusted⟩ := mirroring.left file (less.subset mem)
    refine ⟨wanted, ?_⟩
    rcases cases with same | ⟨reply, replying, rest, -, -, -, -, -, trusts⟩
    · rw [same, untrusted]
    · -- the file that becomes trusted leaves the stage, and no other has its name
      rw [trusts, untrusted, Bool.or_false, decide_eq_false_iff_not]
      intro same
      have planned := mirroring.clean.planned
      rw [State.stageFiles, replying] at planned
      obtain ⟨_, -, pair, -⟩ := planned.staged _ List.mem_cons_self
      rw [rest] at mem
      obtain ⟨_, -, pair', -⟩ := planned.staged file (List.mem_cons_of_mem _ mem)
      have names := planned.names
      rw [Option.map_some, Option.toList_some, List.singleton_append, List.map_cons,
        List.nodup_cons] at names
      refine names.1 (List.mem_map.mpr ⟨file, mem, ?_⟩)
      rw [storageKey_inj pair'.dir pair.dir same]
  · rw [steps.contentFiles_eq]
    exact mirroring.queue
  · rw [steps.contentFiles_eq]
    exact mirroring.covers
  · refine mirroring.progress.next ready (mirroring.frame ready steps) mono fun x plain trusted =>
      ?_
    rcases cases with same | ⟨reply, replying, -, rfl, posted, accepted, present, kept, trusts⟩
    · rw [same] at trusted
      exact .inl trusted
    · rw [trusts, Bool.or_eq_true, decide_eq_true_eq] at trusted
      refine trusted.symm.imp_right fun same => ?_
      obtain ⟨type, earned⟩ := mirroring.earns ready honest replying posted accepted present
      obtain rfl :=
        storageKey_inj plain (ready.isPair_of_pending earned.media earned.pending).dir same
      obtain ⟨media, pending, bytes, at_, read⟩ := earned
      exact ⟨type, media, pending, bytes, at_, (kept _).trans read⟩

end Mirroring

/-- In a stage that goes on the mirror is kept. -/
theorem Mirroring.run {es : List Event} (mirroring : Mirroring env login manifests server fs₀ v)
    (ready : Mirrorable env login.boxId manifests fs₀) (passing : Passing v)
    (run : Run (step env) (Serving server) v es s) :
    Passing s ∧ (s.phase ≠ .stopped → Mirroring env login manifests server fs₀ s) := by
  refine run.invariant (fun s => Passing s ∧
    (s.phase ≠ .stopped → Mirroring env login manifests server fs₀ s))
    ?_ ⟨passing, fun _ => mirroring⟩
  rintro s e t ⟨passing, mirroring⟩ ⟨orderly, running, honest⟩ takes
  have mirroring := mirroring running
  obtain ⟨passes, passing'⟩ := pass_step passing orderly takes
  refine ⟨passing', fun going => ?_⟩
  rcases passes.stage_cases going with ⟨-, stopped, -⟩ | ⟨-, starts, -⟩ | ⟨one, steps⟩
  · exact absurd stopped running
  · have first := starts.2.2
    rw [mirroring.second] at first
    cases first
  · exact mirroring.next ready passing passing' honest takes one steps

/-! ### The end of the pass -/

/-- `checkFile` removes the staged file of what is not trusted. -/
theorem checkFile_open {type : ContentType} (ready : Mirrorable env login.boxId manifests fs₀)
    (wanted : Wanted env login.boxId fs₀ entry content type) :
    Frame (Open env login.boxId fs₀ fs) fs (checkFile env login.boxId fs entry content).2 ∧
      ∀ x, trust env login.boxId (checkFile env login.boxId fs entry content).2 x =
        trust env login.boxId fs x := by
  cases trusted : trust env login.boxId fs entry with
  | true =>
      rw [checkFile_of_trust trusted]
      exact ⟨.refl _ fs, fun _ => rfl⟩
  | false =>
      have place : Open env login.boxId fs₀ fs (content.filePath entry) :=
        .inr (.inr ⟨type, entry, wanted.media, wanted.pending, trusted, wanted.filePath ready⟩)
      have apart : env.station.checkstorage login.boxId ≠ content.filePath entry := by
        rw [wanted.filePath ready]
        exact (pairPath_ne_checkstorage env.station (.inl rfl)).symm
      have removed : Frame (· = content.filePath entry) fs (fs.remove (content.filePath entry)).2 :=
        .remove rfl
      have kept (x : Entry) : trust env login.boxId (fs.remove (content.filePath entry)).2 x =
          trust env login.boxId fs x := by
        rw [trust, trust, removed.settingsValue apart]
      have wide : Frame (Open env login.boxId fs₀ fs) fs (fs.remove (content.filePath entry)).2 :=
        removed.mono fun p same => same ▸ place
      unfold checkFile
      simp only
      split
      · split
        · refine ⟨wide.trans (.removeSettings (.inl rfl) _), fun x => ?_⟩
          rw [trust_remove, kept]
          by_cases same : storageKey x = storageKey entry
          · rw [trust, same, ← trust, trusted]
            simp
          · simp [same]
        · exact ⟨wide, kept⟩
      · exact ⟨.refl _ fs, fun _ => rfl⟩

/-- `checkAllFiles` stops at the first file that is not trusted. -/
theorem checkAllFiles_open (ready : Mirrorable env login.boxId manifests fs₀)
    {infos : List SContentInfo}
    (wanted : ∀ info ∈ infos, ∃ type, Wanted env login.boxId fs₀ info.toEntry info.content type) :
    Frame (Open env login.boxId fs₀ fs) fs (checkAllFiles env login.boxId fs infos).2 ∧
      ∀ x, trust env login.boxId (checkAllFiles env login.boxId fs infos).2 x =
        trust env login.boxId fs x := by
  induction infos with
  | nil => exact ⟨.refl _ fs, fun _ => rfl⟩
  | cons info rest ih =>
      obtain ⟨type, is⟩ := wanted info List.mem_cons_self
      rw [checkAllFiles]
      cases trusted : trust env login.boxId fs info.toEntry with
      | true =>
          rw [checkFile_of_trust trusted]
          exact ih fun x mem => wanted x (List.mem_cons_of_mem info mem)
      | false =>
          rw [if_neg (by simp [trusted])]
          exact checkFile_open ready is

/-- The scheduled call. -/
theorem Passing.nextDownload (passing : Passing s) (takes : step env s .nextDownload = some t) :
    s.phase = .waiting ∧ t = DownloadManager.nextDownload env { s with scheduled := 0 } := by
  rw [step_eq_react passing.alive] at takes
  simp only [react] at takes
  split at takes
  next => cases takes
  next n scheduled =>
    have starters : s.starters = 0 := by
      by_contra starters
      have resting := passing.resting (phase_eq_stopped starters)
      rw [resting.scheduled] at scheduled
      cases scheduled
    have waiting := phase_eq_waiting starters (show s.scheduled ≠ 0 by simp [scheduled])
    have phase := passing.phase
    rw [waiting] at phase
    have one := (show Ready s from phase).waiting.scheduled
    obtain rfl : n = 0 := by omega
    exact ⟨waiting, (Option.some.inj takes).symm⟩

/-- **The commit keeps the progress** and what is trusted. -/
theorem Mirroring.commit (mirroring : Mirroring env login manifests server fs₀ s)
    (ready : Mirrorable env login.boxId manifests fs₀)
    (manager : u.contentManager = s.contentManager)
    (disk : u.fs = s.fs) :
    Progress env login manifests server fs₀ (DownloadManager.commit env u).fs ∧
      ∀ x, trust env login.boxId (DownloadManager.commit env u).fs x =
        trust env login.boxId s.fs x := by
  obtain ⟨frame, trusts⟩ : Frame (Open env login.boxId fs₀ s.fs) s.fs _ ∧ _ :=
    checkAllFiles_open ready mirroring.queue
  have checked : Progress env login manifests server fs₀
      (checkAllFiles env login.boxId s.fs s.contentManager.contentFiles).2 := by
    refine mirroring.progress.next ready frame (fun x trusted => ?_) fun x _ trusted => .inl ?_
    · rw [trusts, trusted]
    · rw [← trusts, trusted]
  unfold DownloadManager.commit
  simp only [manager, disk, mirroring.logged]
  split
  · have revision (rev : ℤ) : Frame (· = env.station.localFile login.boxId) _
        ((checkAllFiles env login.boxId s.fs s.contentManager.contentFiles).2.setRevLocal env
          login.boxId rev) :=
      setRevLocal_frame rev
    have apart : env.station.checkstorage login.boxId ≠ env.station.localFile login.boxId := by
      simp [Station.checkstorage, Station.localFile, str]
    have same (rev : ℤ) (x : Entry) : trust env login.boxId
        ((checkAllFiles env login.boxId s.fs s.contentManager.contentFiles).2.setRevLocal env
          login.boxId rev) x =
          trust env login.boxId (checkAllFiles env login.boxId s.fs s.contentManager.contentFiles).2
            x :=
      (revision rev).trust apart x
    refine ⟨checked.next ready ((revision _).mono fun p place => .inr (.inl place))
      (fun x trusted => ?_)
      fun x _ trusted => .inl ?_, fun x => (same _ x).trans (trusts x)⟩
    · rw [same, trusted]
    · rw [← same, trusted]
  · exact ⟨checked, trusts⟩

instance (server : QUrl → Option QByteArray) (s : State) (e : Event) :
    Decidable (Serving server s e) :=
  decidable_of_iff (Orderly s e ∧ s.phase ≠ .stopped ∧ Honest server s e)
    ⟨fun all => ⟨all.1, all.2.1, all.2.2⟩, fun all => ⟨all.1, all.2, all.3⟩⟩

/-- The advertising file of the manifest. -/
def demoAdvert : Entry := ⟨str "ads", str "x.mp3"⟩

/-- The manifests of that pass. -/
def mirrorManifests : ContentType → QByteArray
  | .music => ascii "rock=ftp/rock/a.mp3"
  | _ => ascii "x.mp3;1"

/-- What is checked of the disk with which the second stage starts. -/
def FileSystem.mirrors (fs : FileSystem) : Prop :=
  (fs.files.keys = [Env.demo.station.commandFile (str "7"), Env.demo.station.chanelsFile (str "7"),
      Env.demo.station.adverttableFile (str "7")] ∧ fs.revServer .demo (str "7") = 5) ∧
    (fs.read (Env.demo.station.manifestFile (str "7") .music) = some (mirrorManifests .music) ∧
      fs.read (Env.demo.station.manifestFile (str "7") .advert) = some (mirrorManifests .advert)) ∧
    (checkRev .demo (str "7") fs (str "chanels") = CheckStatus.downloadOk.toInt ∧
      checkRev .demo (str "7") fs (str "adverttable") = CheckStatus.downloadOk.toInt) ∧
    pendingEntries .demo (str "7") fs .music = [demoTrack] ∧
      pendingEntries .demo (str "7") fs .advert = [demoAdvert] ∧
      fs.fileExists (pairPath (Env.demo.station.boxDir (str "7")) .music demoTrack) = false

instance (fs : FileSystem) : Decidable fs.mirrors := inferInstanceAs (Decidable ((_ ∧ _) ∧ _))

theorem FileSystem.mirrors.mirrorable {fs : FileSystem} (mirrors : fs.mirrors)
    (reliable : fs.Reliable) :
    Mirrorable .demo (str "7") mirrorManifests fs := by
  obtain ⟨⟨keys, -⟩, ⟨music, advert⟩, ⟨status, status'⟩, tracks, adverts, -⟩ := mirrors
  have there {p : Path} (mem : p ∈ fs.files.keys) : fs.fileExists p = true := by
    obtain ⟨content, found⟩ :=
      Option.isSome_iff_exists.mp (AList.lookup_isSome.mpr (AList.mem_keys.mp mem))
    exact fileExists_of_read found
  have command : fs.fileExists (Env.demo.station.commandFile (str "7")) = true :=
    there (by simp [keys])
  -- no file of a pair is there
  have noStray (type : ContentType) (media : type ≠ .revision) (x : Entry) (root : Path)
      (at_ : root = Env.demo.station.boxDir (str "7") ∨ root = Env.demo.station.media) :
      fs.read (pairPath root type x) = none := by
    by_contra present
    have mem : pairPath root type x ∈ fs.files.keys :=
      AList.mem_keys.mpr (AList.lookup_isSome.mp (Option.isSome_iff_ne_none.mpr present))
    simp only [keys, List.mem_cons, List.not_mem_nil, or_false] at mem
    rcases mem with same | same | same
    · exact pairPath_ne_control Env.demo.station at_ media (by decide) same
    · exact pairPath_ne_control Env.demo.station at_ media (by decide) same
    · exact pairPath_ne_control Env.demo.station at_ media (by decide) same
  have stray (type : ContentType) (media : type ≠ .revision) (x : Entry)
      (stray : Stray .demo (str "7") (listedPairs .demo mirrorManifests type) fs type x) :
      False := by
    rcases stray.held with held | held
    · rw [noStray type media x _ (.inr rfl)] at held
      cases held
    · rw [noStray type media x _ (.inl rfl)] at held
      cases held
  refine ⟨⟨reliable, fun type media => ?_, fun type media => ?_⟩, by decide,
    fun type media => ?_, ?_, fun type media x is => (stray type media x is).elim,
    fun type media x _ is => (stray type media x is).elim⟩
  · cases type with
    | music => exact ⟨command, music, status⟩
    | advert => exact ⟨command, advert, status'⟩
    | revision => exact absurd rfl media
  · cases type with
    | music | advert => decide
    | revision => exact absurd rfl media
  · cases type with
    | music | advert => decide
    | revision => exact absurd rfl media
  · rw [tracks, adverts]
    decide

end MediaUpdater
