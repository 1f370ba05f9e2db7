import MediaUpdater.Download.StageStep

/-!
# The commit of a revision

At the end of a pass `setRevLocal` commits the revision of the server when all files of the
second stage are trusted.  These files come from the manifests, and a manifest whose download
failed names no file: the pass then has nothing to download and commits all the same.  The
statuses of the manifests are not looked at again.

A commit is complete when nothing goes wrong on the way from the listing of a manifest to the
queue of the second stage (`Delivers`): the line is taken for the file that it is about, the
download succeeds, the manifest can be opened, and no two of the files share a name.

## Main results

* `Settled.next` — what is settled when the second stage starts stays so.
* `commit_complete` — a commit of a run in which the manifests are delivered is complete.
* `commit_complete_fails` — the download of the list of channels fails.
-/

namespace MediaUpdater

open Library DownloadManager FileSystem CheckDownloadedContent

variable {env : Env} {boxId : QString} {s t : State} {e : Event} {type : ContentType}

/-! ### The manifests that are listed -/

/-- The manifests of the control files. -/
def manifests : List Entry := [manifestEntry .music, manifestEntry .advert]

theorem manifestEntry_mem (type : ContentType) : manifestEntry type ∈ manifests := by
  cases type <;> decide

namespace Action

/-- `startContent` is called. -/
def isContent : Action → Bool
  | startContent => true
  | _ => false

/-- The regular file of a listing line. -/
def regular? : Action → Option Entry
  | listed file info => if info.isRegularFile then some file.toEntry else none
  | _ => none

end Action

/-- The control files that the server has listed: those of the first stage of the pass. -/
def controlListed (acts : List Action) : List Entry :=
  (acts.reverse.takeWhile fun a => !a.isContent).filterMap Action.regular?

/-- A listing is new or old, and after `startContent` it is old. -/
theorem mem_controlListed_append {new old : List Action} {x : Entry}
    (mem : x ∈ controlListed (new ++ old)) :
    x ∈ controlListed old ∨ .startContent ∉ old ∧
      ∃ file info, .listed file info ∈ new ∧ file.toEntry = x ∧ info.isRegularFile = true := by
  rw [controlListed, List.reverse_append, List.takeWhile_append] at mem
  split at mem
  next whole =>
    have same := (List.takeWhile_prefix _).eq_of_length whole
    rw [List.filterMap_append] at mem
    rcases List.mem_append.mp mem with before | after
    · refine .inl ?_
      rwa [controlListed, same]
    · obtain ⟨a, inNew, regular⟩ := List.mem_filterMap.mp after
      refine .inr ⟨fun started => ?_, ?_⟩
      · simpa [Action.isContent] using
          List.takeWhile_eq_self_iff.mp same _ (List.mem_reverse.mpr started)
      · have inNew := List.mem_reverse.mp ((List.takeWhile_sublist _).subset inNew)
        cases a with
        | listed file info =>
            rw [Action.regular?, Option.ite_none_right_eq_some] at regular
            exact ⟨file, info, inNew, Option.some.inj regular.2, regular.1⟩
        | _ => cases regular
  next => exact .inl mem

/-! ### What a commit relies on -/

/-- The event is a line for a regular file. -/
def Event.isRegularLine : Event → Bool
  | ftpList info => info.isRegularFile
  | _ => false

/-- In the size phase of the first stage, the line of a manifest is taken for the manifest,
or the manifest is in the queue already. -/
def LinesMatch (s : State) (e : Event) : Prop :=
  s.phase = .sizing → s.revision = true → e.isRegularLine = true →
    ∀ file ∈ s.ftp.pending.head?.bind (fun running => running.2.listed?), file.toEntry ∈ manifests →
      ∃ taken ∈ s.asked.toList ++ s.contentFiles, taken.toEntry = file.toEntry

instance (s : State) (e : Event) : Decidable (LinesMatch s e) :=
  inferInstanceAs (Decidable (_ → _ → _ → ∀ file ∈ (_ : Option SContentInfo), _))

/-- In the first stage, the download of a manifest ends with success. -/
def ManifestsArrive (s : State) (e : Event) : Prop :=
  s.revision = true → e = .deliver → ∀ reply ∈ s.currentReply, s.posted = [(reply.id, .finished)] →
    reply.file.fileName ∈ manifests.map Entry.fileName →
      (s.fs.fileExists reply.file.stagedPath && !s.downloadTimeout && !reply.error) = true

instance (s : State) (e : Event) : Decidable (ManifestsArrive s e) :=
  inferInstanceAs (Decidable (_ → _ → ∀ reply ∈ s.currentReply, _ → _ → _))

/-- The disk with which the second stage starts. -/
structure ManifestsHold (env : Env) (boxId : QString) (fs : FileSystem) : Prop where
  opens : ManifestsOpen fs
  /-- The manifests name pairs … -/
  pairs : ∀ type, type ≠ .revision → ∀ x ∈ stagedEntries env boxId fs type, IsPair type x
  /-- … other than the manifests themselves and the file of the statuses … -/
  apart : ∀ x ∈ stagedEntries env boxId fs .music,
    x ≠ ⟨str "command", str "revstorage"⟩ ∧ x ∉ manifests
  /-- … and no two of the pending ones share a file name. -/
  distinct : ∀ x ∈ pendingEntries env boxId fs .advert ++ pendingEntries env boxId fs .music,
    ∀ y ∈ pendingEntries env boxId fs .advert ++ pendingEntries env boxId fs .music,
      x.fileName = y.fileName → x = y

/-- **The events of a run whose commits are complete.** -/
structure Delivers (env : Env) (s : State) (e : Event) : Prop where
  orderly : Orderly s e
  lines : LinesMatch s e
  arrive : ManifestsArrive s e
  hold : StartsContent s e → ManifestsHold env s.contentManager.loginInfo.boxId s.fs

/-! ### The manifests in the first stage -/

/-- A manifest that is listed is queued, or being downloaded, or downloaded. -/
def Expected (env : Env) (s : State) : Prop :=
  ∀ type, manifestEntry type ∈ controlListed (passLog s) →
    Due env (· = CheckStatus.downloadOk.toInt) s (manifestEntry type)

/-- **The first stage downloads the manifests that are listed.** -/
theorem Expected.next (expected : Expected env s) (passing : Passing s) (stage : s.revision = true)
    (delivers : Delivers env s e) (steps : StageStep env s e t) : Expected env t := by
  intro type listed
  obtain ⟨acts, split, lines⟩ := steps.passLog_eq
  rw [split] at listed
  rcases mem_controlListed_append listed with old | ⟨-, file, info, new, is, regular⟩
  · refine (expected type old).next passing stage steps fun reply replying event posted name => ?_
    rw [delivers.arrive stage event reply replying posted
      (name ▸ List.mem_map_of_mem (manifestEntry_mem type))]
    rfl
  · obtain ⟨sizing, advances, rfl, running⟩ := lines file info new
    obtain ⟨taken, mem, same⟩ := delivers.lines sizing stage regular file running
      (is ▸ manifestEntry_mem type)
    rcases List.mem_append.mp mem with last | queued
    · -- the line is taken for the file that was asked for last
      have asked : s.asked = some taken := by simpa using last
      obtain ⟨first, head, list⟩ := Option.bind_eq_some_iff.mp running
      obtain ⟨file', asked', current⟩ := passing.asked sizing first (List.mem_of_mem_head? head)
        (by rw [list]; rfl)
      obtain rfl := Option.some.inj (asked.symm.trans asked')
      have queued : taken.setSize info.size ∈ t.contentFiles := by
        rw [advances.queue]
        simp [collectedBy, regular, current]
      exact .queued queued (same.trans is)
    · exact .queued (advances.queue ▸ List.mem_append_left _ queued) (same.trans is)

/-- A pass starts with no manifest listed. -/
theorem expected_start (info : LoginInfo) : Expected env (start env s info) := by
  intro type listed
  obtain ⟨a, mem, regular⟩ := List.mem_filterMap.mp listed
  have timer := start_passLog env s info a
    (List.mem_reverse.mp ((List.takeWhile_sublist _).subset mem))
  rw [timer] at regular
  cases regular

/-! ### The content in the second stage -/

/-- The entry is trusted, or installed, or in the download queue of the second stage. -/
def Covered (env : Env) (s : State) (type : ContentType) (x : Entry) : Prop :=
  trust env s.contentManager.loginInfo.boxId s.fs x = true ∨
    s.fs.fileExists (env.station.installedPath type x) = true ∨
    ∃ info ∈ s.contentManager.contentFiles, info.toEntry = x

/-- **The invariant of the second stage.** -/
structure Settled (env : Env) (s : State) : Prop where
  started : .startContent ∈ passLog s
  statuses : ∀ type, manifestEntry type ∈ controlListed (passLog s) →
    checkRev env s.contentManager.loginInfo.boxId s.fs (manifestEntry type).fileName =
      CheckStatus.downloadOk.toInt
  planned : Planned env s.contentManager.loginInfo.boxId s.stageFiles
  pairs : ∀ type, type ≠ .revision →
    ∀ x ∈ stagedEntries env s.contentManager.loginInfo.boxId s.fs type, IsPair type x
  covered : ∀ type, type ≠ .revision →
    ∀ x ∈ stagedEntries env s.contentManager.loginInfo.boxId s.fs type, Covered env s type x

/-- When no two pending files share a name, each of them is queued: the file that is queued
under its name can only be the file itself. -/
theorem ContentManager.QueueOf.exists_of_distinct {cm : ContentManager} {fs : FileSystem}
    {x : Entry}
    (queue : QueueOf env boxId fs [.advert, .music] cm) (media : type ≠ .revision)
    (distinct : ∀ x ∈ pendingEntries env boxId fs .advert ++ pendingEntries env boxId fs .music,
      ∀ y ∈ pendingEntries env boxId fs .advert ++ pendingEntries env boxId fs .music,
        x.fileName = y.fileName → x = y)
    (pending : x ∈ pendingEntries env boxId fs type) :
    ∃ info ∈ cm.contentFiles, info.toEntry = x := by
  have among : type ∈ [.advert, .music] := by
    cases type with
    | music | advert => decide
    | revision => exact absurd rfl media
  have left (type' : ContentType) (among : type' ∈ [.advert, .music]) (y : Entry)
      (mem : y ∈ pendingEntries env boxId fs type') :
      y ∈ pendingEntries env boxId fs .advert ++ pendingEntries env boxId fs .music := by
    rcases List.mem_pair.mp among with rfl | rfl
    · exact List.mem_append_left _ mem
    · exact List.mem_append_right _ mem
  obtain ⟨info, queued, name⟩ := queue.named type among x pending
  obtain ⟨type', among', pending', -⟩ := queue.queued info queued
  exact ⟨info, queued, distinct _ (left type' among' _ pending') _ (left type among _ pending) name⟩

/-- **The second stage starts with everything covered.** -/
theorem settled_startContent (idle : s.currentReply = none)
    (hold : ManifestsHold env s.contentManager.loginInfo.boxId s.fs)
    (statuses : ∀ type, manifestEntry type ∈ controlListed (passLog s) →
      checkRev env s.contentManager.loginInfo.boxId s.fs (manifestEntry type).fileName =
        CheckStatus.downloadOk.toInt) : Settled env (startContent env s) := by
  obtain ⟨opens, pairs, apart, distinct⟩ := hold
  obtain ⟨queue, adverts, tracks⟩ := s.contentManager.queueOf_stage opens pairs
  obtain ⟨kept, -, files, login, -⟩ := startContent_stage env s
  have box : (startContent env s).contentManager.loginInfo.boxId =
    s.contentManager.loginInfo.boxId := by
    rw [login, queue.box]
  obtain ⟨acts, split, content, lines⟩ := startContent_passLog env s
  -- the sweeps pass over the statuses and the manifests
  have revstorage : ⟨str "command", str "revstorage"⟩ ∉
      stagedEntries env s.contentManager.loginInfo.boxId s.fs .music := fun mem =>
    (apart _ mem).1 rfl
  have manifest (type : ContentType) : manifestEntry type ∉
        stagedEntries env s.contentManager.loginInfo.boxId s.fs .advert ∧
      manifestEntry type ∉ stagedEntries env s.contentManager.loginInfo.boxId s.fs .music :=
    ⟨not_mem_stagedAdverts pairs
      (by cases type <;> decide), fun mem => (apart _ mem).2 (manifestEntry_mem type)⟩
  have staged (type : ContentType) (media : type ≠ .revision) :
      stagedEntries env s.contentManager.loginInfo.boxId (startContent env s).fs type =
        stagedEntries env s.contentManager.loginInfo.boxId s.fs type := by
    rw [kept, tracks.stagedEntries_eq media revstorage (manifest type).2,
      adverts.stagedEntries_eq media (not_mem_stagedAdverts pairs (by decide)) (manifest type).1]
  refine ⟨?_, fun type listed => ?_, ?_, fun type media x mem => ?_, fun type media x mem => ?_⟩
  · rw [split]
    exact List.mem_append_left _ content
  · rw [split] at listed
    rcases mem_controlListed_append listed with old | ⟨-, file, info, new, -⟩
    · rw [box, kept, tracks.checkRev_eq revstorage,
        adverts.checkRev_eq (not_mem_stagedAdverts pairs (by decide))]
      exact statuses type old
    · exact absurd new (lines file info)
  · rw [box]
    exact planned_startContent idle pairs
  · rw [box, staged type media] at mem
    exact pairs type media x mem
  · rw [box, staged type media] at mem
    have pair := pairs type media x mem
    cases pending : isPending env s.contentManager.loginInfo.boxId s.fs type x with
    | false =>
        rw [isPending, Bool.not_eq_false', Bool.or_eq_true] at pending
        refine pending.imp (fun trusted => ?_) fun installed => .inl ?_
        · rw [box, kept, tracks.trust, adverts.trust]
          exact trusted
        · rw [kept, tracks.fileExists_installed media pair, adverts.fileExists_installed media pair]
          exact installed
    | true =>
        obtain ⟨info, queued, is⟩ :=
          queue.exists_of_distinct media distinct (List.mem_filter.mpr ⟨mem, pending⟩)
        exact .inr (.inr ⟨info, files ▸ queued, is⟩)

/-- What is covered stays so. -/
theorem Covered.next {x : Entry} (covered : Covered env s type x) (media : type ≠ .revision)
    (pair : IsPair type x) (planned : Planned env s.contentManager.loginInfo.boxId s.stageFiles)
    (second : s.revision = false) (steps : StageStep env s e t) : Covered env t type x := by
  rcases covered with trusted | installed | ⟨info, queued, is⟩
  · refine .inl ?_
    rw [steps.manager_eq.2]
    exact steps.trust_mono second x trusted
  · refine .inr (.inl ?_)
    rw [installedPath_eq media pair] at installed ⊢
    rw [(steps.frame second).fileExists (planned.untouched
      (pairPath_ne_checkstorage env.station (.inr rfl)) fun _ _ _ =>
        pairPath_boxDir_ne_media env.station _)]
    exact installed
  · refine .inr (.inr ⟨info, ?_, is⟩)
    rwa [steps.contentFiles_eq]

/-- **What is settled stays so.** -/
theorem Settled.next (settled : Settled env s) (passing : Passing s) (passing' : Passing t)
    (second : s.revision = false) (steps : StageStep env s e t) : Settled env t := by
  obtain ⟨started, statuses, planned, pairs, covered⟩ := settled
  obtain ⟨acts, split, -⟩ := steps.passLog_eq
  have login := steps.manager_eq.2
  refine ⟨?_, fun type listed => ?_, ?_, fun type media x mem => ?_, fun type media x mem => ?_⟩
  · rw [split]
    exact List.mem_append_right acts started
  · rw [split] at listed
    rcases mem_controlListed_append listed with old | ⟨first, -⟩
    · rw [login, steps.checkRev_eq second]
      exact statuses type old
    · exact absurd started first
  · rw [login]
    exact planned.sublist (steps.stageFiles_sublist passing passing')
  · rw [login, steps.stagedEntries_eq second media planned] at mem
    exact pairs type media x mem
  · rw [login, steps.stagedEntries_eq second media planned] at mem
    exact (covered type media x mem).next media (pairs type media x mem) planned second steps

/-! ### Whole runs -/

/-- **The invariant of a pass.**  Outside a pass nothing is claimed. -/
def DeliveredPass (env : Env) (s : State) : Prop :=
  s.phase ≠ .stopped →
    (s.revision = true → Expected env s) ∧ (s.revision = false → Settled env s)

/-- **The step lemma.** -/
theorem DeliveredPass.next (delivered : DeliveredPass env s) (passing : Passing s)
    (passing' : Passing t) (delivers : Delivers env s e) (passes : PassStep env s e t) :
    DeliveredPass env t := by
  intro going
  rcases passes.stage_cases going with ⟨info, -, rfl⟩ | ⟨waiting, starts, rfl⟩ | ⟨one, steps⟩
  · refine ⟨fun _ => expected_start info, fun second => ?_⟩
    rw [start_revision] at second
    cases second
  · refine ⟨fun first => ?_, fun _ => ?_⟩
    · rw [startContent_revision] at first
      cases first
    · have idle : s.currentReply = none := passing.phase.replying (by simp [waiting])
      refine settled_startContent idle (delivers.hold starts) fun type listed => ?_
      have expected := (delivered (by simp [waiting])).1 starts.2.2
      exact (expected type listed).status starts.2.1 idle
  · obtain ⟨first, second⟩ := delivered one.before
    refine ⟨fun stage => ?_, fun stage => ?_⟩
    · rw [one.revision] at stage
      exact (first stage).next passing stage delivers steps
    · rw [one.revision] at stage
      exact (second stage).next passing passing' stage steps

/-- The invariant holds in every state of a run in which the manifests are delivered. -/
theorem delivered_reachable (reached : Reachable (step env) (Delivers env) Initial s) :
    Passing s ∧ DeliveredPass env s := by
  refine pass_invariant (fun _ _ delivers => delivers.orderly) (DeliveredPass env)
    (fun fs going => ?_) (fun s e t passing passing' delivered delivers _ passes =>
      delivered.next passing passing' delivers passes) reached
  exact absurd (phase_boot fs) going

/-! ### The commit -/

/-- The commit leaves the disk to be committed in the log. -/
theorem commit_log (env : Env) (s : State) :
    let boxId := s.contentManager.loginInfo.boxId
    let checked := checkAllFiles env boxId s.fs s.contentManager.contentFiles
    (commit env s).log =
      (if checked.1 && checked.2.checkRevision env boxId then [.setRevLocal checked.2] else []) ++
        s.log := by
  unfold commit
  simp only
  split <;> rfl

/-- **A commit finds every file of the second stage trusted**, and the disk untouched. -/
theorem endPass_commits {before : FileSystem}
    (emitted : Emits s (endPass env { s with scheduled := 0 }) (.setRevLocal before)) :
    before = s.fs ∧ ∀ info ∈ s.contentManager.contentFiles,
      trust env s.contentManager.loginInfo.boxId s.fs info.toEntry = true := by
  let u : State := { s with scheduled := 0 }
  have logged : (endPass env u).log = [.startTimer, .syncContent (commit env u).fs
      ((commit env u).contentManager.syncContent env (commit env u).fs).2.2] ++
      (commit env u).log := rfl
  rw [commit_log, ← List.append_assoc] at logged
  have mem := mem_of_emits _ logged emitted
  split at mem
  next commits =>
    obtain ⟨same, trusted⟩ := checkAllFiles_all (Bool.and_eq_true_iff.mp commits).1
    simp only [List.cons_append, List.nil_append, List.mem_cons, List.not_mem_nil, or_false,
      reduceCtorEq, false_or, Action.setRevLocal.injEq] at mem
    exact ⟨mem.trans same, trusted⟩
  next => simp at mem

/-- **The revision is committed only for complete content**, in every run in which the
manifests are delivered: a manifest that was listed has been downloaded, and every file that
the manifests name is trusted or installed. -/
theorem commit_complete (reached : Reachable (step env) (Delivers env) Initial s)
    (delivers : Delivers env s e) (takes : step env s e = some t) {before : FileSystem}
    (emitted : Emits s t (.setRevLocal before)) (media : type ≠ .revision) :
    (manifestEntry type ∈ controlListed (passLog s) →
        checkRev env s.contentManager.loginInfo.boxId before (manifestEntry type).fileName =
          CheckStatus.downloadOk.toInt) ∧
      ∀ x ∈ stagedEntries env s.contentManager.loginInfo.boxId before type,
        trust env s.contentManager.loginInfo.boxId before x = true ∨
          before.fileExists (env.station.installedPath type x) = true := by
  obtain ⟨passing, delivered⟩ := delivered_reachable reached
  obtain ⟨passes, -⟩ := pass_step passing delivers.orderly takes
  obtain ⟨ends, state⟩ := passes.ends_of_emits emitted rfl rfl
  subst state
  obtain ⟨rfl, trusted⟩ := endPass_commits emitted
  have settled := (delivered (passing.going takes ends)).2 ends.2.2
  refine ⟨settled.statuses type, fun x mem => ?_⟩
  rcases settled.covered type media x mem with trust | installed | ⟨info, queued, rfl⟩
  · exact .inl trust
  · exact .inr installed
  · exact .inl (trusted info queued)

/-! ### A list of channels that is downloaded, and one that is not -/

/-- A track that is installed. -/
def demoTrack : Entry := ⟨str "rock", str "a.mp3"⟩

def FileSystem.demoRock : FileSystem :=
  blank.put (Env.demo.station.installedPath .music demoTrack) (ascii "a")

/-- The first stage of a pass in which the list of channels and the revision file are on the
server, when `last` happens at the end of the download of the list. -/
def toChannels (last : List Event) : List Event :=
  [.updateStart true, .accountReady (some .demo), .ftpState .loggedIn, .ftpDone none, .ftpDone none,
    .ftpDone (some .noSuchFile), .ftpList ⟨true, true, 20⟩, .ftpDone none,
    .ftpList ⟨true, true, 10⟩, .ftpDone none, .ftpDone (some .noSuchFile),
    .ftpDone (some .noSuchFile), .nextDownload, .netData (ascii "rock=ftp/rock/a.mp3"), .deliver] ++
    last ++ [.netFinished, .deliver, .nextDownload, .netData (ascii "revision=5"), .deliver,
    .netFinished, .deliver]

/-- The next step ends the pass with a commit. -/
def State.committing (s : State) : Prop :=
  (s.crashed = false ∧ s.scheduled = 1 ∧ s.contentFiles = [] ∧ s.revision = false) ∧
    let checked :=
      checkAllFiles .demo s.contentManager.loginInfo.boxId s.fs s.contentManager.contentFiles
    (checked.1 && checked.2.checkRevision .demo s.contentManager.loginInfo.boxId) = true

instance (s : State) : Decidable s.committing := inferInstanceAs (Decidable (_ ∧ _))

theorem State.committing.emits (committing : s.committing) :
    ∃ t, step .demo s .nextDownload = some t ∧ Emits s t (.setRevLocal s.fs) := by
  obtain ⟨⟨alive, scheduled, empty, second⟩, commits⟩ := committing
  let u : State := { s with scheduled := 0 }
  refine ⟨_, step_nextDownload alive scheduled, ?_⟩
  rw [nextDownload_nil .demo u empty, if_neg (by simp [u, second])]
  have logged : (endPass .demo u).log = [.startTimer, .syncContent (commit .demo u).fs
      ((commit .demo u).contentManager.syncContent .demo (commit .demo u).fs).2.2] ++
        (commit .demo u).log := rfl
  rw [commit_log, if_pos commits, ← List.append_assoc,
    (checkAllFiles_all (Bool.and_eq_true_iff.mp commits).1).1] at logged
  exact (emits_iff logged _).mpr (by simp [u])

/-- The events of a first stage in which the manifests are delivered. -/
def Undelayed (s : State) (e : Event) : Prop :=
  Orderly s e ∧ LinesMatch s e ∧ ManifestsArrive s e ∧ ¬ StartsContent s e

instance (s : State) (e : Event) : Decidable (Undelayed s e) :=
  inferInstanceAs (Decidable (_ ∧ _ ∧ _ ∧ _))

theorem Undelayed.delivers (undelayed : Undelayed s e) : Delivers env s e :=
  ⟨undelayed.1, undelayed.2.1, undelayed.2.2.1, fun starts => absurd starts undelayed.2.2.2⟩

/-- The list of channels names the track that is installed. -/
theorem commit_complete_demo :
    ∃ s t before, Reachable (step .demo) (Delivers .demo) Initial s ∧
      step .demo s .nextDownload = some t ∧ Emits s t (.setRevLocal before) ∧
      manifestEntry .music ∈ controlListed (passLog s) ∧
      checkRev .demo (str "7") before (str "chanels") = CheckStatus.downloadOk.toInt ∧
      stagedEntries .demo (str "7") before .music = [demoTrack] ∧
      (trust .demo (str "7") before demoTrack = true ∨
        before.fileExists (Env.demo.station.installedPath .music demoTrack) = true) := by
  have plays : (execute (step .demo) Undelayed (State.boot .demoRock) (toChannels [])).map
      (fun s => decide ((s.crashed = false ∧ s.scheduled = 1 ∧ s.revision = true ∧
        s.contentManager.loginInfo = .demo ∧ ManifestsOpen s.fs ∧
        stagedEntries .demo (str "7") s.fs .music = [demoTrack] ∧
        stagedEntries .demo (str "7") s.fs .advert = [] ∧
        pendingEntries .demo (str "7") s.fs .music = []) ∧
        let u := nextDownload .demo { s with scheduled := 0 }
        u.committing ∧ u.contentManager.loginInfo = .demo ∧
          manifestEntry .music ∈ controlListed (passLog u) ∧
          stagedEntries .demo (str "7") u.fs .music = [demoTrack])) = some true := by
    decide
  obtain ⟨s, played, facts⟩ := Option.map_eq_some_iff.mp plays
  obtain ⟨⟨alive, scheduled, first, login, opens, tracks, adverts, pending⟩, committing, login',
    listed, tracks'⟩ := of_decide_eq_true facts
  let u := nextDownload .demo { s with scheduled := 0 }
  have before : Reachable (step .demo) (Delivers .demo) Initial s :=
    ⟨_, _, ⟨_, rfl⟩, (Run.of_execute played).mono fun _ _ undelayed => undelayed.delivers⟩
  have hold : ManifestsHold .demo (str "7") s.fs := by
    refine ⟨opens, fun type media x mem => ?_, fun x mem => ?_, fun x mem => ?_⟩
    · cases type with
      | music =>
          rw [tracks, List.mem_singleton] at mem
          subst mem
          exact ⟨by decide, by decide, fun advert => by cases advert⟩
      | advert =>
          rw [adverts] at mem
          cases mem
      | revision => exact absurd rfl media
    · rw [tracks, List.mem_singleton] at mem
      subst mem
      decide
    · rw [pending, pendingEntries, adverts] at mem
      cases mem
  have starts : Delivers .demo s .nextDownload := by
    refine ⟨trivial, fun _ _ regular => (by cases regular), fun _ deliver => (by cases deliver),
      fun _ => ?_⟩
    rw [login]
    exact hold
  have reached : Reachable (step .demo) (Delivers .demo) Initial u :=
    before.next starts (step_nextDownload alive scheduled)
  have ends : Delivers .demo u .nextDownload := by
    refine ⟨trivial, fun _ _ regular => (by cases regular), fun _ deliver => (by cases deliver),
      fun starts => absurd (starts.2.2.symm.trans committing.1.2.2.2) (by simp)⟩
  obtain ⟨t, takes, emitted⟩ := committing.emits
  obtain ⟨statuses, covered⟩ :=
    commit_complete reached ends takes emitted (show ContentType.music ≠ .revision by decide)
  rw [show u.contentManager.loginInfo = .demo from login'] at statuses covered
  have named : demoTrack ∈ stagedEntries .demo (str "7") u.fs .music :=
    tracks'.symm ▸ List.mem_singleton_self demoTrack
  exact ⟨u, t, u.fs, reached, takes, emitted, listed, statuses listed, tracks',
    covered demoTrack named⟩

/-- The download of the list of channels fails, and the revision is committed without it. -/
theorem commit_complete_fails :
    ∃ s t before, Reachable (step .demo) Orderly Initial s ∧
      step .demo s .nextDownload = some t ∧ Emits s t (.setRevLocal before) ∧
      manifestEntry .music ∈ controlListed (passLog s) ∧
      checkRev .demo (str "7") before (str "chanels") ≠ CheckStatus.downloadOk.toInt := by
  have plays : (execute (step .demo) Orderly (State.boot .demoRock)
      (toChannels [.netError, .deliver] ++ [.nextDownload])).map
        (fun s => decide (s.committing ∧ manifestEntry .music ∈ controlListed (passLog s) ∧
          checkRev .demo (str "7") s.fs (str "chanels") ≠ CheckStatus.downloadOk.toInt)) =
            some true := by
    decide
  obtain ⟨s, played, facts⟩ := Option.map_eq_some_iff.mp plays
  obtain ⟨committing, listed, failed⟩ := of_decide_eq_true facts
  obtain ⟨t, takes, emitted⟩ := committing.emits
  exact ⟨s, t, s.fs, ⟨_, _, ⟨_, rfl⟩, .of_execute played⟩, takes, emitted, listed, failed⟩

end MediaUpdater
