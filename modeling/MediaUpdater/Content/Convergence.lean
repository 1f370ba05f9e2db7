import MediaUpdater.Content.ControlFiles
import MediaUpdater.Content.Manager

/-!
# Convergence of a sync

After `ContentManager::syncContent` the installed tree should hold exactly what the
manifests list, as far as it was downloaded.  It does so for the advertising files.
For the music it depends on where the *excess* files are, those that are installed
(or are about to be) without being listed: the deletion loop removes all of them
from the directory of the last one, so they are gone only when they all lie in one
channel.  In addition a directory scan does not see hidden names.

## Main results

* `Outcome.converged_iff` — one content type.
* `sync_converges_iff`, `sync_diverges` — a sync converges exactly when the excess files
  are visible and lie in one directory.
-/

namespace MediaUpdater

open FileSystem CheckDownloadedContent

variable {env : Env} {boxId : QString} {fs₀ fs fs' fs₁ : FileSystem} {type : ContentType}
variable {listed moved : List Entry} {e : Entry}

/-! ### The specification -/

/-- The pair is staged, trusted and visible, so a local content lists it. -/
structure Collected (env : Env) (boxId : QString) (fs : FileSystem) (type : ContentType)
    (e : Entry) : Prop where
  visible : VisiblePair type e
  staged : (fs.read (pairPath (env.station.boxDir boxId) type e)).isSome
  trusted : trust env boxId fs e = true

/-- The pair is installed, or will be, but is not listed. -/
structure Excess (env : Env) (boxId : QString) (listed : List Entry) (fs : FileSystem)
    (type : ContentType) (e : Entry) : Prop where
  pair : IsPair type e
  unlisted : e ∉ listed
  held : (fs.read (pairPath env.station.media type e)).isSome ∨ Collected env boxId fs type e

/-- **The sync has converged** to the list: nothing else is installed, and every listed pair
that was staged and trusted is installed, no longer staged and without a key. -/
structure Converged (env : Env) (boxId : QString) (listed : List Entry) (type : ContentType)
    (fs fs' : FileSystem) : Prop where
  nothingElse : ∀ e, IsPair type e → (fs'.read (pairPath env.station.media type e)).isSome →
    e ∈ listed
  installs : ∀ e ∈ listed, ∀ bytes,
    fs.read (pairPath (env.station.boxDir boxId) type e) = some bytes →
    trust env boxId fs e = true →
    fs'.read (pairPath env.station.media type e) = some bytes ∧
      fs'.read (pairPath (env.station.boxDir boxId) type e) = none ∧
      trust env boxId fs' e = false

/-- The condition: a directory scan sees every excess file and every listed one that is to
be installed, and the excess files lie in one directory. -/
structure Convergent (env : Env) (boxId : QString) (listed : List Entry) (type : ContentType)
    (fs : FileSystem) : Prop where
  visible : ∀ e, Excess env boxId listed fs type e → VisiblePair type e
  oneDir : ∀ e e', Excess env boxId listed fs type e → Excess env boxId listed fs type e' →
    e.dirName = e'.dirName
  listedVisible : ∀ e ∈ listed, (fs.read (pairPath (env.station.boxDir boxId) type e)).isSome →
    trust env boxId fs e = true → VisiblePair type e

/-! ### One content type -/

/-- What a sync of all contents does to the pairs of one type. -/
structure Outcome (env : Env) (boxId : QString) (type : ContentType) (listed moved : List Entry)
    (fs fs' : FileSystem) : Prop where
  trust : ∀ e ∈ moved, trust env boxId fs' e = false
  staged : ∀ e, IsPair type e → fs'.read (pairPath (env.station.boxDir boxId) type e) =
    if e ∈ moved then none else fs.read (pairPath (env.station.boxDir boxId) type e)
  installed : ∃ extra : List Entry,
    (∀ e, e ∈ extra ↔ IsPair type e ∧ VisiblePair type e ∧ e ∉ listed ∧
      (e ∈ moved ∨ (fs.read (pairPath env.station.media type e)).isSome)) ∧
    ∀ e, IsPair type e → fs'.read (pairPath env.station.media type e) =
      if (∃ last ∈ extra.getLast?, last.dirName = e.dirName ∧ ∃ x ∈ extra, x.fileName = e.fileName)
      then none
      else if e ∈ moved then fs.read (pairPath (env.station.boxDir boxId) type e)
      else fs.read (pairPath env.station.media type e)

/-- The sync of one content, between syncs that leave its pairs alone. -/
theorem Synced.outcome (synced : Synced env boxId type listed moved fs fs')
    (pairs : ∀ e ∈ moved, IsPair type e)
    (before : ∀ root e, root = env.station.boxDir boxId ∨ root = env.station.media →
      fs.read (pairPath root type e) = fs₀.read (pairPath root type e))
    (after : ∀ root e, root = env.station.boxDir boxId ∨ root = env.station.media →
      fs₁.read (pairPath root type e) = fs'.read (pairPath root type e))
    (fewer : ∀ e, Plain e.dirName → CheckDownloadedContent.trust env boxId fs₁ e = true →
      CheckDownloadedContent.trust env boxId fs' e = true) :
    Outcome env boxId type listed moved fs₀ fs₁ := by
  refine ⟨fun e mem => ?_, fun e pair => ?_, ?_⟩
  · by_contra trusted
    have still := fewer e (pairs e mem).dir (by simpa using trusted)
    rw [synced.trust e (pairs e mem).dir] at still
    simp [mem] at still
  · rw [after _ e (.inl rfl), ← before _ e (.inl rfl)]
    exact synced.staged e pair
  · obtain ⟨extra, mem_extra, installed⟩ := synced.installed
    refine ⟨extra, fun e => ?_, fun e pair => ?_⟩
    · rw [mem_extra, before _ e (.inr rfl)]
    · rw [after _ e (.inr rfl), installed e pair, before _ e (.inl rfl), before _ e (.inr rfl)]

/-- **A content type converges exactly when its excess files are visible and in one
directory.** -/
theorem Outcome.converged_iff (outcome : Outcome env boxId type listed moved fs fs')
    (mem_moved : ∀ e, e ∈ moved ↔ IsPair type e ∧ Collected env boxId fs type e)
    (listedPairs : ∀ e ∈ listed, IsPair type e) :
    Converged env boxId listed type fs fs' ↔ Convergent env boxId listed type fs := by
  obtain ⟨extra, mem_extra, installed⟩ := outcome.installed
  have excess_of_extra (e : Entry) (mem : e ∈ extra) : Excess env boxId listed fs type e := by
    obtain ⟨pair, -, unlisted, held⟩ := (mem_extra e).mp mem
    exact ⟨pair, unlisted, held.symm.imp id fun mem => ((mem_moved e).mp mem).2⟩
  have extra_of_excess (e : Entry) (excess : Excess env boxId listed fs type e)
      (visible : VisiblePair type e) : e ∈ extra := by
    refine (mem_extra e).mpr ⟨excess.pair, visible, excess.unlisted, ?_⟩
    exact excess.held.symm.imp (fun collected => (mem_moved e).mpr ⟨excess.pair, collected⟩) id
  -- an excess file that is not removed is still there
  have remains (e : Entry) (excess : Excess env boxId listed fs type e)
      (kept : ¬ ∃ last ∈ extra.getLast?, last.dirName = e.dirName ∧
        ∃ x ∈ extra, x.fileName = e.fileName) :
      (fs'.read (pairPath env.station.media type e)).isSome := by
    rw [installed e excess.pair, if_neg kept]
    split
    next mem => exact ((mem_moved e).mp mem).2.staged
    next notMem =>
      exact excess.held.resolve_right fun collected =>
        notMem ((mem_moved e).mpr ⟨excess.pair, collected⟩)
  constructor
  · intro converged
    have removed (e : Entry) (excess : Excess env boxId listed fs type e) :
        ∃ last ∈ extra.getLast?, last.dirName = e.dirName ∧
        ∃ x ∈ extra, x.fileName = e.fileName := by
      by_contra kept
      exact excess.unlisted (converged.nothingElse e excess.pair (remains e excess kept))
    refine ⟨fun e excess => ?_, fun e e' excess excess' => ?_, fun e mem staged trusted => ?_⟩
    · obtain ⟨last, atLast, sameDir, x, mem, sameFile⟩ := removed e excess
      have lastVisible := ((mem_extra last).mp (List.mem_of_getLast? atLast)).2.1
      have fileVisible := ((mem_extra x).mp mem).2.1
      exact ⟨fun music => sameDir ▸ lastVisible.1 music, sameFile ▸ fileVisible.2⟩
    · obtain ⟨last, atLast, sameDir, -⟩ := removed e excess
      obtain ⟨last', atLast', sameDir', -⟩ := removed e' excess'
      obtain rfl : last = last' := Option.some.inj (atLast.symm.trans atLast')
      exact sameDir.symm.trans sameDir'
    · by_contra hidden
      obtain ⟨bytes, content⟩ := Option.isSome_iff_exists.mp staged
      obtain ⟨-, gone, -⟩ := converged.installs e mem bytes content trusted
      have notMoved : e ∉ moved := fun mem => hidden ((mem_moved e).mp mem).2.visible
      rw [outcome.staged e (listedPairs e mem), if_neg notMoved, content] at gone
      cases gone
  · intro convergent
    refine ⟨fun e pair there => ?_, fun e mem bytes content trusted => ?_⟩
    · by_contra unlisted
      rw [installed e pair] at there
      split at there
      · cases there
      next kept =>
        have excess : Excess env boxId listed fs type e := by
          refine ⟨pair, unlisted, ?_⟩
          split at there
          next mem => exact .inr ((mem_moved e).mp mem).2
          next notMem => exact .inl there
        have mem := extra_of_excess e excess (convergent.visible e excess)
        obtain ⟨last, atLast⟩ := Option.isSome_iff_exists.mp
          (List.getLast?_isSome.mpr (List.ne_nil_of_mem mem))
        have sameDir := convergent.oneDir last e
          (excess_of_extra last (List.mem_of_getLast? atLast)) excess
        exact kept ⟨last, atLast, sameDir, e, mem, rfl⟩
    · have staged := Option.isSome_iff_exists.mpr ⟨bytes, content⟩
      have pair := listedPairs e mem
      have isMoved : e ∈ moved := (mem_moved e).mpr
        ⟨pair, convergent.listedVisible e mem staged trusted, staged, trusted⟩
      refine ⟨?_, by rw [outcome.staged e pair, if_pos isMoved], outcome.trust e isMoved⟩
      rw [installed e pair, if_neg, if_pos isMoved, content]
      rintro ⟨last, atLast, sameDir, x, inExtra, sameFile⟩
      have excess := excess_of_extra x inExtra
      have sameDir' := convergent.oneDir x last excess
        (excess_of_extra last (List.mem_of_getLast? atLast))
      obtain ⟨dir, file⟩ := e
      obtain ⟨dir', file'⟩ := x
      obtain rfl : dir' = dir := sameDir'.trans sameDir
      obtain rfl : file' = file := sameFile
      exact excess.unlisted mem

/-! ### The whole sync -/

/-- Pairs of two types have different paths. -/
theorem pairPath_ne_of_type {type type' : ContentType} {e e' : Entry} {root root' : Path}
    (media : type ≠ .revision) (media' : type' ≠ .revision) (other : type ≠ type')
    (at_ : root = env.station.boxDir boxId ∨ root = env.station.media)
    (at' : root' = env.station.boxDir boxId ∨ root' = env.station.media) :
    pairPath root type e ≠ pairPath root' type' e' := by
  intro same
  rcases at_ with rfl | rfl <;> rcases at' with rfl | rfl
  · cases type <;> cases type' <;> simp_all [pairPath]
  · exact pairPath_boxDir_ne_media env.station boxId same
  · exact pairPath_boxDir_ne_media env.station boxId same.symm
  · cases type <;> cases type' <;> simp_all [pairPath]

/-- The sync of one type leaves the pairs of the other alone. -/
theorem FileSystem.Frame.read_otherPair {type' : ContentType}
    (frame : Frame (PairPlace env boxId type) fs fs') (media : type ≠ .revision)
    (media' : type' ≠ .revision) (other : type' ≠ type) (root : Path) (e : Entry)
    (at_ : root = env.station.boxDir boxId ∨ root = env.station.media) :
    fs'.read (pairPath root type' e) = fs.read (pairPath root type' e) := by
  refine frame.read _ ?_
  rintro (same | ⟨x, same | same⟩)
  · exact pairPath_ne_checkstorage env.station at_ same
  · exact pairPath_ne_of_type media' media other at_ (.inl rfl) same
  · exact pairPath_ne_of_type media' media other at_ (.inr rfl) same

theorem Synced.trust_mono (synced : Synced env boxId type listed moved fs fs') :
    ∀ e, Plain e.dirName → CheckDownloadedContent.trust env boxId fs' e = true →
      CheckDownloadedContent.trust env boxId fs e = true := by
  intro e plain trusted
  rw [synced.trust e plain, Bool.and_eq_true] at trusted
  exact trusted.2

/-- The sync of the control files leaves the pairs alone. -/
theorem ControlFrame.read_pair (control : ControlFrame env boxId fs fs') (root : Path) (e : Entry)
    (at_ : root = env.station.boxDir boxId ∨ root = env.station.media) :
    fs'.read (pairPath root type e) = fs.read (pairPath root type e) := by
  refine control.frame.read _ ?_
  rintro (same | ⟨name, same⟩)
  · exact pairPath_ne_checkstorage env.station at_ same
  · rcases at_ with rfl | rfl
    · cases type <;> exact boxDir_append_ne_timetable _ _ same
    · cases type <;> exact env.station.media_append_ne _ _ same

/-- A disk that is ready for a sync: the calls succeed, and both manifests were downloaded, can be
read and list plain names. -/
structure SyncInput (env : Env) (boxId : QString) (manifests : ContentType → QByteArray)
    (fs : FileSystem) : Prop where
  reliable : fs.Reliable
  ready : ∀ type, type ≠ .revision → ManifestReady env boxId type (manifests type) fs
  plain : ∀ type, type ≠ .revision →
    ∀ e ∈ manifestEntries type (env.fromUtf8 (manifests type)), IsPair type e

/-- What a manifest lists. -/
def listedPairs (env : Env) (manifests : ContentType → QByteArray) (type : ContentType) :
    List Entry :=
  manifestEntries type (env.fromUtf8 (manifests type))

section Whole

variable {manifests : ContentType → QByteArray}

/-- A local content lists the collected pairs. -/
theorem mem_sourceList (media : type ≠ .revision) :
    e ∈ (Content.new env fs type boxId true).1.sourceList ↔
      IsPair type e ∧ Collected env boxId fs type e := by
  rw [sourceList_local media, List.mem_filter, mem_scan]
  constructor
  · rintro ⟨⟨-, pair, visible, staged⟩, trusted⟩
    exact ⟨pair, visible, staged, trusted⟩
  · rintro ⟨pair, visible, staged, trusted⟩
    exact ⟨⟨media, pair, visible, staged⟩, trusted⟩

theorem isPair_of_mem_sourceList (media : type ≠ .revision)
    (mem : e ∈ (Content.new env fs type boxId true).1.sourceList) : IsPair type e :=
  ((mem_sourceList media).mp mem).1

theorem sourceList_nodup (media : type ≠ .revision) :
    (Content.new env fs type boxId true).1.sourceList.Nodup := by
  rw [sourceList_local media]
  exact scan_nodup.filter _

/-- **The outcome of a sync** for the pairs of either type. -/
theorem syncContent_outcome (cm : ContentManager)
    (input : SyncInput env cm.loginInfo.boxId manifests fs) (media : type ≠ .revision) :
    Outcome env cm.loginInfo.boxId type (listedPairs env manifests type)
      (Content.new env fs type cm.loginInfo.boxId true).1.sourceList fs
      (cm.syncContent env fs).2.2 := by
  let boxId := cm.loginInfo.boxId
  let music := (Content.new env fs .music boxId true).1
  let advert := (Content.new env fs .advert boxId true).1
  let control := (Content.new env fs .revision boxId true).1
  let fs₁ := (music.sync env fs).2
  let fs₂ := (advert.sync env fs₁).2
  have whole : (cm.syncContent env fs).2.2 = (control.sync env fs₂).2 :=
    (cm.syncContent_eq env fs).2
  have first : Synced env boxId .music (listedPairs env manifests .music) music.sourceList fs fs₁ :=
    (localContent_new (by simp)).sync_synced (by simp) input.reliable
      (fun _ => isPair_of_mem_sourceList (by simp)) (sourceList_nodup (by simp))
      (fun e mem => ((mem_sourceList (by simp)).mp mem).2.staged) (input.ready .music (by simp))
  have kept (root : Path) (e : Entry)
      (at_ : root = env.station.boxDir boxId ∨ root = env.station.media) :
      fs₁.read (pairPath root .advert e) = fs.read (pairPath root .advert e) :=
    first.frame.read_otherPair (by simp) (by simp) (by simp) root e at_
  have second : Synced env boxId .advert (listedPairs env manifests .advert) advert.sourceList
      fs₁ fs₂ := by
    refine (localContent_new (by simp)).sync_synced (by simp) first.reliable
      (fun _ => isPair_of_mem_sourceList (by simp)) (sourceList_nodup (by simp))
      (fun e mem => ?_) ?_
    · rw [kept _ e (.inl rfl)]
      exact ((mem_sourceList (by simp)).mp mem).2.staged
    · exact (input.ready .advert (by simp)).of_frame (by simp) (by simp) first.frame
  have third : ControlFrame env boxId fs₂ (control.sync env fs₂).2 := controlContent_new.sync_frame
  rw [whole]
  cases type with
  | music =>
      refine first.outcome (fun _ => isPair_of_mem_sourceList (by simp)) (fun _ _ _ => rfl)
        (fun root e at_ => ?_)
        fun e plain trusted => second.trust_mono e plain (third.trust e trusted)
      rw [third.read_pair root e at_]
      exact second.frame.read_otherPair (by simp) (by simp) (by simp) root e at_
  | advert =>
      exact second.outcome (fun _ => isPair_of_mem_sourceList (by simp))
        (fun root e at_ => kept root e at_)
        (fun root e at_ => third.read_pair root e at_) fun e _ => third.trust e
  | revision => exact absurd rfl media

/-- **A sync converges exactly when the excess files of each type are visible and lie in
one directory**, and no name of a listed file that is to be installed is hidden. -/
theorem sync_converges_iff (cm : ContentManager)
    (input : SyncInput env cm.loginInfo.boxId manifests fs) :
    (∀ type, type ≠ .revision → Converged env cm.loginInfo.boxId (listedPairs env manifests type)
      type fs (cm.syncContent env fs).2.2) ↔
    ∀ type, type ≠ .revision → Convergent env cm.loginInfo.boxId (listedPairs env manifests type)
      type fs := by
  have each (type : ContentType) (media : type ≠ .revision) :
      Converged env cm.loginInfo.boxId (listedPairs env manifests type) type fs
          (cm.syncContent env fs).2.2 ↔
        Convergent env cm.loginInfo.boxId (listedPairs env manifests type) type fs :=
    (syncContent_outcome cm input media).converged_iff (fun e => mem_sourceList media)
      (input.plain type media)
  exact ⟨fun converged type media => (each type media).mp (converged type media),
    fun convergent type media => (each type media).mpr (convergent type media)⟩

end Whole

/-! ### Excess files in two channels -/

/-- A disk with both manifests downloaded, and with the given files in the music tree. -/
def FileSystem.demoTree (files : List (Path × QByteArray)) : FileSystem :=
  let st := Env.demo.station
  let downloaded :=
    ((FileSystem.blank.put (st.commandFile (str "7")) []).put (st.chanelsFile (str "7"))
      (ascii "rock=ftp/rock/a.mp3")).put (st.adverttableFile (str "7")) (ascii "x.mp3;1")
  let marked := (downloaded.setSettingsValue (st.revstorage (str "7")) (str "chanels") (.int 1)
    ).setSettingsValue (st.revstorage (str "7")) (str "adverttable") (.int 1)
  files.foldl (fun fs file => fs.put (st.media ++ file.1) file.2) marked

/-- The manifests of that disk. -/
def demoManifests : ContentType → QByteArray
  | .music => ascii "rock=ftp/rock/a.mp3"
  | _ => ascii "x.mp3;1"

/-- The manager of the concrete runs. -/
def ContentManager.demo : ContentManager := { loginInfo := .demo }

/-- Two installed files that are not listed, in two channels. -/
def FileSystem.demoTwoChannels : FileSystem :=
  .demoTree [([str "music", str "jazz", str "c.mp3"], []),
    ([str "music", str "rock", str "b.mp3"], [])]

/-- One installed file that is not listed, and the listed file staged and trusted. -/
def FileSystem.demoOneChannel : FileSystem :=
  setTrust .demo (str "7")
    (.demoTree [([str ".sync", str "7", str "music", str "rock", str "a.mp3"], ascii "a"),
      ([str "music", str "rock", str "b.mp3"], [])])
    ⟨str "rock", str "a.mp3"⟩

/-- The listed file is installed, the other one is removed. -/
theorem sync_converges_demo :
    Converged .demo (str "7") (listedPairs .demo demoManifests .music) .music .demoOneChannel
        (ContentManager.demo.syncContent .demo .demoOneChannel).2.2 ∧
      Converged .demo (str "7") (listedPairs .demo demoManifests .advert) .advert .demoOneChannel
        (ContentManager.demo.syncContent .demo .demoOneChannel).2.2 := by
  have input : SyncInput .demo (str "7") demoManifests .demoOneChannel := by
    refine ⟨rfl, fun type media => ?_, fun type media => ?_⟩
    · cases type with
      | music | advert => exact ⟨by decide, by decide, by decide⟩
      | revision => exact absurd rfl media
    · cases type with
      | music | advert => decide
      | revision => exact absurd rfl media
  have converged : ∀ type, type ≠ .revision → Converged .demo (str "7")
      (listedPairs .demo demoManifests type) type .demoOneChannel
      (ContentManager.demo.syncContent .demo .demoOneChannel).2.2 := by
    refine (sync_converges_iff ContentManager.demo input).mpr fun type media => ?_
    have inTree (root : Path) (e : Entry)
        (there : (FileSystem.demoOneChannel.read (pairPath root type e)).isSome) :
        pairPath root type e ∈ FileSystem.demoOneChannel.files.keys :=
      AList.mem_keys.mpr (AList.lookup_isSome.mp there)
    have keys : FileSystem.demoOneChannel.files.keys =
        [[str "media", str "music", str "rock", str "b.mp3"],
          [str "media", str ".sync", str "7", str "music", str "rock", str "a.mp3"],
          [str "media", str ".sync", str "7", str "cron.d", str "adverttable"],
          [str "media", str ".sync", str "7", str "chanels", str "chanels"],
          [str "media", str ".sync", str "7", str "command", str "command"]] := by
      decide
    have onlyExcess (e : Entry) (excess : Excess .demo (str "7")
        (listedPairs .demo demoManifests type) .demoOneChannel type e) :
        type = .music ∧ e = ⟨str "rock", str "b.mp3"⟩ := by
      obtain ⟨dir, file⟩ := e
      obtain ⟨-, unlisted, installed | collected⟩ := excess
      · have place := inTree _ _ installed
        rw [keys] at place
        cases type with
        | music => simpa [pairPath, Env.demo, Station.musicDir, str] using place
        | advert => simp [pairPath, Env.demo, Station.advertDir, str] at place
        | revision => exact absurd rfl media
      · have place := inTree _ _ collected.staged
        rw [keys] at place
        cases type with
        | music =>
            obtain ⟨rfl, rfl⟩ : dir = str "rock" ∧ file = str "a.mp3" := by
              simpa [pairPath, Env.demo, Station.boxDir, Station.mediaSync, Station.musicDir, str]
                using place
            exact absurd (by decide) unlisted
        | advert =>
            simp [pairPath, Env.demo, Station.boxDir, Station.mediaSync, Station.advertDir,
              str] at place
        | revision => exact absurd rfl media
    have visible : ∀ e ∈ listedPairs .demo demoManifests type, VisiblePair type e := by
      cases type with
      | music | advert => decide
      | revision => exact absurd rfl media
    refine ⟨fun e excess => ?_, fun e e' excess excess' => ?_, fun e mem _ _ => visible e mem⟩
    · obtain ⟨rfl, rfl⟩ := onlyExcess e excess
      decide
    · rw [(onlyExcess e excess).2, (onlyExcess e' excess').2]
  exact ⟨converged .music (by simp), converged .advert (by simp)⟩

/-- The first of the two files stays. -/
theorem sync_diverges :
    SyncInput .demo (str "7") demoManifests .demoTwoChannels ∧
      ¬ ∀ type, type ≠ .revision → Converged .demo (str "7") (listedPairs .demo demoManifests type)
        type .demoTwoChannels (ContentManager.demo.syncContent .demo .demoTwoChannels).2.2 := by
  constructor
  · refine ⟨rfl, fun type media => ?_, fun type media => ?_⟩
    · cases type with
      | music | advert => exact ⟨by decide, by decide, by decide⟩
      | revision => exact absurd rfl media
    · cases type with
      | music | advert => decide
      | revision => exact absurd rfl media
  · intro converged
    have stays := (converged .music (by simp)).nothingElse ⟨str "jazz", str "c.mp3"⟩ (by decide)
      (by decide)
    exact absurd stays (by decide)

end MediaUpdater
