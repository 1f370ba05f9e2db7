import MediaUpdater.Content.Convergence
import MediaUpdater.Content.Queue

/-!
# The disk of a pass that mirrors the server

`Progress` is what the second stage of a pass may do to the disk that it started with,
when the server delivers what it holds: the manifests and the installed files stay, the
files that were trusted stay staged, and a file becomes trusted only when the bytes of
the server are staged for it.

A sync of such a disk installs, for every listed file, what `carried` says: the bytes of
the server for a file that was pending, and otherwise what had been there before.

## Main results

* `Progress.next` — what a step needs to keep the progress.
* `Progress.mirrors` — what a sync makes of the progress.
-/

namespace MediaUpdater

open FileSystem CheckDownloadedContent

variable {env : Env} {boxId : QString} {login : LoginInfo} {type type' : ContentType}
variable {manifests : ContentType → QByteArray} {server : QUrl → Option QByteArray}
variable {fs₀ fs fs' : FileSystem} {e : Entry} {entries : List Entry}

/-- The address of a file of a content type on the server: all channels share one directory. -/
def mediaUrl (info : LoginInfo) (type : ContentType) (e : Entry) : QUrl where
  scheme := info.scheme
  host := info.host
  path := info.prefixSlash ++ Path.slashed [type.dir] ++ e.fileName
  port := info.port
  userName := info.login
  password := info.password

/-! ### What the second stage starts with -/

/-- The pair is not listed, and is installed or staged. -/
structure Stray (env : Env) (boxId : QString) (listed : List Entry) (fs : FileSystem)
    (type : ContentType) (e : Entry) : Prop where
  pair : IsPair type e
  unlisted : e ∉ listed
  held : (fs.read (pairPath env.station.media type e)).isSome ∨
    (fs.read (pairPath (env.station.boxDir boxId) type e)).isSome

/-- The directories of the staging area that no channel may be named after. -/
def Station.reservedDirs : List QString :=
  [Station.advertDir, str "command", str "chanels", str "cron.d"]

/-- **What a mirroring pass relies on** when its second stage starts: the calls succeed, the
manifests have been downloaded, and a directory scan sees what a sync has to see. -/
structure Mirrorable (env : Env) (boxId : QString) (manifests : ContentType → QByteArray)
    (fs : FileSystem) : Prop where
  input : SyncInput env boxId manifests fs
  channels : ∀ e ∈ listedPairs env manifests .music, e.dirName ∉ Station.reservedDirs
  visible : ∀ type, type ≠ .revision → ∀ e ∈ listedPairs env manifests type, VisiblePair type e
  /-- No two pending files share a name. -/
  distinct : ∀ x ∈ pendingEntries env boxId fs .advert ++ pendingEntries env boxId fs .music,
    ∀ y ∈ pendingEntries env boxId fs .advert ++ pendingEntries env boxId fs .music,
      x.fileName = y.fileName → x = y
  /-- A stray file is visible, and all of them lie in one directory. -/
  strays : ∀ type, type ≠ .revision →
      ∀ e, Stray env boxId (listedPairs env manifests type) fs type e →
    VisiblePair type e
  oneDir : ∀ type, type ≠ .revision → ∀ e e',
    Stray env boxId (listedPairs env manifests type) fs type e →
      Stray env boxId (listedPairs env manifests type) fs type e' → e.dirName = e'.dirName

namespace Mirrorable

variable (ready : Mirrorable env boxId manifests fs₀)

include ready

/-- The manifests are what the network contents read. -/
theorem stagedEntries_eq (media : type ≠ .revision) :
    stagedEntries env boxId fs₀ type = listedPairs env manifests type := by
  obtain ⟨-, read, status⟩ := ready.input.ready type media
  simp only [stagedEntries, if_pos status, read]
  rfl

theorem pairs : ∀ type, type ≠ .revision → ∀ e ∈ stagedEntries env boxId fs₀ type,
    IsPair type e := by
  intro type media e mem
  rw [ready.stagedEntries_eq media] at mem
  exact ready.input.plain type media e mem

theorem isPair_of_pending (media : type ≠ .revision)
    (pending : e ∈ pendingEntries env boxId fs₀ type) :
    IsPair type e :=
  ready.pairs type media e (List.mem_of_mem_filter pending)

theorem listed_of_pending (media : type ≠ .revision)
    (pending : e ∈ pendingEntries env boxId fs₀ type) :
    e ∈ listedPairs env manifests type := by
  rw [← ready.stagedEntries_eq media]
  exact List.mem_of_mem_filter pending

/-- No entry is listed for two types. -/
theorem type_eq (media : type ≠ .revision) (media' : type' ≠ .revision)
    (listed : e ∈ listedPairs env manifests type) (listed' : e ∈ listedPairs env manifests type') :
    type = type' := by
  have apart (music : e ∈ listedPairs env manifests .music)
    (advert : e ∈ listedPairs env manifests .advert) :
      False := by
    refine ready.channels e music ?_
    rw [(ready.input.plain .advert (by simp) e advert).advert rfl]
    exact List.mem_cons_self
  cases type with
  | music =>
      cases type' with
      | music => rfl
      | advert => exact (apart listed listed').elim
      | revision => exact absurd rfl media'
  | advert =>
      cases type' with
      | music => exact (apart listed' listed).elim
      | advert => rfl
      | revision => exact absurd rfl media'
  | revision => exact absurd rfl media

/-- Pending pairs with one staging path are one. -/
theorem eq_of_path (media : type ≠ .revision) (pair : IsPair type e) (media' : type' ≠ .revision)
    {x : Entry} (pending : x ∈ pendingEntries env boxId fs₀ type')
    (same : pairPath (env.station.boxDir boxId) type e =
      pairPath (env.station.boxDir boxId) type' x) :
    type = type' ∧ e = x := by
  by_cases types : type = type'
  · subst types
    exact ⟨rfl, pairPath_inj (pair.dirs (ready.isPair_of_pending media' pending)) same⟩
  · exact absurd same (pairPath_ne_of_type media media' types (.inl rfl) (.inl rfl))

end Mirrorable

/-! ### What the second stage does to the disk -/

/-- The bytes of the server are staged for the entry, which was pending. -/
structure Earned (env : Env) (login : LoginInfo) (server : QUrl → Option QByteArray)
    (fs₀ fs : FileSystem) (type : ContentType) (e : Entry) : Prop where
  media : type ≠ .revision
  pending : e ∈ pendingEntries env login.boxId fs₀ type
  served : ∃ bytes, server (mediaUrl login type e) = some bytes ∧
    fs.read (pairPath (env.station.boxDir login.boxId) type e) = some bytes

/-- **The progress of the second stage**, from the disk `fs₀` on. -/
structure Progress (env : Env) (login : LoginInfo) (manifests : ContentType → QByteArray)
    (server : QUrl → Option QByteArray) (fs₀ fs : FileSystem) : Prop where
  reliable : fs.Reliable
  ready : ∀ type, type ≠ .revision → ManifestReady env login.boxId type (manifests type) fs
  revServer : fs.revServer env login.boxId = fs₀.revServer env login.boxId
  installed : ∀ type, type ≠ .revision → ∀ e,
    fs.read (pairPath env.station.media type e) = fs₀.read (pairPath env.station.media type e)
  /-- What was staged is so still, unless it was not trusted and has been removed. -/
  staged : ∀ type, type ≠ .revision → ∀ e, IsPair type e →
      e ∉ pendingEntries env login.boxId fs₀ type →
    fs.read (pairPath (env.station.boxDir login.boxId) type e) =
        fs₀.read (pairPath (env.station.boxDir login.boxId) type e) ∨
      fs.read (pairPath (env.station.boxDir login.boxId) type e) = none ∧
        trust env login.boxId fs₀ e = false
  kept : ∀ e, trust env login.boxId fs₀ e = true → trust env login.boxId fs e = true
  earned : ∀ e, Plain e.dirName → trust env login.boxId fs e = true →
    trust env login.boxId fs₀ e = true ∨ ∃ type, Earned env login server fs₀ fs type e

/-- The paths that a step of the second stage may touch: the INI files, and the staging
paths of pending files that are not trusted yet. -/
def Open (env : Env) (boxId : QString) (fs₀ fs : FileSystem) (p : Path) : Prop :=
  p = env.station.checkstorage boxId ∨ p = env.station.localFile boxId ∨
    ∃ type x, type ≠ .revision ∧ x ∈ pendingEntries env boxId fs₀ type ∧
      trust env boxId fs x = false ∧ p = pairPath (env.station.boxDir boxId) type x

/-- No control file is open. -/
theorem not_open_control {dir file : QString} (advert : dir ≠ Station.advertDir) :
    ¬ Open env boxId fs₀ fs (env.station.boxDir boxId ++ [dir, file]) := by
  rintro (same | same | ⟨type, x, media, -, -, same⟩)
  · simp [Station.checkstorage] at same
  · simp [Station.localFile] at same
  · exact pairPath_ne_control env.station (.inl rfl) media advert same.symm

/-- No installed file is open. -/
theorem not_open_installed : ¬ Open env boxId fs₀ fs (pairPath env.station.media type e) := by
  rintro (same | same | ⟨type', x, -, -, -, same⟩)
  · exact pairPath_ne_checkstorage env.station (.inr rfl) same
  · cases type <;> simp [pairPath, Station.localFile, Station.boxDir, Station.mediaSync, str,
      Station.musicDir, Station.advertDir] at same
  · exact pairPath_boxDir_ne_media env.station boxId same.symm

/-- The staging path of a pair is open only while the pair is pending and not trusted. -/
theorem Mirrorable.not_open_staged (ready : Mirrorable env boxId manifests fs₀)
    (media : type ≠ .revision) (pair : IsPair type e)
    (closed : e ∈ pendingEntries env boxId fs₀ type → trust env boxId fs e = true) :
    ¬ Open env boxId fs₀ fs (pairPath (env.station.boxDir boxId) type e) := by
  rintro (same | same | ⟨type', x, media', pending, untrusted, same⟩)
  · exact pairPath_ne_checkstorage env.station (.inl rfl) same
  · cases type <;> simp [pairPath, Station.localFile] at same
  · obtain ⟨rfl, rfl⟩ := ready.eq_of_path media pair media' pending same
    rw [closed pending] at untrusted
    cases untrusted

/-- A manifest is ready as long as the control files are left alone. -/
theorem ManifestReady.of_controls {touched : Path → Prop} {bytes : QByteArray}
    (manifest : ManifestReady env boxId type bytes fs) (media : type ≠ .revision)
    (frame : Frame touched fs fs')
    (away : ∀ dir file, dir ≠ Station.advertDir → (⟨dir, file⟩ : Entry) ∈
      [⟨str "command", str "command"⟩, ⟨str "command", str "revstorage"⟩, manifestEntry .music,
        manifestEntry .advert] → ¬ touched (env.station.boxDir boxId ++ [dir, file])) :
    ManifestReady env boxId type bytes fs' := by
  obtain ⟨command, readable, status⟩ := manifest
  refine ⟨?_, ?_, ?_⟩
  · rw [← command]
    exact frame.fileExists (away (str "command") (str "command") (by decide) (by simp))
  · rw [← readable]
    cases type with
    | music =>
        exact frame.read _
          (away (str "chanels") (str "chanels") (by decide) (by simp [manifestEntry]))
    | advert =>
        exact frame.read _
          (away (str "cron.d") (str "adverttable") (by decide) (by simp [manifestEntry]))
    | revision => exact absurd rfl media
  · rw [← status]
    exact frame.checkRev (away (str "command") (str "revstorage") (by decide) (by simp)) _

namespace Progress

variable (progress : Progress env login manifests server fs₀ fs)

include progress

/-- **The step lemma of the disk**: a step that touches open paths only, takes trust from no
file and trusts a file only for the bytes of the server keeps the progress. -/
theorem next (mirrorable : Mirrorable env login.boxId manifests fs₀)
    (frame : Frame (Open env login.boxId fs₀ fs) fs fs')
    (mono : ∀ e, trust env login.boxId fs e = true → trust env login.boxId fs' e = true)
    (earns : ∀ e, Plain e.dirName → trust env login.boxId fs' e = true →
      trust env login.boxId fs e = true ∨ ∃ type, Earned env login server fs₀ fs' type e) :
    Progress env login manifests server fs₀ fs' where
  reliable := frame.reliable progress.reliable
  ready type media :=
    (progress.ready type media).of_controls media frame fun _ _ advert _ => not_open_control advert
  revServer := by
    rw [← progress.revServer, FileSystem.revServer, FileSystem.revServer, Station.commandFile,
      frame.read _ (not_open_control (by decide))]
  installed type media e := by
    rw [← progress.installed type media e]
    exact frame.read _ not_open_installed
  staged type media e pair other := by
    rw [frame.read _ (mirrorable.not_open_staged media pair fun pending => absurd pending other)]
    exact progress.staged type media e pair other
  kept e trusted := mono e (progress.kept e trusted)
  earned e plain trusted := by
    rcases earns e plain trusted with before | earned
    · refine (progress.earned e plain before).imp_right ?_
      rintro ⟨type, media, pending, bytes, served, read⟩
      refine ⟨type, media, pending, bytes, served, ?_⟩
      rw [← read]
      exact frame.read _
        (mirrorable.not_open_staged media (mirrorable.isPair_of_pending media pending)
        fun _ => before)
    · exact .inr earned

end Progress

/-- **The second stage starts with some progress**: the disk has been swept of what was not
trusted. -/
theorem Mirrorable.progress (ready : Mirrorable env login.boxId manifests fs₀)
    (adverts : Swept env login.boxId (stagedEntries env login.boxId fs₀ .advert) fs₀ fs)
    (tracks : Swept env login.boxId (stagedEntries env login.boxId fs₀ .music) fs fs') :
    Progress env login manifests server fs₀ fs' := by
  have swept := adverts.append tracks
  have reliable := ready.input.reliable
  -- no control file is swept, since no channel has the name of its directory
  have controls (dir file : QString) (advert : dir ≠ Station.advertDir)
    (reserved : dir ∈ Station.reservedDirs) :
      ¬ (env.station.boxDir login.boxId ++ [dir, file] = env.station.checkstorage login.boxId ∨
        ∃ x ∈ stagedEntries env login.boxId fs₀ .advert ++ stagedEntries env login.boxId fs₀ .music,
          trust env login.boxId fs₀ x = false ∧ env.station.boxDir login.boxId ++ [dir, file] =
            pairPath (env.station.boxDir login.boxId) .revision x) := by
    rintro (same | ⟨x, mem, -, same⟩)
    · simp [Station.checkstorage] at same
    · obtain ⟨rfl, -⟩ : dir = x.dirName ∧ file = x.fileName := by simpa [pairPath] using same
      rcases List.mem_append.mp mem with mem | mem
      · exact advert ((ready.pairs .advert (by simp) x mem).advert rfl)
      · rw [ready.stagedEntries_eq (by simp)] at mem
        exact ready.channels x mem reserved
  refine ⟨swept.frame.reliable reliable, fun type media => ?_, ?_, fun type media e => ?_,
    fun type media e pair _ => ?_, fun e trusted => ?_, fun e _ trusted => .inl ?_⟩
  · refine (ready.input.ready type media).of_controls media swept.frame fun dir file advert mem =>
      controls dir file advert ?_
    simp only [manifestEntry, List.mem_cons, Entry.mk.injEq, List.not_mem_nil, or_false] at mem
    rcases mem with ⟨rfl, -⟩ | ⟨rfl, -⟩ | ⟨rfl, -⟩ | ⟨rfl, -⟩ <;> decide
  · rw [FileSystem.revServer, FileSystem.revServer, Station.commandFile,
      swept.frame.read _ (controls _ _ (by decide) (by decide))]
  · refine swept.read_outside ?_
    rintro ⟨rest, same⟩
    cases type with
    | music | advert =>
        simp [pairPath, Station.boxDir, Station.mediaSync, Station.musicDir, Station.advertDir,
          str] at same
    | revision => exact media rfl
  · cases trusted : trust env login.boxId fs₀ e with
    | true => exact .inl (swept.read_trusted media pair trusted)
    | false =>
        by_cases touched : pairPath (env.station.boxDir login.boxId) type e =
              env.station.checkstorage login.boxId ∨
            ∃ x ∈ stagedEntries env login.boxId fs₀ .advert ++
              stagedEntries env login.boxId fs₀ .music, trust env login.boxId fs₀ x = false ∧
            pairPath (env.station.boxDir login.boxId) type e =
                pairPath (env.station.boxDir login.boxId) .revision x
        · obtain ⟨x, mem, untrusted, same⟩ := touched.resolve_left
            (pairPath_ne_checkstorage env.station (.inl rfl))
          refine .inr ⟨?_, rfl⟩
          rw [same]
          exact read_eq_none (swept.gone reliable x mem untrusted)
        · exact .inl (swept.frame.read _ touched)
  · rw [swept.trust, trusted]
  · rw [← swept.trust, trusted]

/-! ### What a sync makes of it -/

/-- What becomes of a listed file that is not downloaded: the staged file if it is trusted and
there, and the installed one otherwise. -/
def carried (env : Env) (boxId : QString) (fs : FileSystem) (type : ContentType) (e : Entry) :
    Option QByteArray :=
  if trust env boxId fs e then
    (fs.read (pairPath (env.station.boxDir boxId) type e)).or
    (fs.read (pairPath env.station.media type e))
  else fs.read (pairPath env.station.media type e)

/-- **The installed tree mirrors the server**, but for pending files that have not been
downloaded. -/
structure Mirrors (env : Env) (login : LoginInfo) (server : QUrl → Option QByteArray)
    (listed : List Entry) (type : ContentType) (fs fs' : FileSystem) : Prop where
  nothingElse : ∀ e, IsPair type e → e ∉ listed →
      fs'.read (pairPath env.station.media type e) = none
  carries : ∀ e ∈ listed, isPending env login.boxId fs type e = false →
    fs'.read (pairPath env.station.media type e) = carried env login.boxId fs type e
  fetches : ∀ e ∈ listed, isPending env login.boxId fs type e = true →
    fs'.read (pairPath env.station.media type e) = none ∨
      fs'.read (pairPath env.station.media type e) = server (mediaUrl login type e)

/-- A listed file is not deleted by a convergent sync. -/
theorem Outcome.read_listed {listed moved : List Entry}
    (outcome : Outcome env boxId type listed moved fs fs')
    (mem_moved : ∀ e, e ∈ moved ↔ IsPair type e ∧ Collected env boxId fs type e)
    (convergent : Convergent env boxId listed type fs) (pair : IsPair type e) (mem : e ∈ listed) :
    fs'.read (pairPath env.station.media type e) =
      if e ∈ moved then fs.read (pairPath (env.station.boxDir boxId) type e)
      else fs.read (pairPath env.station.media type e) := by
  obtain ⟨extra, mem_extra, installed⟩ := outcome.installed
  have excess (x : Entry) (mem : x ∈ extra) : Excess env boxId listed fs type x := by
    obtain ⟨pair, -, unlisted, held⟩ := (mem_extra x).mp mem
    exact ⟨pair, unlisted, held.symm.imp id fun mem => ((mem_moved x).mp mem).2⟩
  rw [installed e pair, if_neg]
  rintro ⟨last, atLast, sameDir, x, inExtra, sameFile⟩
  have dirs :=
    convergent.oneDir x last (excess x inExtra) (excess last (List.mem_of_getLast? atLast))
  have whole : x = e := by
    obtain ⟨dir, file⟩ := x
    obtain ⟨dir', file'⟩ := e
    simp only at dirs sameDir sameFile
    rw [dirs, sameDir, sameFile]
  exact (excess x inExtra).unlisted (whole ▸ mem)

namespace Progress

variable (progress : Progress env login manifests server fs₀ fs)
variable (mirrorable : Mirrorable env login.boxId manifests fs₀)

include progress mirrorable

theorem syncInput : SyncInput env login.boxId manifests fs :=
  ⟨progress.reliable, progress.ready, mirrorable.input.plain⟩

/-- The excess files are the strays from the start. -/
theorem stray (media : type ≠ .revision)
    (excess : Excess env login.boxId (listedPairs env manifests type) fs type e) :
    Stray env login.boxId (listedPairs env manifests type) fs₀ type e := by
  obtain ⟨pair, unlisted, held⟩ := excess
  refine ⟨pair, unlisted, held.imp (fun installed => ?_) fun collected => ?_⟩
  · rwa [← progress.installed type media e]
  · have other : e ∉ pendingEntries env login.boxId fs₀ type := fun pending =>
      unlisted (mirrorable.listed_of_pending media pending)
    rcases progress.staged type media e pair other with same | ⟨gone, -⟩
    · rw [← same]
      exact collected.staged
    · have there := collected.staged
      rw [gone] at there
      cases there

theorem convergent (media : type ≠ .revision) :
    Convergent env login.boxId (listedPairs env manifests type) type fs where
  visible e excess := mirrorable.strays type media e (progress.stray mirrorable media excess)
  oneDir e e' excess excess' := mirrorable.oneDir type media e e'
    (progress.stray mirrorable media excess) (progress.stray mirrorable media excess')
  listedVisible e mem _ _ := mirrorable.visible type media e mem

/-- What a sync makes of a listed file. -/
theorem read_synced (cm : ContentManager) (box : cm.loginInfo.boxId = login.boxId)
    (media : type ≠ .revision) (mem : e ∈ listedPairs env manifests type) :
    (cm.syncContent env fs).2.2.read (pairPath env.station.media type e) =
      if trust env login.boxId fs e then
        (fs.read (pairPath (env.station.boxDir login.boxId) type e)).or
          (fs₀.read (pairPath env.station.media type e))
      else fs₀.read (pairPath env.station.media type e) := by
  have input : SyncInput env cm.loginInfo.boxId manifests fs :=
    box.symm ▸ progress.syncInput mirrorable
  have outcome := syncContent_outcome cm input media
  rw [box] at outcome
  rw [outcome.read_listed (fun e => mem_sourceList media) (progress.convergent mirrorable media)
    (mirrorable.input.plain type media e mem) mem, progress.installed type media e]
  have collected : e ∈ (Content.new env fs type login.boxId true).1.sourceList ↔
      (fs.read (pairPath (env.station.boxDir login.boxId) type e)).isSome ∧
        trust env login.boxId fs e = true := by
    rw [mem_sourceList media, and_iff_right (mirrorable.input.plain type media e mem)]
    exact ⟨fun collected => ⟨collected.staged, collected.trusted⟩,
      fun both => ⟨mirrorable.visible type media e mem, both.1, both.2⟩⟩
  rw [if_congr collected rfl rfl]
  cases trust env login.boxId fs e <;> cases fs.read
    (pairPath (env.station.boxDir login.boxId) type e) <;> simp

/-- A file that is trusted but was pending has been downloaded from its own address. -/
theorem served (media : type ≠ .revision) (pending : e ∈ pendingEntries env login.boxId fs₀ type)
    (trusted : trust env login.boxId fs e = true) :
    ∃ bytes, server (mediaUrl login type e) = some bytes ∧
      fs.read (pairPath (env.station.boxDir login.boxId) type e) = some bytes := by
  have untrusted : trust env login.boxId fs₀ e = false := by
    have neither := (List.mem_filter.mp pending).2
    rw [isPending, Bool.not_eq_true', Bool.or_eq_false_iff] at neither
    exact neither.1
  have plain := (mirrorable.isPair_of_pending media pending).dir
  rcases progress.earned e plain trusted with before | ⟨type', media', pending', served⟩
  · rw [untrusted] at before
    cases before
  · obtain rfl := mirrorable.type_eq media media' (mirrorable.listed_of_pending media pending)
      (mirrorable.listed_of_pending media' pending')
    exact served

/-- **A sync mirrors the server.** -/
theorem mirrors (cm : ContentManager) (box : cm.loginInfo.boxId = login.boxId)
    (media : type ≠ .revision) :
    Mirrors env login server (listedPairs env manifests type) type fs₀
      (cm.syncContent env fs).2.2 := by
  have input : SyncInput env cm.loginInfo.boxId manifests fs :=
    box.symm ▸ progress.syncInput mirrorable
  have outcome := syncContent_outcome cm input media
  rw [box] at outcome
  have converged := (outcome.converged_iff (fun e => mem_sourceList media)
    (mirrorable.input.plain type media)).mpr (progress.convergent mirrorable media)
  have pending_iff (e : Entry) (mem : e ∈ listedPairs env manifests type) :
      e ∈ pendingEntries env login.boxId fs₀ type ↔
      isPending env login.boxId fs₀ type e = true := by
    rw [pendingEntries, List.mem_filter, mirrorable.stagedEntries_eq media, and_iff_right mem]
  refine ⟨fun e pair unlisted => ?_, fun e mem settled => ?_, fun e mem pending => ?_⟩
  · by_contra there
    exact unlisted (converged.nothingElse e pair (Option.isSome_iff_ne_none.mpr there))
  · have other : e ∉ pendingEntries env login.boxId fs₀ type := by
      rw [pending_iff e mem, settled]
      simp
    have pair := mirrorable.input.plain type media e mem
    rw [progress.read_synced mirrorable cm box media mem, carried]
    cases trusted : trust env login.boxId fs₀ e with
    | true =>
        rw [progress.kept e trusted]
        rcases progress.staged type media e pair other with same | ⟨-, untrusted⟩
        · rw [same]
        · rw [trusted] at untrusted
          cases untrusted
    | false =>
        -- an installed file stays untrusted, since no file of its name is downloaded
        have still : trust env login.boxId fs e = false := by
          by_contra now
          rcases progress.earned e pair.dir (by simpa using now) with before
            | ⟨type', media', pending', -⟩
          · rw [trusted] at before
            cases before
          · obtain rfl :=
              mirrorable.type_eq media media' mem (mirrorable.listed_of_pending media' pending')
            exact other pending'
        rw [still]
        simp
  · have absent : fs₀.read (pairPath env.station.media type e) = none := by
      have neither := pending
      rw [isPending, Bool.not_eq_true', Bool.or_eq_false_iff,
        installedPath_eq media (mirrorable.input.plain type media e mem)] at neither
      exact read_eq_none neither.2
    rw [progress.read_synced mirrorable cm box media mem, absent]
    cases trusted : trust env login.boxId fs e with
    | true =>
        obtain ⟨bytes, at_, read⟩ :=
          progress.served mirrorable media ((pending_iff e mem).mpr pending) trusted
        exact .inr (by rw [read, at_]; rfl)
    | false => exact .inl (if_neg (by simp))

/-- A pending file that has become trusted is installed with the bytes of the server. -/
theorem installs (cm : ContentManager) (box : cm.loginInfo.boxId = login.boxId)
    (media : type ≠ .revision)
    (pending : e ∈ pendingEntries env login.boxId fs₀ type)
    (trusted : trust env login.boxId fs e = true) :
    ∃ bytes, server (mediaUrl login type e) = some bytes ∧
      (cm.syncContent env fs).2.2.read (pairPath env.station.media type e) = some bytes := by
  obtain ⟨bytes, at_, read⟩ := progress.served mirrorable media pending trusted
  refine ⟨bytes, at_, ?_⟩
  rw [progress.read_synced mirrorable cm box media (mirrorable.listed_of_pending media pending),
    trusted, read]
  rfl

end Progress

/-! ### The revision -/

end MediaUpdater
