import MediaUpdater.Content.Pending

/-!
# From the manifests to the queue

What one manifest contributes to the download queue, and what is left of two of them
once both have been entered into the map of the manager.

## Main results

* `NetworkContent.collects_needed` — the collection lists every entry of the manifest and
  queues those that are neither trusted nor installed; the files that `checkFile` removes
  on the way are staged, untrusted ones.
* `ContentManager.contentFiles_complete_iff` — no pending file is missing from the queue
  exactly when no two of them share a file name.
-/

namespace MediaUpdater

open FileSystem CheckDownloadedContent

variable {env : Env} {boxId : QString} {fs fs' : FileSystem} {type : ContentType}
variable {c : Content} {e : Entry} {entries : List Entry}

/-! ### One manifest -/

namespace Swept

/-- Nothing outside the staging area is swept. -/
theorem read_outside (swept : Swept env boxId entries fs fs') {p : Path}
    (outside : ¬ env.station.boxDir boxId <+: p) : fs'.read p = fs.read p := by
  refine swept.frame.read p ?_
  rintro (same | ⟨e, -, -, same⟩)
  · exact outside ⟨[str "checkstorage"], same.symm⟩
  · exact outside ⟨[e.dirName, e.fileName], same.symm⟩

/-- No trusted file is swept: the place where an entry is looked for is either the staging
path of that very entry or no staging path. -/
theorem read_trusted (swept : Swept env boxId entries fs fs')
    (media : type ≠ .revision)
    (pair : IsPair type e) (trusted : CheckDownloadedContent.trust env boxId fs e = true) :
    fs'.read (pairPath (env.station.boxDir boxId) type e) =
      fs.read (pairPath (env.station.boxDir boxId) type e) := by
  refine swept.frame.read _ ?_
  rintro (same | ⟨x, -, untrusted, same⟩)
  · exact pairPath_ne_checkstorage env.station (.inl rfl) same
  · cases type with
    | music => simp [pairPath] at same
    | advert =>
        have whole : x = e := by
          obtain ⟨dirs, files⟩ : Station.advertDir = x.dirName ∧ e.fileName = x.fileName := by
            simpa [pairPath] using same
          obtain ⟨dir, file⟩ := x
          obtain ⟨dir', file'⟩ := e
          simp only at dirs files
          rw [← files, ← dirs, ← show dir' = Station.advertDir from pair.advert rfl]
        rw [whole, trusted] at untrusted
        cases untrusted
    | revision => exact media rfl

end Swept

theorem collectEntries_keeps :
    (Content.collectEntries env c fs entries).1.contentType = c.contentType ∧
      (Content.collectEntries env c fs entries).1.sourceDir = c.sourceDir := by
  induction entries generalizing c fs with
  | nil => exact ⟨rfl, rfl⟩
  | cons e rest ih =>
      rw [Content.collectEntries]
      refine ⟨ih.1.trans ?_, ih.2.trans ?_⟩ <;> split <;> rfl

/-- A network MUSIC or ADVERT content has a place on the server. -/
theorem networkContent_source (media : type ≠ .revision) :
    (Content.new env fs type boxId false).1.contentType = type ∧
      (Content.new env fs type boxId false).1.sourceDir = [type.dir] := by
  have collected (c : Content) (kind : c.contentType = type) (file : Path) :
      (c.collectContentFromFile env fs file).1.contentType = type ∧
        (c.collectContentFromFile env fs file).1.sourceDir = [type.dir] := by
    obtain ⟨contentType, isLocal, box, sourceList, standart, place, sourceDir⟩ := c
    obtain rfl : contentType = type := kind
    unfold Content.collectContentFromFile
    cases contentType with
    | music | advert =>
        simp only
        split
        · split
          · exact collectEntries_keeps
          · exact ⟨rfl, rfl⟩
        · exact ⟨rfl, rfl⟩
    | revision => exact absurd rfl media
  cases type with
  | music => exact collected _ rfl _
  | advert => exact collected _ rfl _
  | revision => exact absurd rfl media

/-! ### The map of the manager -/

/-- No two of the pending files share a file name. -/
def DistinctNames (adverts tracks : List Entry) : Prop :=
  ∀ x ∈ adverts.map (ContentType.advert, ·) ++ tracks.map (ContentType.music, ·),
    ∀ y ∈ adverts.map (ContentType.advert, ·) ++ tracks.map (ContentType.music, ·),
      x.2.fileName = y.2.fileName → x = y

/-- The queue entry is about a pair of a network content. -/
def Placed (env : Env) (boxId : QString) (info : SContentInfo) : Prop :=
  ∃ type, type ≠ .revision ∧ IsPair type info.toEntry ∧ info.content = networkRef env boxId type

namespace ContentManager

variable {cm : ContentManager}

/-- A file that shares its name with no other one of its content stays in the map. -/
theorem lookup_insertInfos_of_mem {login : LoginInfo} {map : AList fun _ : QString => SContentInfo}
    (mem : e ∈ entries) (only : ∀ x ∈ entries, x.fileName = e.fileName → x = e) :
    (insertInfos login c map entries).lookup e.fileName = some (contentInfo login c e) := by
  rcases lookup_insertInfos login c entries map e.fileName with ⟨others, -⟩
    | ⟨x, inList, name, found⟩
  · exact absurd rfl (others e mem)
  · rw [found, only x inList name]

/-- A manager whose map has been filled from two contents. -/
theorem complete_iff_of_map {login : LoginInfo} {adverts tracks : Content}
    (kind : adverts.contentType = .advert) (kind' : tracks.contentType = .music)
    (map : cm.contentFilesMap = insertInfos login tracks
      (insertInfos login adverts ∅ adverts.sourceList) tracks.sourceList) :
    ((∀ e ∈ adverts.sourceList, contentInfo login adverts e ∈ cm.contentFiles) ∧
        ∀ e ∈ tracks.sourceList, contentInfo login tracks e ∈ cm.contentFiles) ↔
      DistinctNames adverts.sourceList tracks.sourceList := by
  have keyed : cm.Keyed := by
    intro name info found
    rw [map] at found
    exact keyed_insertInfos (keyed_insertInfos fun _ _ found => by cases found) name info found
  constructor
  · rintro ⟨allAdverts, allTracks⟩
    have queued (x : ContentType × Entry)
        (mem : x ∈ adverts.sourceList.map (ContentType.advert, ·) ++
          tracks.sourceList.map (ContentType.music, ·)) :
        ∃ info ∈ cm.contentFiles, info.content.contentType = x.1 ∧ info.toEntry = x.2 := by
      rcases List.mem_append.mp mem with mem | mem
      · obtain ⟨e, inList, rfl⟩ := List.mem_map.mp mem
        exact ⟨_, allAdverts e inList, kind, rfl⟩
      · obtain ⟨e, inList, rfl⟩ := List.mem_map.mp mem
        exact ⟨_, allTracks e inList, kind', rfl⟩
    intro x mem y mem' name
    obtain ⟨info, listed, type, entry⟩ := queued x mem
    obtain ⟨info', listed', type', entry'⟩ := queued y mem'
    -- the map is keyed by the names, so the two files are one
    have one : info = info' := by
      refine List.inj_on_of_nodup_map (contentFiles_nodup keyed) listed listed' ?_
      rw [entry, entry', name]
    subst one
    exact Prod.ext (type.symm.trans type') (entry.symm.trans entry')
  · intro distinct
    refine ⟨fun e mem => mem_contentFiles.mpr ⟨e.fileName, ?_⟩,
      fun e mem => mem_contentFiles.mpr ⟨e.fileName, ?_⟩⟩
    · have here := List.mem_append_left (tracks.sourceList.map (ContentType.music, ·))
        (List.mem_map_of_mem (f := (ContentType.advert, ·)) mem)
      rw [map]
      rcases lookup_insertInfos login tracks tracks.sourceList
        (insertInfos login adverts ∅ adverts.sourceList) e.fileName with
        ⟨-, before⟩ | ⟨x, inList, name, -⟩
      · rw [before]
        refine lookup_insertInfos_of_mem mem fun x inList name => ?_
        have there := List.mem_append_left (tracks.sourceList.map (ContentType.music, ·))
          (List.mem_map_of_mem (f := (ContentType.advert, ·)) inList)
        exact congrArg Prod.snd (distinct _ there _ here name)
      · have there := List.mem_append_right (adverts.sourceList.map (ContentType.advert, ·))
          (List.mem_map_of_mem (f := (ContentType.music, ·)) inList)
        exact absurd (congrArg Prod.fst (distinct _ there _ here name)) (by simp)
    · have here := List.mem_append_right (adverts.sourceList.map (ContentType.advert, ·))
        (List.mem_map_of_mem (f := (ContentType.music, ·)) mem)
      rw [map]
      refine lookup_insertInfos_of_mem mem fun x inList name => ?_
      have there := List.mem_append_right (adverts.sourceList.map (ContentType.advert, ·))
        (List.mem_map_of_mem (f := (ContentType.music, ·)) inList)
      exact congrArg Prod.snd (distinct _ there _ here name)

/-- Entering the network content of a type that is not there yet. -/
theorem addNetworkContent_fresh (env : Env) (fs : FileSystem) (cm : ContentManager)
    (media : type ≠ .revision) (fresh : cm.contentMap type = none) :
    let made := Content.new env fs type cm.loginInfo.boxId false
    let added := cm.addNetworkContent env fs type
    added.1.contentFilesMap =
        insertInfos cm.loginInfo made.1 cm.contentFilesMap made.1.sourceList ∧
      added.1.contentMap = Function.update cm.contentMap type (some made.1) ∧
      added.1.loginInfo = cm.loginInfo ∧ added.2 = made.2 := by
  intro made added
  have skip : ¬ ((type = .revision ∧ !cm.isEmpty) ∨
      (type ≠ .revision ∧ (cm.contentMap type).isSome)) := by
    simp [media, fresh]
  have source : made.1.sourceDir ≠ [] := by
    rw [(networkContent_source media : _ ∧ made.1.sourceDir = _).2]
    simp
  have entered : added = (({ cm with
        contentMap := Function.update cm.contentMap type (some made.1) }
      : ContentManager).generateUrlList made.1, made.2) := by
    show cm.addNetworkContent env fs type = _
    rw [addNetworkContent, if_neg skip]
  rw [entered, generateUrlList, if_neg source]
  exact ⟨rfl, rfl, rfl, rfl⟩

/-- **The queue holds every pending file exactly when no two of them share a name.**  Here
the queue is that of the second stage, and each file is looked for with the server path
and the content pointer of its own content. -/
theorem contentFiles_complete_iff (env : Env) (cm : ContentManager) (fs : FileSystem) :
    let adverts := Content.new env fs .advert cm.loginInfo.boxId false
    let tracks := Content.new env adverts.2 .music cm.loginInfo.boxId false
    let first := cm.clear.addNetworkContent env fs .advert
    let queue := (first.1.addNetworkContent env first.2 .music).1.contentFiles
    ((∀ e ∈ adverts.1.sourceList, contentInfo cm.loginInfo adverts.1 e ∈ queue) ∧
        ∀ e ∈ tracks.1.sourceList, contentInfo cm.loginInfo tracks.1 e ∈ queue) ↔
      DistinctNames adverts.1.sourceList tracks.1.sourceList := by
  intro adverts tracks first queue
  obtain ⟨map, contents, login, disk⟩ : first.1.contentFilesMap =
      insertInfos cm.loginInfo adverts.1 ∅ adverts.1.sourceList ∧ _ ∧ _ ∧ _ :=
    addNetworkContent_fresh env fs cm.clear (by simp) rfl
  have fresh : first.1.contentMap .music = none := by
    rw [contents]
    rfl
  obtain ⟨map', -, -, -⟩ := addNetworkContent_fresh env first.2 first.1 (by simp) fresh
  rw [map, login, disk] at map'
  exact complete_iff_of_map (networkContent_source (by simp)).1 (networkContent_source (by simp)).1
    map'

/-- **What the second stage starts with, under every outcome of its calls.**  Only pairs are
queued, for the network contents they belong to, and the disk is swept twice. -/
theorem placed_stage (cm : ContentManager) (pairs : ∀ type, type ≠ .revision →
      ∀ e ∈ stagedEntries env cm.loginInfo.boxId fs type, IsPair type e) :
    let advert := cm.clear.addNetworkContent env fs .advert
    let music := advert.1.addNetworkContent env advert.2 .music
    music.1.loginInfo = cm.loginInfo ∧
      (∀ info ∈ music.1.contentFiles, Placed env cm.loginInfo.boxId info) ∧
      Swept env cm.loginInfo.boxId (stagedEntries env cm.loginInfo.boxId fs .advert) fs advert.2 ∧
      Swept env cm.loginInfo.boxId (stagedEntries env cm.loginInfo.boxId fs .music) advert.2
        music.2 := by
  intro advert music
  obtain ⟨-, ref, -, listed, -, swept⟩ := networkContent_new (by simp) (pairs .advert (by simp))
  obtain ⟨map, contents, login, disk⟩ : advert.1.contentFilesMap = _ ∧ _ ∧ _ ∧ _ :=
    addNetworkContent_fresh env fs cm.clear (by simp) rfl
  have fresh : advert.1.contentMap .music = none := by
    rw [contents]
    rfl
  rw [← show advert.2 = (Content.new env fs .advert cm.loginInfo.boxId false).2 from disk] at swept
  have staged : stagedEntries env cm.loginInfo.boxId advert.2 .music =
      stagedEntries env cm.loginInfo.boxId fs .music :=
    swept.stagedEntries_eq (by simp) (not_mem_stagedAdverts pairs (by decide))
      (not_mem_stagedAdverts pairs (by decide))
  have pairs' : ∀ e ∈ stagedEntries env cm.loginInfo.boxId advert.2 .music, IsPair .music e :=
    staged ▸ pairs .music (by simp)
  obtain ⟨-, ref', -, listed', -, swept'⟩ := networkContent_new (by simp) pairs'
  obtain ⟨map', -, login', disk'⟩ : music.1.contentFilesMap = _ ∧ _ ∧ _ ∧ _ :=
    addNetworkContent_fresh env advert.2 advert.1 (by simp) fresh
  have box : advert.1.loginInfo = cm.loginInfo := login
  rw [box] at map' disk'
  rw [staged, ← show music.2 = _ from disk'] at swept'
  refine ⟨login'.trans login, fun info mem => ?_, swept, swept'⟩
  obtain ⟨name, found⟩ := mem_contentFiles.mp mem
  rw [map', map] at found
  rcases lookup_insertInfos _ _ _ _ name with ⟨-, before⟩ | ⟨e, inList, -, new⟩
  · rw [before] at found
    rcases lookup_insertInfos _ _ _ _ name with ⟨-, before⟩ | ⟨e, inList, -, new⟩
    · rw [before] at found
      cases found
    · obtain rfl := Option.some.inj (new.symm.trans found)
      exact ⟨.advert, by simp, pairs .advert (by simp) e (listed e inList), ref⟩
  · obtain rfl := Option.some.inj (new.symm.trans found)
    exact ⟨.music, by simp, pairs' e (listed' e inList), ref'⟩

/-- A music manifest with one file name in two channels. -/
def demoChannels : FileSystem :=
  setRev .demo (str "7")
    (blank.put (Env.demo.station.chanelsFile (str "7"))
      (ascii "rock=ftp/rock/a.mp3\njazz=ftp/jazz/a.mp3"))
    (str "chanels") .downloadOk

/-- The file of the second channel replaces that of the first in the map. -/
theorem contentFiles_complete_fails :
    let adverts := Content.new .demo demoChannels .advert (str "7") false
    let tracks := Content.new .demo adverts.2 .music (str "7") false
    let first := ContentManager.addNetworkContent .demo (clear { loginInfo := .demo })
      demoChannels .advert
    let queue := (first.1.addNetworkContent .demo first.2 .music).1.contentFiles
    tracks.1.sourceList = [⟨str "rock", str "a.mp3"⟩, ⟨str "jazz", str "a.mp3"⟩] ∧
      ¬ ((∀ e ∈ adverts.1.sourceList, contentInfo .demo adverts.1 e ∈ queue) ∧
        ∀ e ∈ tracks.1.sourceList, contentInfo .demo tracks.1 e ∈ queue) := by
  decide

end ContentManager

end MediaUpdater
