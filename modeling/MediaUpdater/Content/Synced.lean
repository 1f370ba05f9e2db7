import MediaUpdater.Content.Deletion

/-!
# What a sync does to the media tree

`Content::sync` of a MUSIC or ADVERT content on a disk whose calls all succeed, in
terms of pairs: the collected pairs are moved (`Moved`), then the pairs that are
installed but not listed are removed, all of them from one directory (`Cleaned`).

## Main results

* `LocalContent.copyEntries_moved` — the specification of the copying loop.
* `LocalContent.deleteExcessFiles_cleaned` — the specification of the deletion.
* `LocalContent.sync_drained`, `LocalContent.sync_synced` — both together.
-/

namespace MediaUpdater

open FileSystem CheckDownloadedContent

variable {env : Env} {boxId : QString} {fs fs' fs'' : FileSystem} {type : ContentType}
variable {c : Content} {e e' : Entry}

/-! ### Paths that are no pairs -/

section Apart

variable (st : Station)

theorem pairPath_ne_checkstorage {root : Path} (at_ : root = st.boxDir boxId ∨ root = st.media) :
    pairPath root type e ≠ st.checkstorage boxId := by
  rcases at_ with rfl | rfl <;> cases type <;>
    simp [pairPath, Station.checkstorage, Station.boxDir, Station.mediaSync, Station.musicDir,
      Station.advertDir, str]

theorem pairPath_ne_control {root : Path} (at_ : root = st.boxDir boxId ∨ root = st.media)
    (media : type ≠ .revision) {dir file : QString} (advert : dir ≠ Station.advertDir) :
    pairPath root type e ≠ st.boxDir boxId ++ [dir, file] := by
  intro same
  cases type with
  | music | advert =>
      rcases at_ with rfl | rfl <;>
        simp [pairPath, Station.boxDir, Station.mediaSync] at same
      all_goals exact advert same.1.symm
  | revision => exact media rfl

end Apart

/-! ### Copying -/

/-- The pairs `moved` have been moved from the staging area below the media directory and
have lost their keys. -/
structure Moved (env : Env) (boxId : QString) (type : ContentType) (moved : List Entry)
    (fs fs' : FileSystem) : Prop where
  reliable : fs'.Reliable
  installed : ∀ e ∈ moved, fs'.read (pairPath env.station.media type e) =
    fs.read (pairPath (env.station.boxDir boxId) type e)
  gone : ∀ e ∈ moved, fs'.read (pairPath (env.station.boxDir boxId) type e) = none
  trust : ∀ e, Plain e.dirName →
    trust env boxId fs' e = (!decide (e ∈ moved) && trust env boxId fs e)
  frame : Frame (fun p => p = env.station.checkstorage boxId ∨ ∃ e ∈ moved,
    p = pairPath (env.station.boxDir boxId) type e ∨ p = pairPath env.station.media type e) fs fs'

namespace Moved

theorem nil (reliable : fs.Reliable) : Moved env boxId type [] fs fs where
  reliable := reliable
  installed e mem := absurd mem List.not_mem_nil
  gone e mem := absurd mem List.not_mem_nil
  trust e _ := by simp
  frame := .refl _ fs

/-- Moving one pair, then the others. -/
theorem cons {rest : List Entry} (first : Moved env boxId type [e] fs fs')
    (others : Moved env boxId type rest fs' fs'') (pairs : ∀ x ∈ e :: rest, IsPair type x)
    (notMem : e ∉ rest) : Moved env boxId type (e :: rest) fs fs'' := by
  have pair := pairs e List.mem_cons_self
  -- the two moves touch different paths
  have apart {x y : Entry} (mem : x ∈ e :: rest) (mem' : y ∈ e :: rest) (other : x ≠ y)
      (root : Path) : pairPath root type x ≠ pairPath root type y := by
    intro same
    exact other (pairPath_inj ((pairs x mem).dirs (pairs y mem')) same)
  have away {root : Path} (at_ : root = env.station.boxDir boxId ∨ root = env.station.media) :
      ¬ (pairPath root type e = env.station.checkstorage boxId ∨ ∃ x ∈ rest,
        pairPath root type e = pairPath (env.station.boxDir boxId) type x ∨
          pairPath root type e = pairPath env.station.media type x) := by
    rintro (same | ⟨x, mem, same | same⟩)
    · exact pairPath_ne_checkstorage env.station at_ same
    all_goals
      have other : e ≠ x := by
        rintro rfl
        exact notMem mem
      rcases at_ with rfl | rfl
    · exact apart List.mem_cons_self (List.mem_cons_of_mem e mem) other _ same
    · exact pairPath_boxDir_ne_media env.station boxId same.symm
    · exact pairPath_boxDir_ne_media env.station boxId same
    · exact apart List.mem_cons_self (List.mem_cons_of_mem e mem) other _ same
  refine ⟨others.reliable, fun x mem => ?_, fun x mem => ?_, fun x plain => ?_, ?_⟩
  · rcases List.mem_cons.mp mem with rfl | inRest
    · rw [others.frame.read _ (away (.inr rfl))]
      exact first.installed x List.mem_cons_self
    · rw [others.installed x inRest]
      refine first.frame.read _ ?_
      rintro (same | ⟨y, only, same | same⟩)
      · exact pairPath_ne_checkstorage env.station (.inl rfl) same
      · obtain rfl := List.mem_singleton.mp only
        exact apart mem List.mem_cons_self (fun same => notMem (same ▸ inRest)) _ same
      · exact pairPath_boxDir_ne_media env.station boxId same
  · rcases List.mem_cons.mp mem with rfl | inRest
    · rw [others.frame.read _ (away (.inl rfl))]
      exact first.gone x List.mem_cons_self
    · exact others.gone x inRest
  · rw [others.trust x plain, first.trust x plain]
    by_cases same : x = e <;> by_cases inRest : x ∈ rest <;> simp [same, inRest]
  · refine (first.frame.mono ?_).trans (others.frame.mono ?_)
    · rintro p (same | ⟨x, only, place⟩)
      · exact .inl same
      · exact .inr ⟨x, List.mem_cons.mpr (.inl (List.mem_singleton.mp only)), place⟩
    · rintro p (same | ⟨x, mem, place⟩)
      · exact .inl same
      · exact .inr ⟨x, List.mem_cons_of_mem e mem, place⟩

end Moved

/-- Removing a file before it is replaced. -/
theorem Reliable.remove_exists (reliable : fs.Reliable) (p : Path) :
    ∃ cleared, (if fs.fileExists p then (fs.remove p).2 else fs) = cleared ∧
      cleared.Reliable ∧ cleared.fileExists p = false ∧ Frame (· = p) fs cleared := by
  split
  next there =>
    refine ⟨_, rfl, reliable.remove, ?_, .remove rfl⟩
    rw [reliable.remove_eq, if_pos there]
    simp
  next absent => exact ⟨fs, rfl, reliable, by simpa using absent, .refl _ fs⟩

/-- **One file is moved.** -/
theorem LocalContent.installFile_moved (lc : LocalContent env boxId type c)
    (media : type ≠ .revision) (reliable : fs.Reliable) (pair : IsPair type e)
    (staged : (fs.read (pairPath (env.station.boxDir boxId) type e)).isSome) :
    Moved env boxId type [e] fs (c.installFile env fs e).2 := by
  obtain ⟨bytes, staged⟩ := Option.isSome_iff_exists.mp staged
  have apart : pairPath (env.station.boxDir boxId) type e ≠ pairPath env.station.media type e :=
    pairPath_boxDir_ne_media env.station boxId
  obtain ⟨cleared, removed, reliable', free, frame⟩ :=
    Reliable.remove_exists reliable (pairPath env.station.media type e)
  have source : cleared.read (pairPath (env.station.boxDir boxId) type e) = some bytes :=
    (frame.read _ apart).trans staged
  have installed : (c.installFile env fs e).2 = CheckDownloadedContent.remove env boxId
      ((cleared.forget (pairPath (env.station.boxDir boxId) type e)).put
        (pairPath env.station.media type e) bytes) e := by
    unfold Content.installFile
    simp only [lc.sourcePath_eq media pair, lc.destinationPath_eq media pair, removed, lc.box,
      lc.contentType]
    cases type with
    | music | advert => simp only [reliable'.rename_eq source free, if_true]
    | revision => exact absurd rfl media
  rw [installed]
  have key (x : Entry) (plain : Plain x.dirName) :
      storageKey x = storageKey e ↔ x = e :=
    ⟨storageKey_inj plain pair.dir, fun same => same ▸ rfl⟩
  refine ⟨reliable', fun x mem => ?_, fun x mem => ?_, fun x plain => ?_, ?_⟩
  · obtain rfl := List.mem_singleton.mp mem
    simp [staged]
  · obtain rfl := List.mem_singleton.mp mem
    simp [apart]
  · have kept : trust env boxId cleared x = trust env boxId fs x := by
      rw [trust, trust, frame.settingsValue]
      exact (pairPath_ne_checkstorage env.station (.inr rfl)).symm
    rw [trust_remove, trust_put, trust_forget (pairPath_ne_checkstorage env.station (.inl rfl)),
      kept]
    simp [key x plain]
  · refine ((frame.mono ?_).trans ((Frame.forget ?_).trans (Frame.put ?_ _))).trans
      (Frame.removeSettings (.inl rfl) _)
    · rintro p rfl
      exact .inr ⟨e, List.mem_singleton_self e, .inr rfl⟩
    · exact .inr ⟨e, List.mem_singleton_self e, .inl rfl⟩
    · exact .inr ⟨e, List.mem_singleton_self e, .inr rfl⟩

/-- **The copying loop moves every file of its list.** -/
theorem LocalContent.copyEntries_moved (lc : LocalContent env boxId type c)
    (media : type ≠ .revision) {entries : List Entry} (reliable : fs.Reliable)
    (pairs : ∀ e ∈ entries, IsPair type e) (nodup : entries.Nodup)
    (staged : ∀ e ∈ entries, (fs.read (pairPath (env.station.boxDir boxId) type e)).isSome) :
    Moved env boxId type entries fs (c.copyEntries env fs entries).2 := by
  induction entries generalizing fs with
  | nil => exact .nil reliable
  | cons e rest ih =>
      have copied : (c.copyEntry env fs e).2 = (c.installFile env fs e).2 := by
        unfold Content.copyEntry
        split
        next revision => exact absurd (lc.contentType.symm.trans revision) media
        · rfl
      have first := lc.installFile_moved media reliable (pairs e List.mem_cons_self)
        (staged e List.mem_cons_self)
      obtain ⟨notMem, nodup⟩ := List.nodup_cons.mp nodup
      rw [Content.copyEntries]
      simp only [copied]
      refine first.cons (ih first.reliable (fun x mem => pairs x (List.mem_cons_of_mem e mem)) nodup
        fun x mem => ?_) pairs notMem
      rw [first.frame.read]
      · exact staged x (List.mem_cons_of_mem e mem)
      · rintro (same | ⟨y, only, same | same⟩)
        · exact pairPath_ne_checkstorage env.station (.inl rfl) same
        · obtain rfl := List.mem_singleton.mp only
          obtain rfl := pairPath_inj
            ((pairs x (List.mem_cons_of_mem _ mem)).dirs (pairs y List.mem_cons_self)) same
          exact notMem mem
        · exact pairPath_boxDir_ne_media env.station boxId same

/-! ### Deleting -/

/-- The files named by `extra` have been removed from one directory, that of the last of
them. -/
structure Cleaned (env : Env) (type : ContentType) (extra : List Entry) (fs fs' : FileSystem) :
    Prop where
  reliable : fs'.Reliable
  gone : ∀ last ∈ extra.getLast?, ∀ e ∈ extra,
    fs'.read (pairPath env.station.media type ⟨last.dirName, e.fileName⟩) = none
  frame : Frame (fun p => ∃ last ∈ extra.getLast?, ∃ e ∈ extra,
    p = pairPath env.station.media type ⟨last.dirName, e.fileName⟩) fs fs'

/-- What a sync needs to delete excess files: the revision file is there, the manifest is
readable and was downloaded. -/
structure ManifestReady (env : Env) (boxId : QString) (type : ContentType) (bytes : QByteArray)
    (fs : FileSystem) : Prop where
  command : fs.fileExists (env.station.commandFile boxId) = true
  readable : fs.read (env.station.manifestFile boxId type) = some bytes
  status : checkRev env boxId fs ((env.station.manifestFile boxId type).getLast?.getD []) =
    CheckStatus.downloadOk.toInt

namespace LocalContent

/-- **The deletion**: the installed pairs that the manifest does not list are looked for in
the directory of the last of them. -/
theorem deleteExcessFiles_cleaned (lc : LocalContent env boxId type c)
    (media : type ≠ .revision) (reliable : fs.Reliable) {bytes : QByteArray}
    (ready : ManifestReady env boxId type bytes fs) :
    ∃ extra, (∀ e, e ∈ extra ↔ e ∈ scan fs env.station.media type ∧
        e ∉ manifestEntries type (env.fromUtf8 bytes)) ∧
      Cleaned env type extra fs (c.deleteExcessFiles env fs) := by
  have entries : readEntries env boxId fs type = manifestEntries type (env.fromUtf8 bytes) := by
    unfold readEntries
    rw [reliable.openRead_eq, ready.readable]
  have succeeds (i : ℕ) : fs.outcomes.remove.get i = true := by
    rw [reliable]
    rfl
  obtain ⟨frame, gone⟩ := lc.deleteExcessFiles_deleted media
    ⟨ready.command, fileExists_of_read ready.readable, ready.status⟩
  refine ⟨excessEntries env boxId fs type, fun e => ?_, frame.reliable reliable,
    fun last atLast e mem => ?_, frame.mono ?_⟩
  · rw [excessEntries, entries, List.mem_filter, decide_eq_true_eq]
  · obtain ⟨i, found⟩ := List.mem_iff_getElem?.mp mem
    exact read_eq_none (gone _ ⟨i, e, found, succeeds i, last, atLast, rfl⟩)
  · rintro p ⟨i, e, found, -, last, atLast, place⟩
    exact ⟨last, atLast, e, List.mem_of_getElem? found, place⟩

end LocalContent

/-! ### Both together -/

/-- The pairs of one type, in both trees, and the keys. -/
def PairPlace (env : Env) (boxId : QString) (type : ContentType) (p : Path) : Prop :=
  p = env.station.checkstorage boxId ∨
    ∃ e, p = pairPath (env.station.boxDir boxId) type e ∨ p = pairPath env.station.media type e

/-- A content of the type has been synced: the pairs `moved` are installed, and of the
installed pairs that are not `listed` those are gone that carry the name of such a pair in
the directory of the last one. -/
structure Synced (env : Env) (boxId : QString) (type : ContentType) (listed moved : List Entry)
    (fs fs' : FileSystem) : Prop where
  reliable : fs'.Reliable
  trust : ∀ e, Plain e.dirName →
    trust env boxId fs' e = (!decide (e ∈ moved) && trust env boxId fs e)
  staged : ∀ e, IsPair type e → fs'.read (pairPath (env.station.boxDir boxId) type e) =
    if e ∈ moved then none else fs.read (pairPath (env.station.boxDir boxId) type e)
  installed : ∃ extra : List Entry,
    (∀ e, e ∈ extra ↔ IsPair type e ∧ VisiblePair type e ∧ e ∉ listed ∧
      (e ∈ moved ∨ (fs.read (pairPath env.station.media type e)).isSome)) ∧
    ∀ e, IsPair type e → fs'.read (pairPath env.station.media type e) =
      if (∃ last ∈ extra.getLast?, last.dirName = e.dirName ∧ ∃ x ∈ extra, x.fileName = e.fileName)
      then none
      else if e ∈ moved then fs.read (pairPath (env.station.boxDir boxId) type e)
      else fs.read (pairPath env.station.media type e)
  frame : Frame (PairPlace env boxId type) fs fs'

namespace Moved

variable {moved : List Entry}

/-- What is installed after the copying. -/
theorem read_installed (move : Moved env boxId type moved fs fs')
    (pairs : ∀ e ∈ moved, IsPair type e)
    (dirs : type = .advert → e.dirName = Station.advertDir) :
    fs'.read (pairPath env.station.media type e) =
      if e ∈ moved then fs.read (pairPath (env.station.boxDir boxId) type e)
      else fs.read (pairPath env.station.media type e) := by
  split
  next mem => exact move.installed e mem
  next notMem =>
    refine move.frame.read _ ?_
    rintro (same | ⟨x, mem, same | same⟩)
    · exact pairPath_ne_checkstorage env.station (.inr rfl) same
    · exact pairPath_boxDir_ne_media env.station boxId same.symm
    · obtain rfl := pairPath_inj
        (fun advert => (dirs advert).trans ((pairs x mem).advert advert).symm) same
      exact notMem mem

/-- What is staged after the copying. -/
theorem read_staged (move : Moved env boxId type moved fs fs') (pairs : ∀ e ∈ moved, IsPair type e)
    (pair : IsPair type e) :
    fs'.read (pairPath (env.station.boxDir boxId) type e) =
      if e ∈ moved then none else fs.read (pairPath (env.station.boxDir boxId) type e) := by
  split
  next mem => exact move.gone e mem
  next notMem =>
    refine move.frame.read _ ?_
    rintro (same | ⟨x, mem, same | same⟩)
    · exact pairPath_ne_checkstorage env.station (.inl rfl) same
    · obtain rfl := pairPath_inj (pair.dirs (pairs x mem)) same
      exact notMem mem
    · exact pairPath_boxDir_ne_media env.station boxId same

end Moved

theorem Moved.pairFrame {moved : List Entry} (move : Moved env boxId type moved fs fs') :
    Frame (PairPlace env boxId type) fs fs' := by
  refine move.frame.mono ?_
  rintro p (same | ⟨e, -, place⟩)
  · exact .inl same
  · exact .inr ⟨e, place⟩

/-- A manifest is no pair, so it stays ready. -/
theorem ManifestReady.of_frame {type' : ContentType} {bytes : QByteArray}
    (ready : ManifestReady env boxId type' bytes fs) (media : type ≠ .revision)
    (media' : type' ≠ .revision) (frame : Frame (PairPlace env boxId type) fs fs') :
    ManifestReady env boxId type' bytes fs' := by
  have away {dir file : QString} (advert : dir ≠ Station.advertDir) :
      ¬ PairPlace env boxId type (env.station.boxDir boxId ++ [dir, file]) := by
    rintro (same | ⟨e, same | same⟩)
    · simp [Station.checkstorage] at same
    · exact pairPath_ne_control env.station (.inl rfl) media advert same.symm
    · exact pairPath_ne_control env.station (.inr rfl) media advert same.symm
  refine ⟨(frame.fileExists (away (by decide))).trans ready.command, ?_, ?_⟩
  · rw [← ready.readable]
    cases type' with
    | music | advert => exact frame.read _ (away (by decide))
    | revision => exact absurd rfl media'
  · have same (key : QString) : fs'.settingsValue (env.station.revstorage boxId) key =
        fs.settingsValue (env.station.revstorage boxId) key :=
      frame.settingsValue (away (by decide : str "command" ≠ Station.advertDir)) key
    rw [← ready.status, checkRev, checkRev, same]

/-- The pairs `moved` have left the staging area, and the sync has touched the pairs of one
type only. -/
structure Drained (env : Env) (boxId : QString) (type : ContentType) (moved : List Entry)
    (fs fs' : FileSystem) : Prop where
  reliable : fs'.Reliable
  trust : ∀ e, Plain e.dirName →
    trust env boxId fs' e = (!decide (e ∈ moved) && trust env boxId fs e)
  staged : ∀ e, IsPair type e → fs'.read (pairPath (env.station.boxDir boxId) type e) =
    if e ∈ moved then none else fs.read (pairPath (env.station.boxDir boxId) type e)
  frame : Frame (PairPlace env boxId type) fs fs'

/-- **The sync of a MUSIC or ADVERT content** takes what it has collected out of the staging
area, whatever becomes of the manifest. -/
theorem LocalContent.sync_drained (lc : LocalContent env boxId type c) (media : type ≠ .revision)
    (reliable : fs.Reliable) (pairs : ∀ e ∈ c.sourceList, IsPair type e)
    (nodup : c.sourceList.Nodup)
    (staged : ∀ e ∈ c.sourceList, (fs.read (pairPath (env.station.boxDir boxId) type e)).isSome) :
    Drained env boxId type c.sourceList fs (c.sync env fs).2 := by
  have move : Moved env boxId type c.sourceList fs (c.copyToDestination env fs).2 :=
    lc.copyEntries_moved media reliable pairs nodup staged
  have clean : Frame (fun p => ∃ e, p = pairPath env.station.media type e)
      (c.copyToDestination env fs).2 (c.sync env fs).2 :=
    (lc.deleteExcessFiles_frame media).1
  refine ⟨clean.reliable move.reliable, fun e plain => ?_, fun e pair => ?_,
    move.pairFrame.trans (clean.mono ?_)⟩
  · rw [← move.trust e plain]
    refine clean.trust ?_ e
    rintro ⟨x, same⟩
    exact pairPath_ne_checkstorage env.station (.inr rfl) same.symm
  · rw [← move.read_staged pairs pair]
    refine clean.read _ ?_
    rintro ⟨x, same⟩
    exact pairPath_boxDir_ne_media env.station boxId same
  · rintro p ⟨e, same⟩
    exact .inr ⟨e, .inr same⟩

/-- **The sync of a MUSIC or ADVERT content.** -/
theorem LocalContent.sync_synced (lc : LocalContent env boxId type c) (media : type ≠ .revision)
    (reliable : fs.Reliable) (pairs : ∀ e ∈ c.sourceList, IsPair type e)
    (nodup : c.sourceList.Nodup)
    (staged : ∀ e ∈ c.sourceList, (fs.read (pairPath (env.station.boxDir boxId) type e)).isSome)
    {bytes : QByteArray} (ready : ManifestReady env boxId type bytes fs) :
    Synced env boxId type (manifestEntries type (env.fromUtf8 bytes)) c.sourceList fs
      (c.sync env fs).2 := by
  let copied := (c.copyToDestination env fs).2
  have move : Moved env boxId type c.sourceList fs copied :=
    lc.copyEntries_moved media reliable pairs nodup staged
  obtain ⟨extra, mem_extra, clean⟩ := lc.deleteExcessFiles_cleaned media move.reliable
    (ready.of_frame media media move.pairFrame)
  have drained := lc.sync_drained media reliable pairs nodup staged
  refine ⟨drained.reliable, drained.trust, drained.staged,
    ⟨extra, fun e => ?_, fun e pair => ?_⟩, drained.frame⟩
  · rw [mem_extra, mem_scan]
    constructor
    · rintro ⟨⟨-, pair, visible, there⟩, unlisted⟩
      rw [move.read_installed pairs pair.advert] at there
      refine ⟨pair, visible, unlisted, ?_⟩
      by_cases mem : e ∈ c.sourceList
      · exact .inl mem
      · exact .inr (by simpa [mem] using there)
    · rintro ⟨pair, visible, unlisted, there⟩
      refine ⟨⟨media, pair, visible, ?_⟩, unlisted⟩
      rw [move.read_installed pairs pair.advert]
      split
      next mem => exact staged e mem
      next notMem => exact there.resolve_left notMem
  · rw [← move.read_installed pairs pair.advert]
    split
    next removed =>
      obtain ⟨last, atLast, sameDir, x, mem, sameFile⟩ := removed
      have gone := clean.gone last atLast x mem
      rwa [sameDir, sameFile] at gone
    next kept =>
      refine clean.frame.read _ ?_
      rintro ⟨last, atLast, x, mem, same⟩
      have lastPair := (mem_scan.mp ((mem_extra last).mp (List.mem_of_getLast? atLast)).1).2.1
      have whole : e = ⟨last.dirName, x.fileName⟩ := pairPath_inj (fun advert =>
        (pair.advert advert).trans (lastPair.advert advert).symm) same
      refine kept ⟨last, atLast, ?_, x, mem, ?_⟩ <;> rw [whole]

end MediaUpdater
