import MediaUpdater.Content.Manager
import MediaUpdater.Content.Synced

/-!
# What a network content leaves to download

The network content of a manifest lists the entries that are neither trusted nor
installed.  While it collects them, `checkFile` removes the untrusted files from the
place where it looks for them, `.sync/<boxId>/<directory>/<file>`.  For an
advertising file this is its staging path; for a music file it is not, since the
content is given the directory `music` only after it has been collected.

## Main results

* `collectEntries_network` — the loop over the manifest: the pending entries, and a
  swept disk.
* `networkContent_new` — a network content lists what is pending.
* `ContentManager.queueOf_stage` — the queue of the second stage consists of pending
  entries, each pending entry shares its name with one of them, and the disk has been
  swept.
-/

namespace MediaUpdater

open FileSystem CheckDownloadedContent

variable {env : Env} {boxId : QString} {fs fs' fs'' : FileSystem} {type : ContentType}
variable {c : Content} {e : Entry} {entries rest : List Entry}

/-! ### The entries of a staged manifest -/

/-- The entries that the network content of a type reads: none, unless the manifest was
downloaded and is there. -/
def stagedEntries (env : Env) (boxId : QString) (fs : FileSystem) (type : ContentType) :
    List Entry :=
  let manifest := env.station.manifestFile boxId type
  if checkRev env boxId fs (manifest.getLast?.getD []) = CheckStatus.downloadOk.toInt then
    match fs.read manifest with
    | some bytes => manifestEntries type (env.fromUtf8 bytes)
    | none => []
  else []

/-- The entry is neither trusted nor installed. -/
def isPending (env : Env) (boxId : QString) (fs : FileSystem) (type : ContentType) (e : Entry) :
    Bool :=
  !(trust env boxId fs e || fs.fileExists (env.station.installedPath type e))

/-- The advertising files are in a directory of their own. -/
theorem not_mem_stagedAdverts
    (pairs : ∀ type, type ≠ .revision → ∀ x ∈ stagedEntries env boxId fs type, IsPair type x)
    (other : e.dirName ≠ Station.advertDir) : e ∉ stagedEntries env boxId fs .advert := fun mem =>
  other ((pairs .advert (by simp) e mem).advert rfl)

/-- The entries that are left to download. -/
def pendingEntries (env : Env) (boxId : QString) (fs : FileSystem) (type : ContentType) :
    List Entry :=
  (stagedEntries env boxId fs type).filter (isPending env boxId fs type)

/-! ### Sweeping -/

/-- The disk has been swept of the untrusted files among `entries`, where the collecting
content looks for them. -/
structure Swept (env : Env) (boxId : QString) (entries : List Entry) (fs fs' : FileSystem) :
    Prop where
  trust : ∀ e, trust env boxId fs' e = trust env boxId fs e
  gone : fs.Reliable → ∀ e ∈ entries, CheckDownloadedContent.trust env boxId fs e = false →
    fs'.fileExists (pairPath (env.station.boxDir boxId) .revision e) = false
  frame : Frame (fun p => p = env.station.checkstorage boxId ∨
    ∃ e ∈ entries, CheckDownloadedContent.trust env boxId fs e = false ∧
      p = pairPath (env.station.boxDir boxId) .revision e) fs fs'

namespace Swept

theorem nil (fs : FileSystem) : Swept env boxId [] fs fs :=
  ⟨fun _ => rfl, fun _ _ mem => absurd mem List.not_mem_nil, .refl _ fs⟩

/-- What is gone stays away. -/
theorem stays_gone (swept : Swept env boxId entries fs fs') (reliable : fs.Reliable)
    {p : Path} (apart : p ≠ env.station.checkstorage boxId) (absent : fs.fileExists p = false) :
    fs'.fileExists p = false := by
  by_cases touched : ∃ e ∈ entries, CheckDownloadedContent.trust env boxId fs e = false ∧
      p = pairPath (env.station.boxDir boxId) .revision e
  · obtain ⟨e, mem, untrusted, same⟩ := touched
    rw [same]
    exact swept.gone reliable e mem untrusted
  · rw [swept.frame.fileExists (not_or.mpr ⟨apart, touched⟩)]
    exact absent

/-- Sweeping once more. -/
theorem append (first : Swept env boxId entries fs fs') (second : Swept env boxId rest fs' fs'') :
    Swept env boxId (entries ++ rest) fs fs'' where
  trust e := (second.trust e).trans (first.trust e)
  gone reliable e mem untrusted := by
    have reliable' := first.frame.reliable reliable
    rcases List.mem_append.mp mem with before | after
    · exact second.stays_gone reliable' (pairPath_ne_checkstorage env.station (.inl rfl))
        (first.gone reliable e before untrusted)
    · exact second.gone reliable' e after (by rw [first.trust, untrusted])
  frame := by
    refine (first.frame.mono ?_).trans (second.frame.mono ?_)
    · rintro p (same | ⟨e, mem, place⟩)
      · exact .inl same
      · exact .inr ⟨e, List.mem_append_left rest mem, place⟩
    · rintro p (same | ⟨e, mem, untrusted, same⟩)
      · exact .inl same
      · exact .inr ⟨e, List.mem_append_right entries mem, first.trust e ▸ untrusted, same⟩

/-- An installed file is nowhere near. -/
theorem fileExists_installed (swept : Swept env boxId entries fs fs') (media : type ≠ .revision)
    (pair : IsPair type e) :
    fs'.fileExists (env.station.installedPath type e) =
      fs.fileExists (env.station.installedPath type e) := by
  rw [installedPath_eq media pair]
  refine swept.frame.fileExists ?_
  rintro (same | ⟨x, -, -, same⟩)
  · exact pairPath_ne_checkstorage env.station (.inr rfl) same
  · exact pairPath_boxDir_ne_media env.station boxId same.symm

/-- What is pending is pending still. -/
theorem isPending_eq (swept : Swept env boxId entries fs fs') (media : type ≠ .revision)
    (pair : IsPair type e) : isPending env boxId fs' type e = isPending env boxId fs type e := by
  rw [isPending, isPending, swept.trust, swept.fileExists_installed media pair]

/-- A staged control file, or the statuses, when no entry names it. -/
theorem away (swept : Swept env boxId entries fs fs') (other : e ∉ entries) :
    fs'.read (pairPath (env.station.boxDir boxId) .revision e) =
        fs.read (pairPath (env.station.boxDir boxId) .revision e) ∧
      ∀ key, fs'.settingsValue (pairPath (env.station.boxDir boxId) .revision e) key =
        fs.settingsValue (pairPath (env.station.boxDir boxId) .revision e) key := by
  have untouched :
    ¬ (pairPath (env.station.boxDir boxId) .revision e = env.station.checkstorage boxId ∨
      ∃ x ∈ entries, CheckDownloadedContent.trust env boxId fs x = false ∧
        pairPath (env.station.boxDir boxId) .revision e =
          pairPath (env.station.boxDir boxId) .revision x) := by
    rintro (same | ⟨x, mem, -, same⟩)
    · exact pairPath_ne_checkstorage env.station (.inl rfl) same
    · obtain rfl : e = x := pairPath_inj (fun advert => by cases advert) same
      exact other mem
  exact ⟨swept.frame.read _ untouched, swept.frame.settingsValue untouched⟩

/-- The statuses of the control files. -/
theorem checkRev_eq (swept : Swept env boxId entries fs fs')
    (other : ⟨str "command", str "revstorage"⟩ ∉ entries) (name : QString) :
    checkRev env boxId fs' name = checkRev env boxId fs name := by
  have place : env.station.revstorage boxId = pairPath (env.station.boxDir boxId) .revision
      ⟨str "command", str "revstorage"⟩ := rfl
  rw [checkRev, checkRev, place, (swept.away other).2]

end Swept

/-- The entry that names the manifest of a content type. -/
def manifestEntry : ContentType → Entry
  | .advert => ⟨str "cron.d", str "adverttable"⟩
  | _ => ⟨str "chanels", str "chanels"⟩

theorem manifestFile_eq (media : type ≠ .revision) :
    env.station.manifestFile boxId type =
      pairPath (env.station.boxDir boxId) .revision (manifestEntry type) := by
  cases type with
  | music | advert => rfl
  | revision => exact absurd rfl media

/-- The entries of a manifest stay the same while the files of others are swept. -/
theorem Swept.stagedEntries_eq (swept : Swept env boxId entries fs fs') (media : type ≠ .revision)
    (status : ⟨str "command", str "revstorage"⟩ ∉ entries)
    (manifest : manifestEntry type ∉ entries) :
    stagedEntries env boxId fs' type = stagedEntries env boxId fs type := by
  have kept := (swept.away manifest).1
  rw [← manifestFile_eq media] at kept
  simp only [stagedEntries, swept.checkRev_eq status, kept]

/-- Removing the file of an untrusted entry, and its key if that succeeds. -/
theorem Swept.of_remove (untrusted : CheckDownloadedContent.trust env boxId fs e = false)
    (there : fs.fileExists (pairPath (env.station.boxDir boxId) .revision e) = true) :
    let removed := fs.remove (pairPath (env.station.boxDir boxId) .revision e)
    Swept env boxId [e] fs
      (if removed.1 then remove env boxId removed.2 e else removed.2) := by
  intro removed
  have apart : pairPath (env.station.boxDir boxId) .revision e ≠ env.station.checkstorage boxId :=
    pairPath_ne_checkstorage env.station (.inl rfl)
  have frame : Frame (· = pairPath (env.station.boxDir boxId) .revision e) fs removed.2 :=
    .remove rfl
  have kept (x : Entry) : CheckDownloadedContent.trust env boxId removed.2 x =
      CheckDownloadedContent.trust env boxId fs x := by
    rw [CheckDownloadedContent.trust, CheckDownloadedContent.trust, frame.settingsValue apart.symm]
  refine ⟨fun x => ?_, fun reliable x mem _ => ?_, ?_⟩
  · split
    · rw [trust_remove, kept]
      by_cases same : storageKey x = storageKey e
      · rw [CheckDownloadedContent.trust, same, ← CheckDownloadedContent.trust, untrusted]
        simp
      · simp [same]
    · exact kept x
  · have gone : removed = (true, fs.forget (pairPath (env.station.boxDir boxId) .revision e)) := by
      show fs.remove _ = _
      rw [reliable.remove_eq, if_pos there]
    rw [List.mem_singleton.mp mem, gone, if_pos rfl, CheckDownloadedContent.remove,
      fileExists_removeSettings apart]
    simp
  · have wide : Frame (fun p => p = env.station.checkstorage boxId ∨
        ∃ x ∈ [e], CheckDownloadedContent.trust env boxId fs x = false ∧
          p = pairPath (env.station.boxDir boxId) .revision x) fs removed.2 :=
      frame.mono fun p same => .inr ⟨e, List.mem_singleton_self e, untrusted, same⟩
    split
    · exact wide.trans (.removeSettings (.inl rfl) _)
    · exact wide

/-- One `checkFile` of a network content. -/
theorem checkFile_swept {content : ContentRef} (isLocal : content.isLocal = false)
    (place : content.filePath e = pairPath (env.station.boxDir boxId) .revision e) :
    Swept env boxId [e] fs (checkFile env boxId fs e content).2 := by
  by_cases present : trust env boxId fs e = false ∧
      fs.fileExists (pairPath (env.station.boxDir boxId) .revision e) = true
  · obtain ⟨untrusted, there⟩ := present
    have swept := Swept.of_remove untrusted there
    simpa [checkFile, untrusted, isLocal, place, there] using swept
  · have effect : (checkFile env boxId fs e content).2 = fs := by
      have kept : (!trust env boxId fs e && !content.isLocal &&
          fs.fileExists (content.filePath e)) = false := by
        rw [place]
        cases trusted : trust env boxId fs e <;> simp_all
      simp only [checkFile, kept, Bool.false_eq_true, if_false]
    rw [effect]
    refine ⟨fun x => rfl, fun _ x mem untrusted => ?_, .refl _ fs⟩
    obtain rfl := List.mem_singleton.mp mem
    simpa [untrusted] using present

/-- The loop of a network content over its manifest: the pending entries join the source
list, and the disk is swept. -/
theorem collectEntries_network (media : c.contentType ≠ .revision) (isLocal : c.isLocal = false)
    (pairs : ∀ e ∈ entries, IsPair c.contentType e)
    (destination : c.destination = env.station.boxDir c.boxId) :
    ∃ fs', Content.collectEntries env c fs entries =
        ({ c with
            sourceList := c.sourceList ++
              entries.filter (isPending env c.boxId fs c.contentType)
            standartSourceFiles := c.standartSourceFiles ++ entries }, fs') ∧
      Swept env c.boxId entries fs fs' := by
  induction entries generalizing c fs with
  | nil => exact ⟨fs, by simp [Content.collectEntries], .nil fs⟩
  | cons e rest ih =>
      have pair := pairs e List.mem_cons_self
      have pairs' (x : Entry) (mem : x ∈ rest) : IsPair c.contentType x :=
        pairs x (List.mem_cons_of_mem e mem)
      have place : c.ref.filePath e = pairPath (env.station.boxDir c.boxId) .revision e := by
        simp [ContentRef.filePath, Content.ref, destination, Path.child_plain pair.dir,
          Path.child_plain pair.file, pairPath]
      have first : Swept env c.boxId [e] fs (checkFile env c.boxId fs e c.ref).2 :=
        checkFile_swept isLocal place
      have existing : (Content.checkExistFile env c fs e).1 =
        !isPending env c.boxId fs c.contentType e := by
        rw [Content.checkExistFile, checkFile_fst, first.fileExists_installed media pair, isPending,
          Bool.not_not]
      -- what is pending after the first file was pending before
      have same :
        rest.filter (isPending env c.boxId (checkFile env c.boxId fs e c.ref).2 c.contentType) =
          rest.filter (isPending env c.boxId fs c.contentType) :=
        List.filter_congr fun x mem => first.isPending_eq media (pairs' x mem)
      rw [Content.collectEntries]
      simp only [existing]
      cases pending : isPending env c.boxId fs c.contentType e with
      | true =>
          obtain ⟨fs', collected, swept⟩ :=
            ih (c := (c.appendStandart e).appendInfo e) media isLocal
            pairs' destination
          refine ⟨fs', ?_, first.append swept⟩
          rw [List.filter_cons_of_pos pending, ← same, List.append_cons c.sourceList,
            List.append_cons c.standartSourceFiles]
          exact collected
      | false =>
          obtain ⟨fs', collected, swept⟩ := ih (c := c.appendStandart e) media isLocal pairs'
            destination
          refine ⟨fs', ?_, first.append swept⟩
          rw [List.filter_cons_of_neg (by simp [pending]), ← same,
            List.append_cons c.standartSourceFiles]
          exact collected

/-! ### Network contents -/

/-- The network content of a type, as its entries see it. -/
def networkRef (env : Env) (boxId : QString) (type : ContentType) : ContentRef where
  contentType := type
  destination :=
    if type = .music then env.station.boxDir boxId ++ [Station.musicDir]
    else env.station.boxDir boxId
  isLocal := false

/-- **The staging path of a pair.** -/
theorem filePath_networkRef (media : type ≠ .revision) (pair : IsPair type e) :
    (networkRef env boxId type).filePath e = pairPath (env.station.boxDir boxId) type e := by
  cases type with
  | music =>
      simp [ContentRef.filePath, networkRef, Path.child_plain pair.dir, Path.child_plain pair.file,
        pairPath]
  | advert =>
      simp [ContentRef.filePath, networkRef, pair.advert rfl, Path.child_plain plain_advertDir,
        Path.child_plain pair.file, pairPath]
  | revision => exact absurd rfl media

/-- A network MUSIC or ADVERT content while its manifest is collected. -/
structure NetworkContent (env : Env) (boxId : QString) (type : ContentType) (c : Content) :
    Prop where
  contentType : c.contentType = type
  isLocal : c.isLocal = false
  box : c.boxId = boxId
  destination : c.destination = env.station.boxDir boxId

/-- The content that `Content::Content` hands to `collectContentFromFile`. -/
theorem networkContent_fresh (env : Env) (boxId : QString) (type : ContentType) :
    NetworkContent env boxId type
      { contentType := type, isLocal := false, boxId, destination := env.station.boxDir boxId } :=
  ⟨rfl, rfl, rfl, rfl⟩

/-- Opening a file changes nothing that a sweep looks at. -/
theorem Swept.of_openRead {p : Path} (swept : Swept env boxId entries (fs.openRead p).2 fs') :
    Swept env boxId entries fs fs' := by
  have frame : Frame (fun _ => False) fs (fs.openRead p).2 := .openRead
  have same (e : Entry) : CheckDownloadedContent.trust env boxId (fs.openRead p).2 e =
      CheckDownloadedContent.trust env boxId fs e := by
    rw [CheckDownloadedContent.trust, CheckDownloadedContent.trust, frame.settingsValue id]
  refine ⟨fun e => (swept.trust e).trans (same e), fun reliable e mem untrusted => ?_, ?_⟩
  · exact swept.gone (frame.reliable reliable) e mem ((same e).trans untrusted)
  · refine (frame.mono fun _ no => no.elim).trans (swept.frame.mono ?_)
    rintro q (same' | ⟨e, mem, untrusted, place⟩)
    · exact .inl same'
    · exact .inr ⟨e, mem, (same e).symm.trans untrusted, place⟩

namespace NetworkContent

variable (nc : NetworkContent env boxId type c)

include nc

/-- **The manifest is collected**: every entry joins the list of all files, the pending ones
the source list, and the disk is swept. -/
theorem collectContentFromFile_eq (media : type ≠ .revision) {bytes : QByteArray}
    (status : checkRev env boxId fs ((env.station.manifestFile boxId type).getLast?.getD []) =
      CheckStatus.downloadOk.toInt)
    (content : fs.read (env.station.manifestFile boxId type) = some bytes)
    (opens : fs.outcomes.openRead.head = true)
    (pairs : ∀ e ∈ manifestEntries type (env.fromUtf8 bytes), IsPair type e) :
    ∃ fs', c.collectContentFromFile env fs (env.station.manifestFile boxId type) =
        ({ c with
            sourceDir := [type.dir]
            sourceList := (manifestEntries type (env.fromUtf8 bytes)).filter
              (isPending env boxId fs type)
            standartSourceFiles :=
              c.standartSourceFiles ++ manifestEntries type (env.fromUtf8 bytes) }, fs') ∧
      Swept env boxId (manifestEntries type (env.fromUtf8 bytes)) fs fs' := by
  obtain ⟨contentType, isLocal, box, sourceList, standart, place, sourceDir⟩ := c
  obtain ⟨rfl, rfl, box', destination⟩ := nc
  simp only at box' destination
  subst box' destination
  -- the disk on which the loop runs differs from `fs` in the outcomes to come only
  have opened : fs.openRead (env.station.manifestFile box contentType) =
      (some bytes, (fs.openRead (env.station.manifestFile box contentType)).2) := by
    unfold FileSystem.openRead
    simp [opens, content]
  have same : isPending env box (fs.openRead (env.station.manifestFile box contentType)).2
      contentType = isPending env box fs contentType := by
    unfold FileSystem.openRead
    simp only [opens, if_true]
    rfl
  have loop := @collectEntries_network env
    (fs.openRead (env.station.manifestFile box contentType)).2
    ⟨contentType, false, box, [], standart, env.station.boxDir box, [contentType.dir]⟩ _
    media rfl pairs rfl
  simp only [same] at loop
  obtain ⟨fs', collected, swept⟩ := loop
  refine ⟨fs', Eq.trans ?_ collected, swept.of_openRead⟩
  unfold Content.collectContentFromFile
  cases contentType with
  | music | advert =>
      simp only [status, if_true]
      rw [opened]
      rfl
  | revision => exact absurd rfl media

end NetworkContent

/-- A manifest that cannot be opened leads to no sweeping; this can only happen when there
is nothing to sweep or the disk is not reliable. -/
theorem Swept.of_unopened (unopened : (fs.openRead (env.station.manifestFile boxId type)).1 =
    none) :
    Swept env boxId (stagedEntries env boxId fs type) fs
      (fs.openRead (env.station.manifestFile boxId type)).2 := by
  have frame : Frame (fun _ => False) fs (fs.openRead (env.station.manifestFile boxId type)).2 :=
    .openRead
  refine ⟨fun e => frame.trust id e, fun reliable e mem _ => ?_, frame.mono fun _ no => no.elim⟩
  have absent : fs.read (env.station.manifestFile boxId type) = none := by
    rwa [reliable.openRead_eq] at unopened
  simp [stagedEntries, absent] at mem

/-- **A network content** lists entries of its manifest and sweeps the disk, under every
outcome of its calls; if the manifest can be opened, it lists what is pending. -/
theorem networkContent_new (media : type ≠ .revision)
    (pairs : ∀ e ∈ stagedEntries env boxId fs type, IsPair type e) :
    let made := Content.new env fs type boxId false
    made.1.contentType = type ∧ made.1.ref = networkRef env boxId type ∧ made.1.sourceDir ≠ [] ∧
      (∀ e ∈ made.1.sourceList, e ∈ stagedEntries env boxId fs type) ∧
      (fs.outcomes.openRead.head = true → made.1.sourceList = pendingEntries env boxId fs type) ∧
      Swept env boxId (stagedEntries env boxId fs type) fs made.2 := by
  let c : Content :=
    { contentType := type, isLocal := false, boxId, destination := env.station.boxDir boxId }
  have collects : ∃ standart list fs',
      c.collectContentFromFile env fs (env.station.manifestFile boxId type) =
        ({ c with sourceDir := [type.dir], sourceList := list, standartSourceFiles := standart },
        fs') ∧
      (∀ e ∈ list, e ∈ stagedEntries env boxId fs type) ∧
      (fs.outcomes.openRead.head = true → list = pendingEntries env boxId fs type) ∧
      Swept env boxId (stagedEntries env boxId fs type) fs fs' := by
    by_cases status : checkRev env boxId fs
        ((env.station.manifestFile boxId type).getLast?.getD []) = CheckStatus.downloadOk.toInt
    · cases opened : (fs.openRead (env.station.manifestFile boxId type)).1 with
      | some bytes =>
          have content := read_of_openRead opened
          have staged : stagedEntries env boxId fs type =
            manifestEntries type (env.fromUtf8 bytes) := by
            simp only [stagedEntries, status, if_true, content]
          have opens : fs.outcomes.openRead.head = true := by
            by_contra closed
            simp [FileSystem.openRead, closed] at opened
          obtain ⟨fs', collected, swept⟩ :=
            (networkContent_fresh env boxId type).collectContentFromFile_eq
            media status content opens (staged ▸ pairs)
          rw [pendingEntries, staged]
          exact ⟨_, _, fs', collected, fun e mem => List.mem_of_mem_filter mem, fun _ => rfl, swept⟩
      | none =>
          refine ⟨[], [], _, ?_, fun e mem => absurd mem List.not_mem_nil, fun opens => ?_,
            .of_unopened opened⟩
          · unfold Content.collectContentFromFile
            cases type with
            | music | advert =>
                simp only [c, status, if_true, opened]
                rfl
            | revision => exact absurd rfl media
          · have absent : fs.read (env.station.manifestFile boxId type) = none := by
              simpa [FileSystem.openRead, opens] using opened
            simp [pendingEntries, stagedEntries, absent]
    · have none : stagedEntries env boxId fs type = [] := by
        simp only [stagedEntries, if_neg status]
      refine ⟨[], [], fs, ?_, fun e mem => absurd mem List.not_mem_nil, fun _ => ?_, none ▸ .nil fs⟩
      · unfold Content.collectContentFromFile
        cases type with
        | music | advert =>
            simp only [c, if_neg status]
            rfl
        | revision => exact absurd rfl media
      · rw [pendingEntries, none, List.filter_nil]
  obtain ⟨standart, list, fs', collected, staged, pending, swept⟩ := collects
  cases type with
  | music | advert =>
      simp only [Content.new, Bool.false_eq_true, if_false]
      rw [show Content.collectContentFromFile env _ fs _ = _ from collected]
      exact ⟨rfl, rfl, by simp, staged, pending, swept⟩
  | revision => exact absurd rfl media

/-! ### Opening the manifests -/

/-- The next two files can be opened. -/
def ManifestsOpen (fs : FileSystem) : Prop :=
  fs.outcomes.openRead.head = true ∧ fs.outcomes.openRead.tail.head = true

instance (fs : FileSystem) : Decidable (ManifestsOpen fs) := inferInstanceAs (Decidable (_ ∧ _))

theorem FileSystem.Readable.manifestsOpen (readable : fs.Readable) : ManifestsOpen fs := by
  rw [ManifestsOpen, readable]
  exact ⟨rfl, rfl⟩

theorem checkFile_openRead {content : ContentRef} :
    (checkFile env boxId fs e content).2.outcomes.openRead = fs.outcomes.openRead := by
  have removes (p : Path) : (fs.remove p).2.outcomes.openRead = fs.outcomes.openRead := by
    unfold FileSystem.remove
    split <;> rfl
  unfold checkFile
  simp only
  split
  · split <;> exact removes _
  · rfl

theorem collectEntries_openRead :
    (Content.collectEntries env c fs entries).2.outcomes.openRead = fs.outcomes.openRead := by
  induction entries generalizing c fs with
  | nil => rfl
  | cons e rest ih =>
      rw [Content.collectEntries]
      exact ih.trans checkFile_openRead

/-- A network content opens at most one file. -/
theorem networkContent_openRead (media : type ≠ .revision) :
    let made := Content.new env fs type boxId false
    made.2.outcomes.openRead = fs.outcomes.openRead ∨
      made.2.outcomes.openRead = fs.outcomes.openRead.tail := by
  have collected (c : Content) (kind : c.contentType = type) (file : Path) :
      (c.collectContentFromFile env fs file).2.outcomes.openRead = fs.outcomes.openRead ∨
        (c.collectContentFromFile env fs file).2.outcomes.openRead = fs.outcomes.openRead.tail := by
    have opened : (fs.openRead file).2.outcomes.openRead = fs.outcomes.openRead.tail := by
      unfold FileSystem.openRead
      split <;> rfl
    obtain ⟨contentType, isLocal, box, sourceList, standart, place, sourceDir⟩ := c
    obtain rfl : contentType = type := kind
    unfold Content.collectContentFromFile
    cases contentType with
    | music | advert =>
        simp only
        split
        · split
          · exact .inr (collectEntries_openRead.trans opened)
          · exact .inr opened
        · exact .inl rfl
    | revision => exact absurd rfl media
  cases type with
  | music => exact collected _ rfl _
  | advert => exact collected _ rfl _
  | revision => exact absurd rfl media

/-! ### The queue of the second stage -/

namespace ContentManager

variable {cm : ContentManager} {info : SContentInfo} {name : QString}

/-- **The map after a content has been entered**: the last entry of a name, or what was there
before. -/
theorem lookup_insertInfos (login : LoginInfo) (content : Content) (entries : List Entry)
    (map : AList fun _ : QString => SContentInfo) (name : QString) :
    (∀ e ∈ entries, e.fileName ≠ name) ∧
        (insertInfos login content map entries).lookup name = map.lookup name ∨
      ∃ e ∈ entries, e.fileName = name ∧
        (insertInfos login content map entries).lookup name =
          some (contentInfo login content e) := by
  induction entries generalizing map with
  | nil => exact .inl ⟨by simp, rfl⟩
  | cons e rest ih =>
      rw [insertInfos]
      rcases ih (map.insert e.fileName (contentInfo login content e)) with
        ⟨others, found⟩ | ⟨x, mem, same, found⟩
      · by_cases same : e.fileName = name
        · refine .inr ⟨e, List.mem_cons_self, same, ?_⟩
          rw [found, ← same, AList.lookup_insert]
        · refine .inl ⟨?_, ?_⟩
          · rintro x (_ | ⟨_, mem⟩)
            · exact same
            · exact others x mem
          · rw [found, AList.lookup_insert_ne (Ne.symm same)]
      · exact .inr ⟨x, List.mem_cons_of_mem e mem, same, found⟩

/-- The queue holds pending entries of the types in `types`, and each of these shares its
name with one in the queue. -/
structure QueueOf (env : Env) (boxId : QString) (fs : FileSystem) (types : List ContentType)
    (cm : ContentManager) : Prop where
  box : cm.loginInfo.boxId = boxId
  keyed : cm.Keyed
  queued : ∀ info ∈ cm.contentFiles, ∃ type ∈ types,
      info.toEntry ∈ pendingEntries env boxId fs type ∧
    info.content = networkRef env boxId type
  named : ∀ type ∈ types, ∀ e ∈ pendingEntries env boxId fs type,
    ∃ info ∈ cm.contentFiles, info.fileName = e.fileName

/-- Entering the network content of one more type. -/
theorem QueueOf.addNetworkContent {types : List ContentType} {fs₀ : FileSystem}
    (queue : QueueOf env boxId fs₀ types cm) (media : type ≠ .revision)
    (fresh : cm.contentMap type = none) (opens : fs.outcomes.openRead.head = true)
    (pairs : ∀ e ∈ stagedEntries env boxId fs type, IsPair type e)
    (same : pendingEntries env boxId fs type = pendingEntries env boxId fs₀ type) :
    let added := cm.addNetworkContent env fs type
    QueueOf env boxId fs₀ (types ++ [type]) added.1 ∧
      (∀ other, other ≠ type → added.1.contentMap other = cm.contentMap other) ∧
      (added.2.outcomes.openRead = fs.outcomes.openRead ∨
        added.2.outcomes.openRead = fs.outcomes.openRead.tail) ∧
      Swept env boxId (stagedEntries env boxId fs type) fs added.2 := by
  obtain ⟨rfl, keyed, queued, named⟩ := queue
  obtain ⟨kind, ref, source, -, lists, swept⟩ := networkContent_new media pairs
  have listed := lists opens
  have openRead := @networkContent_openRead env cm.loginInfo.boxId fs type media
  have keyed' : (cm.addNetworkContent env fs type).1.Keyed := keyed.addNetworkContent env fs type
  have skip : ¬ ((type = .revision ∧ !cm.isEmpty) ∨
      (type ≠ .revision ∧ (cm.contentMap type).isSome)) := by
    simp [media, fresh]
  simp only [ContentManager.addNetworkContent, if_neg skip, generateUrlList, if_neg source]
    at keyed' ⊢
  generalize Content.new env fs type cm.loginInfo.boxId false =
    made at kind ref listed swept openRead keyed' ⊢
  obtain ⟨content, disk⟩ := made
  simp only at kind ref listed swept openRead keyed' ⊢
  have entered (name : QString) :=
    lookup_insertInfos cm.loginInfo content content.sourceList cm.contentFilesMap name
  refine ⟨⟨rfl, keyed', fun info mem => ?_, fun type' mem e pending => ?_⟩, fun other apart => ?_,
    openRead, swept⟩
  · obtain ⟨name, found⟩ := mem_contentFiles.mp mem
    rcases entered name with ⟨-, before⟩ | ⟨e, inList, -, new⟩
    · obtain ⟨type', mem, was⟩ := queued info (mem_contentFiles.mpr ⟨name, before.symm.trans found⟩)
      exact ⟨type', List.mem_append_left _ mem, was⟩
    · obtain rfl := Option.some.inj (new.symm.trans found)
      exact ⟨type, List.mem_append_right _ (List.mem_singleton_self type),
        same ▸ listed ▸ inList, ref⟩
  · rcases entered e.fileName with ⟨others, before⟩ | ⟨x, -, name, new⟩
    · rcases List.mem_append.mp mem with old | new
      · obtain ⟨info, mem, name⟩ := named type' old e pending
        obtain ⟨key, found⟩ := mem_contentFiles.mp mem
        have key' : key = e.fileName := (keyed key info found).symm.trans name
        exact ⟨info, mem_contentFiles.mpr
          ⟨key, by rw [key']; exact before.trans (key' ▸ found)⟩, name⟩
      · obtain rfl := List.mem_singleton.mp new
        exact absurd rfl (others e (listed ▸ same ▸ pending))
    · exact ⟨_, mem_contentFiles.mpr ⟨_, new⟩, name⟩
  · exact Function.update_of_ne apart _ _

/-- **The start of the second stage.** -/
theorem queueOf_stage (cm : ContentManager) (opens : ManifestsOpen fs)
    (pairs : ∀ type, type ≠ .revision → ∀ e ∈ stagedEntries env cm.loginInfo.boxId fs type,
      IsPair type e) :
    let advert := cm.clear.addNetworkContent env fs .advert
    let music := advert.1.addNetworkContent env advert.2 .music
    QueueOf env cm.loginInfo.boxId fs [.advert, .music] music.1 ∧
      Swept env cm.loginInfo.boxId (stagedEntries env cm.loginInfo.boxId fs .advert) fs advert.2 ∧
      Swept env cm.loginInfo.boxId (stagedEntries env cm.loginInfo.boxId fs .music) advert.2
        music.2 := by
  have empty : QueueOf env cm.loginInfo.boxId fs [] cm.clear := by
    refine ⟨rfl, Keyed.clear cm, fun info mem => ?_, fun _ mem => absurd mem List.not_mem_nil⟩
    obtain ⟨name, found⟩ := mem_contentFiles.mp mem
    cases found
  obtain ⟨first, others, openRead, swept⟩ := empty.addNetworkContent (by simp) rfl opens.1
    (pairs .advert (by simp)) rfl
  have staged : stagedEntries env cm.loginInfo.boxId
      (cm.clear.addNetworkContent env fs .advert).2 .music =
        stagedEntries env cm.loginInfo.boxId fs .music :=
    swept.stagedEntries_eq (by simp) (not_mem_stagedAdverts pairs (by decide))
      (not_mem_stagedAdverts pairs (by decide))
  have pairs' := pairs .music (by simp)
  have same : pendingEntries env cm.loginInfo.boxId
      (cm.clear.addNetworkContent env fs .advert).2 .music =
        pendingEntries env cm.loginInfo.boxId fs .music := by
    rw [pendingEntries, pendingEntries, staged]
    exact List.filter_congr fun e mem => swept.isPending_eq (by simp) (pairs' e mem)
  have opens' : (cm.clear.addNetworkContent env fs .advert).2.outcomes.openRead.head = true := by
    rcases openRead with still | next
    · rw [still]
      exact opens.1
    · rw [next]
      exact opens.2
  obtain ⟨both, -, -, swept'⟩ := first.addNetworkContent (by simp)
    (others .music (by simp)) opens' (staged ▸ pairs') same
  rw [staged] at swept'
  exact ⟨both, swept, swept'⟩

end ContentManager

end MediaUpdater
