import MediaUpdater.Content.Collect
import Mathlib.Data.List.Count

/-!
# `deleteExcessFiles`

The deletion of a MUSIC or ADVERT content under every outcome of its calls.  The
installed files that the manifest does not list are collected in one loop and removed
in a second one, which looks for all of them in the directory of the last of them.

## Main results

* `matchLoop_eq`, `diff_listed` — the matching loop computes a difference of lists, and
  what it leaves over are the installed files that are not listed.
* `LocalContent.matchExcess_exact` — the loop of a local content selects exactly those.
* `removeLoop_spec` — which files the second loop removes, call by call.
* `LocalContent.deleteExcessFiles_deleted` — both together.
-/

namespace MediaUpdater

open FileSystem CheckDownloadedContent

variable {env : Env} {boxId : QString} {fs fs' : FileSystem} {type : ContentType}
variable {c : Content} {e e' : Entry} {p q : Path}

/-! ### The matching loop -/

namespace Content

/-- The collections and the matching loop of `deleteExcessFiles`: the directory that the
loop leaves, the list of the excess files, and the disk. -/
def matchExcess (env : Env) (c : Content) (fs : FileSystem) : (Path × List Entry) × FileSystem :=
  let collected := collectContentFromFile env { c with standartSourceFiles := [] } fs
    (env.station.manifestFile c.boxId c.contentType)
  let scanned :=
    if c.contentType = .music then
      collectContentFromPath collected.1 collected.2 collected.1.destination
    else collectContentFromDir collected.1 collected.2 collected.1.destination
  (matchLoop scanned collected.2 scanned.destination scanned.standartSourceFiles []
    scanned.sourceList, collected.2)

/-- Where the matching loop looks for an unmatched file. -/
def excessDir (c : Content) (destination : Path) (source : Entry) : Path :=
  if c.contentType = .music then c.destination.child source.dirName else destination

theorem excessDir_excessDir (destination : Path) (source : Entry) :
    c.excessDir (c.excessDir destination source) = c.excessDir destination := by
  funext other
  unfold excessDir
  split <;> rfl

/-- **The matching loop is a difference of lists.**  The directory it leaves is that of
the last unmatched file. -/
theorem matchLoop_eq (destination : Path) (standart list source : List Entry) :
    c.matchLoop fs destination standart list source =
      (((source.diff standart).getLast?.map (c.excessDir destination)).getD destination,
        list ++ (source.diff standart).filter fun e =>
          fs.fileExists ((c.excessDir destination e).child e.fileName)) := by
  induction source generalizing destination standart list with
  | nil => simp [matchLoop]
  | cons e rest ih =>
      unfold matchLoop
      by_cases matched : e ∈ standart
      · rw [if_pos matched, ih, List.cons_diff_of_mem matched]
      · rw [if_neg matched, List.cons_diff_of_not_mem matched]
        show c.matchLoop fs (c.excessDir destination e) standart
          (if fs.fileExists ((c.excessDir destination e).child e.fileName) then list ++
          [e] else list)
            rest = _
        rw [ih, excessDir_excessDir, List.getLast?_cons]
        refine Prod.ext ?_ ?_
        · cases (rest.diff standart).getLast? <;> rfl
        · simp only
          split
          next there => simp [there]
          next absent => simp [absent]

/-- Past its guards the deletion runs the deletion loop on what the matching loop found. -/
theorem deleteExcessFiles_of_ready (c : Content) (media : c.contentType ≠ .revision)
    (command : fs.fileExists (env.station.commandFile c.boxId) = true)
    (manifest : fs.fileExists (env.station.manifestFile c.boxId c.contentType) = true)
    (status : checkRev env c.boxId fs
        ((env.station.manifestFile c.boxId c.contentType).getLast?.getD []) =
      CheckStatus.downloadOk.toInt) :
    c.deleteExcessFiles env fs =
      removeLoop (c.matchExcess env fs).1.1 (c.matchExcess env fs).2
        (c.matchExcess env fs).1.2 := by
  obtain ⟨contentType, isLocal, box, source, standart, destination, sourceDir⟩ := c
  cases contentType with
  | music | advert => simp [deleteExcessFiles, matchExcess, command, manifest, status]
  | revision => exact absurd rfl media

end Content

/-- The installed files that the matching leaves over are those that are not listed: the
missing entries in front of them use up only references of their own. -/
theorem mem_diff_listed {missing installed listed : List Entry} (part : missing.Sublist listed)
    (apart : ∀ e ∈ installed, e ∉ missing) (nodup : installed.Nodup) :
    e ∈ (missing ++ installed).diff listed ↔ e ∈ installed ∧ e ∉ listed := by
  rw [← List.count_pos_iff, List.count_diff, List.count_append]
  by_cases there : e ∈ installed
  · rw [List.count_eq_zero_of_not_mem (apart e there), List.count_eq_one_of_mem nodup there]
    have unlisted : e ∉ listed ↔ listed.count e = 0 := List.count_eq_zero.symm
    rw [unlisted]
    simp only [there, true_and]
    omega
  · rw [List.count_eq_zero_of_not_mem there]
    have fewer : missing.count e ≤ listed.count e := part.count_le e
    simp only [there, false_and, iff_false]
    omega

/-- They are left over in the order of the scan. -/
theorem diff_listed {missing installed listed : List Entry} (part : missing.Sublist listed)
    (apart : ∀ e ∈ installed, e ∉ missing) (nodup : installed.Nodup) :
    (missing ++ installed).diff listed = installed.filter (· ∉ listed) := by
  have members (e : Entry) : e ∈ (missing ++ installed).diff listed ↔ e ∈ installed ∧ e ∉ listed :=
    mem_diff_listed part apart nodup
  -- without the missing entries the difference is a part of what is installed
  have within : ((missing ++ installed).diff listed).Sublist installed := by
    have kept : ((missing ++ installed).diff listed).filter (· ∈ installed) =
        (missing ++ installed).diff listed :=
      List.filter_eq_self.mpr fun e mem => by simpa using ((members e).mp mem).1
    have none : missing.filter (· ∈ installed) = [] :=
      List.filter_eq_nil_iff.mpr fun e mem there => apart e (by simpa using there) mem
    have all : installed.filter (· ∈ installed) = installed :=
      List.filter_eq_self.mpr fun e mem => by simpa using mem
    have part := (List.diff_sublist (missing ++ installed) listed).filter (· ∈ installed)
    rwa [kept, List.filter_append, none, all, List.nil_append] at part
  have kept : ((missing ++ installed).diff listed).filter (· ∉ listed) =
      (missing ++ installed).diff listed :=
    List.filter_eq_self.mpr fun e mem => by simpa using ((members e).mp mem).2
  have part : ((missing ++ installed).diff listed).Sublist (installed.filter (· ∉ listed)) := by
    rw [← kept]
    exact within.filter _
  refine part.eq_of_length (List.Perm.length_eq ?_)
  refine (List.perm_ext_iff_of_nodup (nodup.sublist within) (nodup.filter _)).mpr fun e => ?_
  rw [members, List.mem_filter, decide_eq_true_eq]

/-! ### The deletion loop -/

/-- A removal that fails changes nothing. -/
theorem FileSystem.Frame.remove_head :
    Frame (fun q => q = p ∧ fs.outcomes.remove.head = true) fs (fs.remove p).2 := by
  have rest : Frame (fun q => q = p ∧ fs.outcomes.remove.head = true) fs
      { fs with outcomes := { fs.outcomes with remove := fs.outcomes.remove.tail } } :=
    .outcomes _ (fun reliable => by rw [reliable]; rfl) id
  unfold FileSystem.remove
  simp only
  split
  next removed => exact rest.trans (.forget ⟨rfl, (Bool.and_eq_true _ _ ▸ removed).2⟩)
  next => exact rest

namespace Content

/-- The removal of a file of the list is one that succeeds. -/
def Removes (destination : Path) (fs : FileSystem) (list : List Entry) (p : Path) : Prop :=
  ∃ i e, list[i]? = some e ∧ fs.outcomes.remove.get i = true ∧ p = destination.child e.fileName

theorem removes_cons {destination : Path} {rest : List Entry} :
    Removes destination fs (e :: rest) p ↔
      (p = destination.child e.fileName ∧ fs.outcomes.remove.head = true) ∨
        Removes destination (fs.remove q).2 rest p := by
  constructor
  · rintro ⟨i, x, found, succeeds, place⟩
    cases i with
    | zero =>
        obtain rfl : e = x := by simpa using found
        exact .inl ⟨place, succeeds⟩
    | succ i =>
        refine .inr ⟨i, x, by simpa using found, ?_, place⟩
        rw [outcomes_remove]
        exact succeeds
  · rintro (⟨place, succeeds⟩ | ⟨i, x, found, succeeds, place⟩)
    · exact ⟨0, e, rfl, succeeds, place⟩
    · rw [outcomes_remove] at succeeds
      exact ⟨i + 1, x, by simpa using found, succeeds, place⟩

/-- **The deletion loop**: it removes the files whose removal succeeds, from one
directory, and nothing else. -/
theorem removeLoop_spec (destination : Path) (list : List Entry) :
    Frame (Removes destination fs list) fs (removeLoop destination fs list) ∧
      ∀ p, Removes destination fs list p →
      (removeLoop destination fs list).fileExists p = false := by
  induction list generalizing fs with
  | nil =>
      refine ⟨.refl _ fs, fun p removes => ?_⟩
      obtain ⟨i, e, found, -, -⟩ := removes
      simp at found
  | cons e rest ih =>
      obtain ⟨frame, gone⟩ := @ih (fs.remove (destination.child e.fileName)).2
      rw [removeLoop]
      refine ⟨?_, fun p removes => ?_⟩
      · refine (FileSystem.Frame.remove_head.mono ?_).trans (frame.mono ?_)
        · intro p first
          exact removes_cons (q := p).mpr (.inl first)
        · intro p later
          exact removes_cons.mpr (.inr later)
      · by_cases later : Removes destination (fs.remove (destination.child e.fileName)).2 rest p
        · exact gone p later
        · obtain ⟨rfl, succeeds⟩ := (removes_cons.mp removes).resolve_right later
          rw [frame.fileExists later, fileExists_remove, succeeds]
          simp

end Content

/-! ### The files to delete -/

theorem openRead_snd (fs : FileSystem) (p : Path) : (fs.openRead p).2 =
    { fs with outcomes := { fs.outcomes with openRead := fs.outcomes.openRead.tail } } := by
  unfold FileSystem.openRead
  simp only
  split <;> rfl

/-- The entries that `deleteExcessFiles` reads: none when the manifest cannot be opened. -/
def readEntries (env : Env) (boxId : QString) (fs : FileSystem) (type : ContentType) : List Entry :=
  match (fs.openRead (env.station.manifestFile boxId type)).1 with
  | some bytes => manifestEntries type (env.fromUtf8 bytes)
  | none => []

theorem readEntries_eq {bytes : QByteArray}
    (content : fs.read (env.station.manifestFile boxId type) = some bytes)
    (opens : fs.outcomes.openRead.head = true) :
    readEntries env boxId fs type = manifestEntries type (env.fromUtf8 bytes) := by
  unfold readEntries FileSystem.openRead
  simp only [opens, if_true, content]

/-- The installed files that are not among these entries, in the order of a scan. -/
def excessEntries (env : Env) (boxId : QString) (fs : FileSystem) (type : ContentType) :
    List Entry :=
  (scan fs env.station.media type).filter (· ∉ readEntries env boxId fs type)

/-- The guards of `deleteExcessFiles`: the revision file and the manifest are there, and the
manifest was downloaded. -/
def DeletionReady (env : Env) (boxId : QString) (fs : FileSystem) (type : ContentType) : Prop :=
  fs.fileExists (env.station.commandFile boxId) = true ∧
    fs.fileExists (env.station.manifestFile boxId type) = true ∧
    checkRev env boxId fs ((env.station.manifestFile boxId type).getLast?.getD []) =
      CheckStatus.downloadOk.toInt

instance (boxId : QString) (type : ContentType) : Decidable (DeletionReady env boxId fs type) :=
  inferInstanceAs (Decidable (_ ∧ _ ∧ _))

/-- `p` is the path of a removal that succeeds: the name of an excess file in the directory
of the last excess file. -/
def Deletes (env : Env) (boxId : QString) (fs : FileSystem) (type : ContentType) (p : Path) :
    Prop :=
  ∃ i x, (excessEntries env boxId fs type)[i]? = some x ∧ fs.outcomes.remove.get i = true ∧
    ∃ last ∈ (excessEntries env boxId fs type).getLast?,
      p = pairPath env.station.media type ⟨last.dirName, x.fileName⟩

theorem installedPath_eq (media : type ≠ .revision) (pair : IsPair type e) :
    env.station.installedPath type e = pairPath env.station.media type e := by
  cases type with
  | music =>
      simp [Station.installedPath, Station.installedDir, Path.child_plain pair.dir,
        Path.child_plain pair.file, pairPath]
  | advert =>
      simp [Station.installedPath, Station.installedDir, pair.advert rfl,
        Path.child_plain plain_advertDir, Path.child_plain pair.file, pairPath]
  | revision => exact absurd rfl media

theorem isPair_of_mem_excessEntries (mem : e ∈ excessEntries env boxId fs type) : IsPair type e :=
  (mem_scan.mp (List.mem_of_mem_filter mem)).2.1

/-- A deleted path is an installed pair. -/
theorem Deletes.pair (deletes : Deletes env boxId fs type p) :
    ∃ e, IsPair type e ∧ p = pairPath env.station.media type e := by
  obtain ⟨i, x, found, -, last, atLast, place⟩ := deletes
  have pair := isPair_of_mem_excessEntries (List.mem_of_getElem? found)
  have pair' := isPair_of_mem_excessEntries (List.mem_of_getLast? atLast)
  exact ⟨⟨last.dirName, x.fileName⟩, ⟨pair'.dir, pair.file, pair'.advert⟩, place⟩

namespace LocalContent

variable (lc : LocalContent env boxId type c)

include lc

/-- The path of a file in the directory of an excess file. -/
theorem excess_child (media : type ≠ .revision) (pair : IsPair type e) (pair' : IsPair type e') :
    (c.excessDir c.destination e).child e'.fileName =
      pairPath env.station.media type ⟨e.dirName, e'.fileName⟩ := by
  rw [Content.excessDir, lc.contentType, lc.destination]
  cases type with
  | music =>
      simp [Path.child_plain pair.dir, Path.child_plain pair'.file, pairPath, ContentType.dir]
  | advert => simp [Path.child_plain pair'.file, pairPath, ContentType.dir]
  | revision => exact absurd rfl media

/-- A local content reads its manifest, if it can be opened. -/
theorem collectContentFromFile_opened (media : type ≠ .revision)
    (status : checkRev env boxId fs ((env.station.manifestFile boxId type).getLast?.getD []) =
      CheckStatus.downloadOk.toInt) :
    Content.collectContentFromFile env c fs (env.station.manifestFile boxId type) =
      ({ c with
          sourceDir := [type.dir]
          sourceList := (readEntries env boxId fs type).filter fun e =>
            !(trust env boxId fs e || fs.fileExists (env.station.installedPath type e))
          standartSourceFiles := c.standartSourceFiles ++ readEntries env boxId fs type },
        (fs.openRead (env.station.manifestFile boxId type)).2) := by
  obtain ⟨contentType, isLocal, box, sourceList, standart, place, sourceDir⟩ := c
  obtain ⟨rfl, isLocal', rfl, -, -⟩ := lc
  simp only at isLocal' status media ⊢
  have tested :
    (fun e => !(trust env box (fs.openRead (env.station.manifestFile box contentType)).2 e ||
      (fs.openRead (env.station.manifestFile box contentType)).2.fileExists
        (env.station.installedPath contentType e))) =
      fun e => !(trust env box fs e || fs.fileExists
        (env.station.installedPath contentType e)) := by
    rw [openRead_snd]
    rfl
  unfold Content.collectContentFromFile readEntries
  cases opened : (fs.openRead (env.station.manifestFile box contentType)).1 with
  | none =>
      cases contentType with
      | music | advert => simp [status, opened, ContentType.dir]
      | revision => exact absurd rfl media
  | some bytes =>
      cases contentType with
      | music | advert =>
          simp only [status, if_true, opened]
          rw [collectEntries_local (by exact isLocal'), tested]
          simp [ContentType.dir]
      | revision => exact absurd rfl media

/-- When a guard fails, nothing happens. -/
theorem deleteExcessFiles_of_not_ready (media : type ≠ .revision)
    (unready : ¬ DeletionReady env boxId fs type) : c.deleteExcessFiles env fs = fs := by
  obtain ⟨rfl, -, rfl, -, -⟩ := lc
  unfold DeletionReady at unready
  unfold Content.deleteExcessFiles
  simp only
  split
  · rfl
  next commanded =>
    have command : fs.fileExists (env.station.commandFile c.boxId) = true := by
      simpa using commanded
    cases kind : c.contentType with
    | music | advert =>
        rw [kind] at unready
        rw [if_neg]
        simpa [command] using unready
    | revision => exact absurd kind media

/-- What the matching loop finds: the excess files, and the directory of the last of them. -/
theorem matchExcess_eq (media : type ≠ .revision)
    (status : checkRev env boxId fs ((env.station.manifestFile boxId type).getLast?.getD []) =
      CheckStatus.downloadOk.toInt) :
    c.matchExcess env fs =
      ((((excessEntries env boxId fs type).getLast?.map (c.excessDir c.destination)).getD
          c.destination, excessEntries env boxId fs type),
        (fs.openRead (env.station.manifestFile boxId type)).2) := by
  have there (e : Entry) (mem : e ∈ scan fs env.station.media type) :
      fs.fileExists (pairPath env.station.media type e) = true := by
    obtain ⟨bytes, content⟩ := Option.isSome_iff_exists.mp (mem_scan.mp mem).2.2.2
    exact fileExists_of_read content
  -- what the source list adds to the scan are entries whose files are missing
  have excess : ((readEntries env boxId fs type).filter (fun e =>
        !(trust env boxId fs e || fs.fileExists (env.station.installedPath type e))) ++
      scan fs env.station.media type).diff (readEntries env boxId fs type) =
        excessEntries env boxId fs type := by
    refine diff_listed List.filter_sublist (fun x mem missed => ?_) scan_nodup
    have absent := (List.mem_filter.mp missed).2
    rw [installedPath_eq media (mem_scan.mp mem).2.1, there x mem] at absent
    simp at absent
  have all : ((excessEntries env boxId fs type).filter fun e =>
      fs.fileExists ((c.excessDir c.destination e).child e.fileName)) =
        excessEntries env boxId fs type := by
    refine List.filter_eq_self.mpr fun e mem => ?_
    have pair := isPair_of_mem_excessEntries mem
    rw [lc.excess_child media pair pair]
    exact there e (List.mem_of_mem_filter mem)
  have cleared : LocalContent env boxId type { c with standartSourceFiles := [] } :=
    { lc with }
  have collected := cleared.collectContentFromFile_opened media status
  -- the list as the matching loop computes it
  refine Eq.trans ?_ (congrArg (fun list => ((_, list), _)) all)
  rw [← excess]
  obtain ⟨contentType, isLocal, box, source, standart, destination, sourceDir⟩ := c
  obtain ⟨rfl, -, rfl, -, placed⟩ := lc
  simp only at placed
  subst placed
  cases contentType with
  | music =>
      simp only [Content.matchExcess, collected, Content.collectContentFromPath,
        Content.matchLoop_eq, openRead_snd]
      rfl
  | advert =>
      simp only [Content.matchExcess, collected, Content.collectContentFromDir,
        Content.matchLoop_eq, openRead_snd]
      rfl
  | revision => exact absurd rfl media

/-- **The matching loop selects the excess exactly**: of a manifest that has been read,
with any repetition in it, every visible installed file that is not listed joins the list
once, and nothing else does. -/
theorem matchExcess_exact (media : type ≠ .revision) {bytes : QByteArray}
    (content : fs.read (env.station.manifestFile boxId type) = some bytes)
    (status : checkRev env boxId fs ((env.station.manifestFile boxId type).getLast?.getD []) =
      CheckStatus.downloadOk.toInt)
    (opens : fs.outcomes.openRead.head = true) (e : Entry) :
    (c.matchExcess env fs).1.2.count e =
      if IsPair type e ∧ VisiblePair type e ∧
          (fs.read (pairPath env.station.media type e)).isSome ∧
          e ∉ manifestEntries type (env.fromUtf8 bytes) then 1
      else 0 := by
  have members : e ∈ excessEntries env boxId fs type ↔ IsPair type e ∧ VisiblePair type e ∧
      (fs.read (pairPath env.station.media type e)).isSome ∧
        e ∉ manifestEntries type (env.fromUtf8 bytes) := by
    rw [excessEntries, List.mem_filter, decide_eq_true_eq, mem_scan, readEntries_eq content opens]
    tauto
  rw [lc.matchExcess_eq media status]
  split
  next selected =>
    exact List.count_eq_one_of_mem (scan_nodup.filter _) (members.mpr selected)
  next rejected =>
    exact List.count_eq_zero_of_not_mem fun mem => rejected (members.mp mem)

/-- The two loops of the deletion. -/
theorem deleteExcessFiles_eq (media : type ≠ .revision) (ready : DeletionReady env boxId fs type) :
    c.deleteExcessFiles env fs =
      Content.removeLoop (((excessEntries env boxId fs type).getLast?.map
          (c.excessDir c.destination)).getD c.destination)
        (fs.openRead (env.station.manifestFile boxId type)).2
        (excessEntries env boxId fs type) := by
  obtain ⟨command, manifest, status⟩ := ready
  have found := lc.matchExcess_eq media status
  obtain ⟨rfl, -, rfl, -, -⟩ := lc
  rw [c.deleteExcessFiles_of_ready media command manifest status, found]

/-- **The deletion**, under every outcome of its calls. -/
theorem deleteExcessFiles_deleted (media : type ≠ .revision)
    (ready : DeletionReady env boxId fs type) :
    Frame (Deletes env boxId fs type) fs (c.deleteExcessFiles env fs) ∧
      ∀ p, Deletes env boxId fs type p → (c.deleteExcessFiles env fs).fileExists p = false := by
  have opened : Frame (Deletes env boxId fs type) fs
      (fs.openRead (env.station.manifestFile boxId type)).2 := .openRead
  -- the directory of the loop is that of the last file
  have place (last x : Entry) (atLast : last ∈ (excessEntries env boxId fs type).getLast?)
      (mem : x ∈ excessEntries env boxId fs type) :
      (((excessEntries env boxId fs type).getLast?.map (c.excessDir c.destination)).getD
        c.destination).child x.fileName =
          pairPath env.station.media type ⟨last.dirName, x.fileName⟩ := by
    have found : (excessEntries env boxId fs type).getLast? = some last := atLast
    rw [found]
    exact lc.excess_child media (isPair_of_mem_excessEntries (List.mem_of_getLast? found))
      (isPair_of_mem_excessEntries mem)
  have removes (p : Path) : Content.Removes (((excessEntries env boxId fs type).getLast?.map
      (c.excessDir c.destination)).getD c.destination)
        (fs.openRead (env.station.manifestFile boxId type)).2 (excessEntries env boxId fs type) p ↔
      Deletes env boxId fs type p := by
    rw [openRead_snd]
    constructor
    · rintro ⟨i, x, found, succeeds, rfl⟩
      obtain ⟨last, atLast⟩ := Option.isSome_iff_exists.mp
        (List.getLast?_isSome.mpr (List.ne_nil_of_mem (List.mem_of_getElem? found)))
      exact ⟨i, x, found, succeeds, last, atLast, place last x atLast (List.mem_of_getElem? found)⟩
    · rintro ⟨i, x, found, succeeds, last, atLast, rfl⟩
      exact ⟨i, x, found, succeeds, (place last x atLast (List.mem_of_getElem? found)).symm⟩
  rw [lc.deleteExcessFiles_eq media ready]
  obtain ⟨frame, gone⟩ :=
    @Content.removeLoop_spec (fs.openRead (env.station.manifestFile boxId type)).2
    (((excessEntries env boxId fs type).getLast?.map (c.excessDir c.destination)).getD
      c.destination)
    (excessEntries env boxId fs type)
  exact ⟨opened.trans (frame.mono fun p => (removes p).mp),
    fun p deletes => gone p ((removes p).mpr deletes)⟩

/-- The deletion touches installed pairs only, and changes no file. -/
theorem deleteExcessFiles_frame (media : type ≠ .revision) :
    Frame (fun p => ∃ e, p = pairPath env.station.media type e) fs (c.deleteExcessFiles env fs) ∧
      ∀ p, (c.deleteExcessFiles env fs).read p = fs.read p ∨
        (c.deleteExcessFiles env fs).read p = none := by
  by_cases ready : DeletionReady env boxId fs type
  · obtain ⟨frame, gone⟩ := lc.deleteExcessFiles_deleted media ready
    refine ⟨frame.mono fun p deletes => ?_, fun p => ?_⟩
    · obtain ⟨e, -, place⟩ := deletes.pair
      exact ⟨e, place⟩
    · by_cases deletes : Deletes env boxId fs type p
      · exact .inr (read_eq_none (gone p deletes))
      · exact .inl (frame.read p deletes)
  · rw [lc.deleteExcessFiles_of_not_ready media ready]
    exact ⟨.refl _ fs, fun p => .inl rfl⟩

end LocalContent

/-- A disk with a music manifest that lists `rock/a.mp3`, and some installed music. -/
def demoInstalled (installed : List Entry) : FileSystem :=
  setRev .demo (str "7")
    (installed.foldl (fun fs e => fs.put (pairPath Env.demo.station.media .music e) (ascii "music"))
      ((blank.put (Env.demo.station.commandFile (str "7")) (ascii "revision=1")).put
        (Env.demo.station.chanelsFile (str "7")) (ascii "rock=ftp/rock/a.mp3")))
    (str "chanels") .downloadOk

/-- A manifest that lists one of the two installed files. -/
theorem LocalContent.matchExcess_exact_demo :
    (((Content.new .demo blank .music (str "7") true).1.matchExcess .demo
        (demoInstalled [⟨str "rock", str "a.mp3"⟩, ⟨str "rock", str "old.mp3"⟩])).1.2.count
        ⟨str "rock", str "old.mp3"⟩) = 1 := by
  have local_ :
    LocalContent .demo (str "7") .music (Content.new .demo blank .music (str "7") true).1 :=
    localContent_new (by simp)
  have content : (demoInstalled [⟨str "rock", str "a.mp3"⟩, ⟨str "rock", str "old.mp3"⟩]).read
      (Env.demo.station.manifestFile (str "7") .music) = some (ascii "rock=ftp/rock/a.mp3") := by
    decide
  rw [local_.matchExcess_exact (by simp) content (by decide) rfl]
  decide

/-- The scan does not see an installed file with a hidden name. -/
theorem LocalContent.matchExcess_hidden :
    let fs := demoInstalled [⟨str "rock", str ".old.mp3"⟩]
    let listed := manifestEntries .music (Env.demo.fromUtf8 (ascii "rock=ftp/rock/a.mp3"))
    fs.read (Env.demo.station.manifestFile (str "7") .music) = some (ascii "rock=ftp/rock/a.mp3") ∧
      checkRev .demo (str "7") fs (str "chanels") = CheckStatus.downloadOk.toInt ∧
      fs.outcomes.openRead.head = true ∧
      ¬ ∀ e, ((Content.new .demo blank .music (str "7") true).1.matchExcess .demo fs).1.2.count e =
        if IsPair .music e ∧ (fs.read (pairPath Env.demo.station.media .music e)).isSome ∧
          e ∉ listed then 1 else 0 := by
  refine ⟨by decide, by decide, rfl, fun exact_ => ?_⟩
  exact absurd (exact_ ⟨str "rock", str ".old.mp3"⟩) (by decide)

namespace LocalContent

variable (lc : LocalContent env boxId type c)

include lc

end LocalContent

end MediaUpdater
