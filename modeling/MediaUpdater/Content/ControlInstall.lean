import MediaUpdater.Content.ControlFiles

/-!
# Installing the control files

The sync of the control files on a disk whose calls all succeed, file by file.  The
copying loop installs the bytes of a staged file whose status is `DOWNLOAD_OK` when they
differ from what is installed (`replacement`), the deletion removes the files that are
neither staged nor known (`Dropped`); no file has a part in the decision about another.

## Main results

* `copyEntries_installed`, `deleteControlFiles_dropped` — the two loops.
* `ControlContent.sync_faithful` — both together.
-/

namespace MediaUpdater

open FileSystem CheckDownloadedContent

variable {env : Env} {boxId : QString} {fs fs' : FileSystem} {c : Content} {e x : Entry} {p : Path}

/-- Where a control file is staged. -/
def Station.stagedControl (st : Station) (boxId : QString) (e : Entry) : Path :=
  st.boxDir boxId ++ [e.dirName, e.fileName]

/-- Where a control file is installed. -/
def Station.installedControl (st : Station) (e : Entry) : Path := st.timetablePath ++ [e.fileName]

/-- The bytes that the copying loop installs for a control file, if it does. -/
def replacement (env : Env) (boxId : QString) (fs : FileSystem) (e : Entry) : Option QByteArray :=
  match fs.read (env.station.stagedControl boxId e) with
  | some bytes =>
      if checkRev env boxId fs e.fileName = CheckStatus.downloadOk.toInt ∧
          bytes ≠ (fs.read (env.station.installedControl e)).getD [] then some bytes
      else none
  | none => none

/-- A replacement is the staged file, downloaded and different from what is installed. -/
theorem replacement_eq_some {bytes : QByteArray} :
    replacement env boxId fs e = some bytes ↔
      fs.read (env.station.stagedControl boxId e) = some bytes ∧
        checkRev env boxId fs e.fileName = CheckStatus.downloadOk.toInt ∧
        bytes ≠ (fs.read (env.station.installedControl e)).getD [] := by
  unfold replacement
  cases staged : fs.read (env.station.stagedControl boxId e) with
  | none => simp
  | some content =>
      simp only [Option.ite_none_right_eq_some, Option.some.injEq]
      constructor
      · rintro ⟨ready, rfl⟩
        exact ⟨rfl, ready⟩
      · rintro ⟨rfl, ready⟩
        exact ⟨ready, rfl⟩

/-- A control file that the deletion removes: it is neither staged nor known. -/
def Dropped (env : Env) (boxId : QString) (fs : FileSystem) (e : Entry) : Prop :=
  fs.fileExists (env.station.stagedControl boxId e) = false ∧
    checkRev env boxId fs e.fileName = CheckStatus.default.toInt

instance (boxId : QString) (e : Entry) : Decidable (Dropped env boxId fs e) :=
  inferInstanceAs (Decidable (_ ∧ _))

theorem installedControl_inj (same : env.station.installedControl e =
    env.station.installedControl x) :
    e.fileName = x.fileName := by
  simpa [Station.installedControl] using same

theorem stagedControl_ne_installedControl :
    env.station.stagedControl boxId e ≠ env.station.installedControl x :=
  boxDir_append_ne_timetable [e.dirName, e.fileName] [x.fileName]

/-- What the decisions about the control files read is the same on both disks, for a file
whose installed copy is the same. -/
structure SameControl (env : Env) (boxId : QString) (fs fs' : FileSystem) : Prop where
  staged : ∀ e, fs'.read (env.station.stagedControl boxId e) =
    fs.read (env.station.stagedControl boxId e)
  stagedExists : ∀ e, fs'.fileExists (env.station.stagedControl boxId e) =
    fs.fileExists (env.station.stagedControl boxId e)
  status : ∀ name, checkRev env boxId fs' name = checkRev env boxId fs name

namespace SameControl

theorem replacement_eq (same : SameControl env boxId fs fs')
    (installed : fs'.read (env.station.installedControl e) =
      fs.read (env.station.installedControl e)) :
    replacement env boxId fs' e = replacement env boxId fs e := by
  rw [replacement, replacement, same.staged, same.status, installed]

theorem dropped_iff (same : SameControl env boxId fs fs') :
    Dropped env boxId fs' e ↔ Dropped env boxId fs e := by
  rw [Dropped, Dropped, same.stagedExists, same.status]

end SameControl

/-- The timetable directory and the keys have no part in the decisions. -/
theorem FileSystem.Frame.sameControl (frame : Frame (ControlPath env boxId) fs fs') :
    SameControl env boxId fs fs' := by
  have away (dir file : QString) :
    ¬ ControlPath env boxId (env.station.boxDir boxId ++ [dir, file]) := by
    rintro (same | ⟨name, same⟩)
    · simp [Station.checkstorage] at same
    · exact boxDir_append_ne_timetable _ _ same
  exact ⟨fun e => frame.read _ (away _ _), fun e => frame.fileExists (away _ _),
    frame.checkRev (away _ _)⟩

namespace ControlContent

variable (cc : ControlContent env boxId c)

include cc

theorem copyDestination_eq (plain : Plain e.fileName) :
    c.destinationPath e = env.station.installedControl e := by
  rw [Content.destinationPath, cc.contentType]
  exact cc.destinationPath_eq plain

/-- One turn of the copying loop installs the replacement or does nothing. -/
theorem copyEntry_eq (reliable : fs.Reliable) (plain : Plain e.dirName ∧ Plain e.fileName) :
    c.copyEntry env fs e =
      if (replacement env boxId fs e).isSome then c.installFile env fs e else (false, fs) := by
  have source : c.sourcePath e = env.station.stagedControl boxId e := by
    rw [cc.copySource_eq plain]
    rfl
  have name : (env.station.stagedControl boxId e).getLast?.getD [] = e.fileName := by
    simp [Station.stagedControl]
  unfold Content.copyEntry replacement
  simp only [cc.contentType, reliable.openRead_eq, source, cc.copyDestination_eq plain.2,
    cc.box, name]
  cases fs.read (env.station.stagedControl boxId e) with
  | none => rfl
  | some bytes =>
      simp only
      by_cases status : checkRev env boxId fs e.fileName = CheckStatus.downloadOk.toInt
      · by_cases same : bytes = (fs.read (env.station.installedControl e)).getD []
        · simp [← same]
        · simp [status, same]
      · simp [status]

/-- Copying one control file. -/
theorem copyEntry_installed (reliable : fs.Reliable) (plain : Plain e.dirName ∧ Plain e.fileName) :
    (c.copyEntry env fs e).1 = (replacement env boxId fs e).isSome ∧
      ∀ p, (c.copyEntry env fs e).2.read p =
        if p = env.station.installedControl e then
          (replacement env boxId fs e).or (fs.read p) else fs.read p := by
  rw [cc.copyEntry_eq reliable plain]
  cases replaced : replacement env boxId fs e with
  | none =>
      refine ⟨rfl, fun p => ?_⟩
      show fs.read p = _
      split <;> rfl
  | some bytes =>
      obtain ⟨staged, -, -⟩ := replacement_eq_some.mp replaced
      obtain ⟨cleared, removed, reliable', free, frame⟩ :=
        Reliable.remove_exists reliable (env.station.installedControl e)
      have source : cleared.read (c.sourcePath e) = some bytes := by
        rw [cc.copySource_eq plain]
        exact (frame.read _ stagedControl_ne_installedControl).trans staged
      unfold Content.installFile
      simp only [Option.isSome_some, cc.contentType, cc.box, cc.copyDestination_eq plain.2, removed,
        reliable'.copy_eq source free, if_true]
      refine ⟨trivial, fun p => ?_⟩
      rw [read_remove, read_put]
      split
      · rfl
      next other => exact frame.read p other

/-- **The copying loop**, for files of different names. -/
theorem copyEntries_installed {entries : List Entry} (reliable : fs.Reliable)
    (plain : ∀ e ∈ entries, Plain e.dirName ∧ Plain e.fileName)
    (names : (entries.map Entry.fileName).Nodup) :
    (c.copyEntries env fs entries).1 =
        entries.any (fun e => (replacement env boxId fs e).isSome) ∧
      (∀ e ∈ entries, (c.copyEntries env fs entries).2.read (env.station.installedControl e) =
        (replacement env boxId fs e).or (fs.read (env.station.installedControl e))) ∧
      ∀ p, (∀ e ∈ entries, p ≠ env.station.installedControl e) →
        (c.copyEntries env fs entries).2.read p = fs.read p := by
  induction entries generalizing fs with
  | nil => exact ⟨rfl, fun e mem => absurd mem List.not_mem_nil, fun p _ => rfl⟩
  | cons e rest ih =>
      obtain ⟨fresh, names⟩ := List.nodup_cons.mp names
      have first := plain e List.mem_cons_self
      obtain ⟨copied, read⟩ := cc.copyEntry_installed reliable first
      have frame : Frame _ fs (c.copyEntry env fs e).2 := (cc.copyEntry_frame first.2).frame
      obtain ⟨others, installed, away⟩ := ih (frame.reliable reliable)
        (fun x mem => plain x (List.mem_cons_of_mem e mem)) names
      -- the first file is none of the others
      have other (x : Entry) (mem : x ∈ rest) :
          env.station.installedControl x ≠ env.station.installedControl e := fun same =>
        fresh (installedControl_inj same ▸ List.mem_map_of_mem mem)
      have kept (x : Entry) (mem : x ∈ rest) :
          (c.copyEntry env fs e).2.read (env.station.installedControl x) =
            fs.read (env.station.installedControl x) := by
        rw [read, if_neg (other x mem)]
      have later (x : Entry) (mem : x ∈ rest) :
          replacement env boxId (c.copyEntry env fs e).2 x = replacement env boxId fs x :=
        frame.sameControl.replacement_eq (kept x mem)
      rw [Content.copyEntries]
      refine ⟨?_, fun x mem => ?_, fun p apart => ?_⟩
      · rw [List.any_cons, copied]
        show (_ || (c.copyEntries env (c.copyEntry env fs e).2 rest).1) = _
        rw [others]
        refine congrArg _ (Bool.eq_iff_iff.mpr ?_)
        rw [List.any_eq_true, List.any_eq_true]
        exact exists_congr fun x => and_congr_right fun mem => by rw [later x mem]
      · rcases List.mem_cons.mp mem with rfl | inRest
        · show (c.copyEntries env (c.copyEntry env fs x).2 rest).2.read _ = _
          rw [away _ fun y mem same => other y mem same.symm, read, if_pos rfl]
        · show (c.copyEntries env (c.copyEntry env fs e).2 rest).2.read _ = _
          rw [installed x inRest, later x inRest, kept x inRest]
      · show (c.copyEntries env (c.copyEntry env fs e).2 rest).2.read p = _
        rw [away p fun x mem => apart x (List.mem_cons_of_mem e mem), read,
          if_neg (apart e List.mem_cons_self)]

/-- One turn of the deletion loop. -/
theorem dropEntry (reliable : fs.Reliable) (plain : Plain e.dirName ∧ Plain e.fileName) :
    ∃ dropped,
      (if !fs.fileExists ((c.sourceDir.child e.dirName).child e.fileName) &&
          checkRev env c.boxId fs
              (((c.sourceDir.child e.dirName).child e.fileName).getLast?.getD []) =
            CheckStatus.default.toInt &&
          fs.fileExists (c.destination.child e.fileName) then
        (fs.remove (c.destination.child e.fileName)).2 else fs) = dropped ∧
      (Dropped env boxId fs e → dropped.fileExists (env.station.installedControl e) = false) ∧
      Frame (· = env.station.installedControl e) fs dropped ∧
      (¬ Dropped env boxId fs e → dropped = fs) := by
  have source : (c.sourceDir.child e.dirName).child e.fileName =
      env.station.stagedControl boxId e := by
    rw [cc.sourcePath_eq plain]
    rfl
  have place : c.destination.child e.fileName = env.station.installedControl e :=
    cc.destinationPath_eq plain.2
  have name : (env.station.stagedControl boxId e).getLast?.getD [] = e.fileName := by
    simp [Station.stagedControl]
  rw [source, place, name, cc.box]
  refine ⟨_, rfl, fun ⟨unstaged, unknown⟩ => ?_, ?_, fun keeps => ?_⟩
  · simp only [unstaged, unknown, Bool.not_false, decide_true, Bool.true_and]
    split
    next there =>
      rw [reliable.remove_eq, if_pos there]
      simp
    next absent => simpa using absent
  · split
    · exact .remove rfl
    · exact .refl _ fs
  · rw [if_neg]
    intro removes
    simp only [Bool.and_eq_true, Bool.not_eq_true', decide_eq_true_eq] at removes
    exact keeps removes.1

/-- **The deletion loop.** -/
theorem deleteControlFiles_dropped {entries : List Entry} (reliable : fs.Reliable)
    (plain : ∀ e ∈ entries, Plain e.dirName ∧ Plain e.fileName) :
    (∀ e ∈ entries, Dropped env boxId fs e →
        (c.deleteControlFiles env fs entries).fileExists (env.station.installedControl e) = false) ∧
      Frame (fun p => ∃ e ∈ entries, Dropped env boxId fs e ∧ p = env.station.installedControl e) fs
        (c.deleteControlFiles env fs entries) := by
  induction entries generalizing fs with
  | nil => exact ⟨fun e mem => absurd mem List.not_mem_nil, .refl _ fs⟩
  | cons e rest ih =>
      have first := plain e List.mem_cons_self
      obtain ⟨dropped, deleted, gone, frame, kept⟩ := cc.dropEntry reliable first
      have same : SameControl env boxId fs dropped :=
        (frame.mono fun p place => .inr ⟨e.fileName, place⟩).sameControl
      obtain ⟨others, away⟩ := ih (frame.reliable reliable)
        fun x mem => plain x (List.mem_cons_of_mem e mem)
      rw [Content.deleteControlFiles]
      simp only [deleted]
      refine ⟨fun x mem drops => ?_, ?_⟩
      · by_cases later : ∃ y ∈ rest, Dropped env boxId dropped y ∧
            env.station.installedControl x = env.station.installedControl y
        · obtain ⟨y, inRest, drops', place⟩ := later
          rw [place]
          exact others y inRest drops'
        · have only : x = e := by
            rcases List.mem_cons.mp mem with same | inRest
            · exact same
            · exact absurd ⟨x, inRest, same.dropped_iff.mpr drops, rfl⟩ later
          subst only
          rw [away.fileExists later]
          exact gone drops
      · refine FileSystem.Frame.trans (?_ : Frame _ fs dropped) (away.mono ?_)
        · by_cases drops : Dropped env boxId fs e
          · exact frame.mono fun p place => ⟨e, List.mem_cons_self, drops, place⟩
          · rw [kept drops]
            exact .refl _ fs
        · rintro p ⟨x, mem, drops, place⟩
          exact ⟨x, List.mem_cons_of_mem e mem, same.dropped_iff.mp drops, place⟩

/-- The deletion of the control files needs the revision file. -/
theorem deleteExcessFiles_eq :
    c.deleteExcessFiles env fs =
      if fs.fileExists (env.station.commandFile boxId) = true then
        c.deleteControlFiles env fs Content.playerControlFiles
      else fs := by
  unfold Content.deleteExcessFiles
  simp only [cc.contentType, cc.box, cc.sourceList]
  cases fs.fileExists (env.station.commandFile boxId) <;> rfl

/-! ### The sync -/

/-- What is installed after the sync, and what the sync answers. -/
theorem sync_installed (reliable : fs.Reliable) :
    (c.sync env fs).1 =
        Content.playerControlFiles.any (fun e => (replacement env boxId fs e).isSome) ∧
      (∀ e ∈ Content.playerControlFiles,
        (c.sync env fs).2.read (env.station.installedControl e) =
          if fs.fileExists (env.station.commandFile boxId) = true ∧ Dropped env boxId fs e then none
          else (replacement env boxId fs e).or (fs.read (env.station.installedControl e))) ∧
      ∀ e ∈ Content.playerControlFiles, Dropped env boxId fs e →
        fs.fileExists (env.station.commandFile boxId) = true →
          (c.sync env fs).2.fileExists (env.station.installedControl e) = false := by
  have names : (Content.playerControlFiles.map Entry.fileName).Nodup := by decide
  let copied := (c.copyEntries env fs Content.playerControlFiles).2
  obtain ⟨answer, installed, -⟩ :=
    cc.copyEntries_installed reliable plain_playerControlFiles names
  have frame : ControlFrame env boxId fs copied :=
    cc.copyEntries_frame fun e mem => (plain_playerControlFiles e mem).2
  have same : SameControl env boxId fs copied := frame.frame.sameControl
  have command : copied.fileExists (env.station.commandFile boxId) =
      fs.fileExists (env.station.commandFile boxId) :=
    same.stagedExists ⟨str "command", str "command"⟩
  have synced : c.sync env fs = ((c.copyEntries env fs Content.playerControlFiles).1,
      c.deleteExcessFiles env copied) := by
    unfold Content.sync Content.copyToDestination
    rw [cc.sourceList]
  rw [synced, cc.deleteExcessFiles_eq, command]
  refine ⟨answer, ?_⟩
  split
  next present =>
    obtain ⟨gone, away⟩ := cc.deleteControlFiles_dropped (frame.frame.reliable reliable)
      plain_playerControlFiles
    refine ⟨fun e mem => ?_, fun e mem drops _ => gone e mem (same.dropped_iff.mpr drops)⟩
    split
    next drops => exact read_eq_none (gone e mem (same.dropped_iff.mpr drops.2))
    next keeps =>
      rw [← installed e mem]
      refine away.read _ ?_
      rintro ⟨x, mem', drops, place⟩
      -- the names of the control files differ
      obtain rfl := List.inj_on_of_nodup_map names mem mem' (installedControl_inj place)
      exact keeps ⟨present, same.dropped_iff.mp drops⟩
  next absent =>
    refine ⟨fun e mem => ?_, fun e mem _ present => absurd present absent⟩
    rw [if_neg fun both => absent both.1]
    exact installed e mem

/-- A file that was downloaded is installed with its bytes. -/
theorem sync_ready (reliable : fs.Reliable) (mem : e ∈ Content.playerControlFiles)
    (status : checkRev env boxId fs e.fileName = CheckStatus.downloadOk.toInt)
    {bytes : QByteArray} (staged : fs.read (env.station.stagedControl boxId e) = some bytes) :
    ((c.sync env fs).2.read (env.station.installedControl e)).getD [] = bytes := by
  have keeps :
    ¬ (fs.fileExists (env.station.commandFile boxId) = true ∧ Dropped env boxId fs e) := by
    rintro ⟨-, -, unknown⟩
    exact absurd (status.symm.trans unknown) (by decide)
  rw [(cc.sync_installed reliable).2.1 e mem, if_neg keeps]
  by_cases same : bytes = (fs.read (env.station.installedControl e)).getD []
  · have stays : replacement env boxId fs e = none := by
      refine Option.eq_none_iff_forall_ne_some.mpr fun other replaced => ?_
      obtain ⟨staged', -, differs⟩ := replacement_eq_some.mp replaced
      obtain rfl := Option.some.inj (staged.symm.trans staged')
      exact differs same
    rw [stays, Option.none_or, same]
  · rw [replacement_eq_some.mpr ⟨staged, status, same⟩]
    rfl

/-- **The sync of the control files is faithful.**  A file that was downloaded is installed
with its bytes, one that is neither staged nor known is gone when there is a revision file,
every other one stays, and the staged files stay; the answer says whether a file was
replaced by different bytes, an absent file counting as empty. -/
theorem sync_faithful (reliable : fs.Reliable) :
    let synced := c.sync env fs
    (∀ e ∈ Content.playerControlFiles,
      let staged := env.station.stagedControl boxId e
      let installed := env.station.installedControl e
      let status := checkRev env boxId fs e.fileName
      let command := fs.fileExists (env.station.commandFile boxId)
      (status = CheckStatus.downloadOk.toInt → ∀ bytes, fs.read staged = some bytes →
          (synced.2.read installed).getD [] = bytes) ∧
        (status = CheckStatus.default.toInt → fs.fileExists staged = false → command = true →
          synced.2.fileExists installed = false) ∧
        (¬ (status = CheckStatus.downloadOk.toInt ∧ (fs.read staged).isSome) →
          ¬ (status = CheckStatus.default.toInt ∧ fs.fileExists staged = false ∧ command = true) →
            synced.2.read installed = fs.read installed) ∧
        synced.2.read staged = fs.read staged) ∧
      (synced.1 = true ↔ ∃ e ∈ Content.playerControlFiles, ∃ bytes,
        synced.2.read (env.station.installedControl e) = some bytes ∧
          bytes ≠ (fs.read (env.station.installedControl e)).getD []) := by
  intro synced
  obtain ⟨answer, installed, gone⟩ := cc.sync_installed reliable
  have kept : SameControl env boxId fs synced.2 := cc.sync_frame.frame.sameControl
  refine ⟨fun e mem => ⟨fun status bytes staged => ?_, fun status unstaged command => ?_,
    fun unready known => ?_, kept.staged e⟩, ?_⟩
  · exact cc.sync_ready reliable mem status staged
  · exact gone e mem ⟨unstaged, status⟩ command
  · have keeps :
      ¬ (fs.fileExists (env.station.commandFile boxId) = true ∧ Dropped env boxId fs e) :=
      fun ⟨command, unstaged, unknown⟩ => known ⟨unknown, unstaged, command⟩
    have stays : replacement env boxId fs e = none := by
      refine Option.eq_none_iff_forall_ne_some.mpr fun bytes replaced => unready ?_
      obtain ⟨staged, ready, -⟩ := replacement_eq_some.mp replaced
      exact ⟨ready, by simp [staged]⟩
    rw [installed e mem, if_neg keeps, stays, Option.none_or]
  · rw [show synced.1 = _ from answer, List.any_eq_true]
    refine exists_congr fun e => and_congr_right fun mem => ?_
    rw [installed e mem]
    constructor
    · intro replaced
      obtain ⟨bytes, replaced⟩ := Option.isSome_iff_exists.mp replaced
      obtain ⟨-, status, differs⟩ := replacement_eq_some.mp replaced
      refine ⟨bytes, ?_, differs⟩
      rw [if_neg, replaced, Option.some_or]
      rintro ⟨-, -, unknown⟩
      exact absurd (status.symm.trans unknown) (by decide)
    · rintro ⟨bytes, after, differs⟩
      split at after
      · cases after
      · rcases Option.or_eq_some_iff.mp after with replaced | ⟨-, before⟩
        · simp [replaced]
        · rw [before] at differs
          exact absurd rfl differs

end ControlContent

/-- A new timetable is installed. -/
theorem ControlContent.sync_faithful_timetable :
    let fs := setRev .demo (str "7")
      (blank.put (Env.demo.station.stagedControl (str "7") ⟨str "timetable", str "timetable"⟩)
        (ascii "new")) (str "timetable") .downloadOk
    (((Content.new .demo blank .revision (str "7") true).1.sync .demo fs).2.read
      (Env.demo.station.installedControl ⟨str "timetable", str "timetable"⟩)).getD [] =
        ascii "new" := by
  intro fs
  have reliable : fs.Reliable := rfl
  have cc : ControlContent .demo (str "7") (Content.new .demo blank .revision (str "7") true).1 :=
    controlContent_new
  exact ((cc.sync_faithful reliable).1 ⟨str "timetable", str "timetable"⟩ (by decide)).1
    (by decide) _ (by decide)

end MediaUpdater
