import MediaUpdater.Content.Synced

/-!
# What a sync does to the control files

The local REVISION content installs the control files of the player into its
timetable directory and removes those that are gone from the server.  It touches
nothing but that directory and the keys in `checkstorage`.

## Main results

* `ControlContent.sync_frame` — what the sync leaves alone.
* `ControlContent.sync_removes` — when its copies succeed, a control file goes only when it
  is not staged and its status is `DEFAULT`.
-/

namespace MediaUpdater

open FileSystem CheckDownloadedContent

variable {env : Env} {boxId : QString} {fs fs' fs'' : FileSystem} {c : Content} {e : Entry}
variable {p : Path}

/-- The local REVISION content. -/
structure ControlContent (env : Env) (boxId : QString) (c : Content) : Prop where
  contentType : c.contentType = .revision
  box : c.boxId = boxId
  sourceDir : c.sourceDir = env.station.boxDir boxId
  destination : c.destination = env.station.timetablePath
  sourceList : c.sourceList = Content.playerControlFiles

theorem controlContent_new :
    ControlContent env boxId (Content.new env fs .revision boxId true).1 :=
  ⟨rfl, rfl, rfl, rfl, rfl⟩

/-- The staging area is apart from the timetable directory. -/
theorem boxDir_append_ne_timetable (below under : Path) :
    env.station.boxDir boxId ++ below ≠ env.station.timetablePath ++ under := by
  have apart := env.station.media_append_ne (str ".sync" :: boxId :: below) under
  simpa [Station.boxDir, Station.mediaSync] using apart

/-- The control files have plain names. -/
theorem plain_playerControlFiles :
    ∀ e ∈ Content.playerControlFiles, Plain e.dirName ∧ Plain e.fileName := by
  decide

/-- What the sync of the control files may touch. -/
def ControlPath (env : Env) (boxId : QString) (p : Path) : Prop :=
  p = env.station.checkstorage boxId ∨ ∃ name, p = env.station.timetablePath ++ [name]

/-- The disk changes at most at control files, and no key is added to `checkstorage`. -/
structure ControlFrame (env : Env) (boxId : QString) (fs fs' : FileSystem) : Prop where
  frame : Frame (ControlPath env boxId) fs fs'
  trust : ∀ e, trust env boxId fs' e = true → trust env boxId fs e = true

namespace ControlFrame

theorem refl (env : Env) (boxId : QString) (fs : FileSystem) : ControlFrame env boxId fs fs :=
  ⟨.refl _ fs, fun _ => id⟩

theorem trans (first : ControlFrame env boxId fs fs') (second : ControlFrame env boxId fs' fs'') :
    ControlFrame env boxId fs fs'' :=
  ⟨first.frame.trans second.frame, fun e trusted => first.trust e (second.trust e trusted)⟩

/-- A change of the timetable directory. -/
theorem of_timetable (boxId n : QString)
    (frame : Frame (· = env.station.timetablePath ++ [n]) fs fs') :
    ControlFrame env boxId fs fs' := by
  refine ⟨frame.mono fun p same => .inr ⟨n, same⟩, fun e trusted => ?_⟩
  have apart : env.station.checkstorage boxId ≠ env.station.timetablePath ++ [n] :=
    boxDir_append_ne_timetable [str "checkstorage"] [n]
  rwa [CheckDownloadedContent.trust, frame.settingsValue apart] at trusted

/-- A key is dropped. -/
theorem remove (e : Entry) : ControlFrame env boxId fs
    (CheckDownloadedContent.remove env boxId fs e) := by
  refine ⟨.removeSettings (.inl rfl) _, fun x trusted => ?_⟩
  rw [trust_remove, Bool.and_eq_true] at trusted
  exact trusted.2

end ControlFrame

namespace ControlContent

variable (cc : ControlContent env boxId c)

include cc

theorem sourcePath_eq (plain : Plain e.dirName ∧ Plain e.fileName) :
    (c.sourceDir.child e.dirName).child e.fileName =
      pairPath (env.station.boxDir boxId) .revision e := by
  rw [cc.sourceDir, Path.child_plain plain.1, Path.child_plain plain.2]
  simp [pairPath]

theorem destinationPath_eq (plain : Plain e.fileName) :
    c.destination.child e.fileName = env.station.timetablePath ++ [e.fileName] := by
  rw [cc.destination, Path.child_plain plain]

/-- Replacing one control file. -/
theorem installFile_frame (plain : Plain e.fileName) :
    ControlFrame env boxId fs (c.installFile env fs e).2 := by
  have place : c.destinationPath e = env.station.timetablePath ++ [e.fileName] := by
    rw [Content.destinationPath, cc.contentType]
    exact cc.destinationPath_eq plain
  obtain ⟨cleared, removed, frame⟩ : ∃ cleared,
      (if fs.fileExists (env.station.timetablePath ++ [e.fileName]) then
        (fs.remove (env.station.timetablePath ++ [e.fileName])).2 else fs) = cleared ∧
      Frame (· = env.station.timetablePath ++ [e.fileName]) fs cleared := by
    refine ⟨_, rfl, ?_⟩
    split
    · exact .remove rfl
    · exact .refl _ fs
  have copied := ControlFrame.of_timetable boxId e.fileName
    (frame.trans (FileSystem.Frame.copy (p := c.sourcePath e) rfl))
  unfold Content.installFile
  simp only [cc.contentType, cc.box, place, removed]
  split
  · exact copied.trans (.remove e)
  · exact copied

/-- Installing one control file. -/
theorem copyEntry_frame (plain : Plain e.fileName) :
    ControlFrame env boxId fs (c.copyEntry env fs e).2 := by
  have opened (fs : FileSystem) (p : Path) : ControlFrame env boxId fs (fs.openRead p).2 :=
    .of_timetable boxId [] .openRead
  unfold Content.copyEntry
  simp only [cc.contentType]
  split
  · split
    · split
      · exact (opened fs _).trans (opened _ _)
      · exact ((opened fs _).trans (opened _ _)).trans (cc.installFile_frame plain)
    · exact opened fs _
  · exact opened fs _

theorem copyEntries_frame {entries : List Entry} (plain : ∀ e ∈ entries, Plain e.fileName) :
    ControlFrame env boxId fs (c.copyEntries env fs entries).2 := by
  induction entries generalizing fs with
  | nil => exact .refl env boxId fs
  | cons e rest ih =>
      have first : ControlFrame env boxId fs (c.copyEntry env fs e).2 :=
        cc.copyEntry_frame (plain e List.mem_cons_self)
      exact first.trans (ih fun x mem => plain x (List.mem_cons_of_mem e mem))

theorem deleteControlFiles_frame {entries : List Entry} (plain : ∀ e ∈ entries, Plain e.fileName) :
    ControlFrame env boxId fs (c.deleteControlFiles env fs entries) := by
  induction entries generalizing fs with
  | nil => exact .refl env boxId fs
  | cons e rest ih =>
      rw [Content.deleteControlFiles]
      refine ControlFrame.trans ?_ (ih fun x mem => plain x (List.mem_cons_of_mem e mem))
      rw [cc.destinationPath_eq (plain e List.mem_cons_self)]
      split
      · exact .of_timetable boxId e.fileName (.remove rfl)
      · exact .refl env boxId fs

/-- **The sync of the control files** touches the timetable directory and drops keys. -/
theorem sync_frame : ControlFrame env boxId fs (c.sync env fs).2 := by
  have plain (e : Entry) (mem : e ∈ c.sourceList) : Plain e.fileName :=
    (plain_playerControlFiles e (cc.sourceList ▸ mem)).2
  have copied : ControlFrame env boxId fs (c.copyEntries env fs c.sourceList).2 :=
    cc.copyEntries_frame plain
  refine copied.trans ?_
  show ControlFrame env boxId _ (c.deleteExcessFiles env (c.copyEntries env fs c.sourceList).2)
  unfold Content.deleteExcessFiles
  simp only [cc.contentType]
  split
  · exact .refl env boxId _
  · exact cc.deleteControlFiles_frame plain

/-! ### Removal -/

theorem copySource_eq (plain : Plain e.dirName ∧ Plain e.fileName) :
    c.sourcePath e = pairPath (env.station.boxDir boxId) .revision e := by
  rw [Content.sourcePath, cc.contentType]
  exact cc.sourcePath_eq plain

/-- A file is replaced, never just removed, when its copy succeeds. -/
theorem installFile_keeps (copies : fs.Copies) (plain : Plain e.dirName ∧ Plain e.fileName)
    (staged : (fs.read (c.sourcePath e)).isSome) (apart : p ≠ env.station.checkstorage boxId)
    (there : fs.fileExists p = true) :
    (c.installFile env fs e).2.fileExists p = true ∧ (c.installFile env fs e).2.Copies := by
  have place : c.destinationPath e = env.station.timetablePath ++ [e.fileName] := by
    rw [Content.destinationPath, cc.contentType]
    exact cc.destinationPath_eq plain.2
  obtain ⟨bytes, staged⟩ := Option.isSome_iff_exists.mp staged
  obtain ⟨cleared, removed, copies', frame⟩ : ∃ cleared,
      (if fs.fileExists (env.station.timetablePath ++ [e.fileName]) then
        (fs.remove (env.station.timetablePath ++ [e.fileName])).2 else fs) = cleared ∧
      cleared.Copies ∧ Frame (· = env.station.timetablePath ++ [e.fileName]) fs cleared := by
    refine ⟨_, rfl, ?_⟩
    split
    · exact ⟨copies.remove, .remove rfl⟩
    · exact ⟨copies, .refl _ fs⟩
  have source : cleared.read (c.sourcePath e) = some bytes := by
    rw [← staged]
    refine frame.read _ ?_
    rw [cc.copySource_eq plain]
    exact boxDir_append_ne_timetable [e.dirName, e.fileName] [e.fileName]
  let copied := (cleared.copy (c.sourcePath e) (env.station.timetablePath ++ [e.fileName])).2
  have still : copied.fileExists p = true := by
    by_cases same : p = env.station.timetablePath ++ [e.fileName]
    · rw [same]
      exact copies'.fileExists_copy source
    · have whole : Frame (· = env.station.timetablePath ++ [e.fileName]) fs copied :=
        frame.trans (FileSystem.Frame.copy rfl)
      rw [whole.fileExists same, there]
  unfold Content.installFile
  simp only [cc.contentType, cc.box, place, removed]
  split
  · refine ⟨?_, copies'.copy⟩
    rw [CheckDownloadedContent.remove, fileExists_removeSettings apart]
    exact still
  · exact ⟨still, copies'.copy⟩

theorem copyEntry_keeps (copies : fs.Copies) (plain : Plain e.dirName ∧ Plain e.fileName)
    (apart : p ≠ env.station.checkstorage boxId) (there : fs.fileExists p = true) :
    (c.copyEntry env fs e).2.fileExists p = true ∧ (c.copyEntry env fs e).2.Copies := by
  have opened (fs : FileSystem) (q : Path) : Frame (fun _ => False) fs (fs.openRead q).2 :=
    .openRead
  have there' : (fs.openRead (c.sourcePath e)).2.fileExists p = true := by
    rw [(opened fs _).fileExists id, there]
  unfold Content.copyEntry
  simp only [cc.contentType]
  split
  next newData staged =>
    split
    · let current := ((fs.openRead (c.sourcePath e)).2.openRead (c.destinationPath e)).2
      have there'' : current.fileExists p = true := by
        rw [(opened _ _).fileExists id, there']
      have source : (current.read (c.sourcePath e)).isSome := by
        rw [(opened _ _).read _ id, (opened _ _).read _ id, read_of_openRead staged,
          Option.isSome_some]
      split
      · exact ⟨there'', copies.openRead.openRead⟩
      · exact cc.installFile_keeps copies.openRead.openRead plain source apart there''
    · exact ⟨there', copies.openRead⟩
  · exact ⟨there', copies.openRead⟩

theorem copyEntries_keeps {entries : List Entry} (copies : fs.Copies)
    (plain : ∀ e ∈ entries, Plain e.dirName ∧ Plain e.fileName)
    (apart : p ≠ env.station.checkstorage boxId) (there : fs.fileExists p = true) :
    (c.copyEntries env fs entries).2.fileExists p = true := by
  induction entries generalizing fs with
  | nil => exact there
  | cons e rest ih =>
      obtain ⟨still, copies'⟩ := cc.copyEntry_keeps copies (plain e List.mem_cons_self) apart there
      exact ih copies' (fun x mem => plain x (List.mem_cons_of_mem e mem)) still

/-- The loop of the deletion removes a file only when it is not staged and its status is
`DEFAULT`. -/
theorem deleteControlFiles_removes {entries : List Entry}
    (plain : ∀ e ∈ entries, Plain e.dirName ∧ Plain e.fileName)
    (there : fs.fileExists p = true)
    (gone : (c.deleteControlFiles env fs entries).fileExists p = false) :
    ∃ e ∈ entries, p = env.station.timetablePath ++ [e.fileName] ∧
      fs.fileExists (pairPath (env.station.boxDir boxId) .revision e) = false ∧
      checkRev env boxId fs e.fileName = CheckStatus.default.toInt := by
  induction entries generalizing fs with
  | nil => exact absurd (gone.symm.trans there) (by simp)
  | cons e rest ih =>
      have first := plain e List.mem_cons_self
      obtain ⟨dropped, deleted, frame, cause⟩ : ∃ dropped,
          (if !fs.fileExists (pairPath (env.station.boxDir boxId) .revision e) &&
              checkRev env boxId fs e.fileName = CheckStatus.default.toInt &&
              fs.fileExists (env.station.timetablePath ++ [e.fileName]) then
            (fs.remove (env.station.timetablePath ++ [e.fileName])).2 else fs) = dropped ∧
          Frame (· = env.station.timetablePath ++ [e.fileName]) fs dropped ∧
          (dropped = fs ∨ fs.fileExists (pairPath (env.station.boxDir boxId) .revision e) = false ∧
            checkRev env boxId fs e.fileName = CheckStatus.default.toInt) := by
        refine ⟨_, rfl, ?_⟩
        split
        next removed =>
          simp only [Bool.and_eq_true, Bool.not_eq_true', decide_eq_true_eq] at removed
          exact ⟨.remove rfl, .inr removed.1⟩
        · exact ⟨.refl _ fs, .inl rfl⟩
      have name : (pairPath (env.station.boxDir boxId) .revision e).getLast?.getD [] =
          e.fileName := by
        simp [pairPath]
      rw [Content.deleteControlFiles] at gone
      simp only [cc.sourcePath_eq first, cc.destinationPath_eq first.2, cc.box, name, deleted]
        at gone
      have away (below : Path) : env.station.boxDir boxId ++ below ≠
          env.station.timetablePath ++ [e.fileName] := boxDir_append_ne_timetable below [e.fileName]
      cases still : dropped.fileExists p with
      | true =>
          obtain ⟨x, mem, place, unstaged, status⟩ :=
            ih (fun x mem => plain x (List.mem_cons_of_mem e mem)) still gone
          refine ⟨x, List.mem_cons_of_mem e mem, place, ?_, ?_⟩
          · rw [← unstaged]
            exact (frame.fileExists (away [x.dirName, x.fileName])).symm
          · rw [← status, checkRev, checkRev, frame.settingsValue]
            exact away [str "command", str "revstorage"]
      | false =>
          refine ⟨e, List.mem_cons_self, ?_, ?_⟩
          · by_contra other
            rw [frame.fileExists other, there] at still
            cases still
          · rcases cause with rfl | cause
            · exact absurd (still.symm.trans there) (by simp)
            · exact cause

/-- **A control file goes only when it is not staged and its status is `DEFAULT`.** -/
theorem sync_removes (copies : fs.Copies) {name : QString}
    (there : fs.fileExists (env.station.timetablePath ++ [name]) = true)
    (gone : (c.sync env fs).2.fileExists (env.station.timetablePath ++ [name]) = false) :
    ∃ e ∈ Content.playerControlFiles, name = e.fileName ∧
      fs.fileExists (pairPath (env.station.boxDir boxId) .revision e) = false ∧
      checkRev env boxId fs e.fileName = CheckStatus.default.toInt := by
  have plain (e : Entry) (mem : e ∈ c.sourceList) : Plain e.dirName ∧ Plain e.fileName :=
    plain_playerControlFiles e (cc.sourceList ▸ mem)
  have copied : ControlFrame env boxId fs (c.copyEntries env fs c.sourceList).2 :=
    cc.copyEntries_frame fun e mem => (plain e mem).2
  -- what the decision reads is not what the copying touches
  have away {dir file : QString} :
    ¬ ControlPath env boxId (env.station.boxDir boxId ++ [dir, file]) := by
    rintro (same | ⟨name, same⟩)
    · simp [Station.checkstorage] at same
    · exact boxDir_append_ne_timetable _ _ same
  have there' : (c.copyEntries env fs c.sourceList).2.fileExists
      (env.station.timetablePath ++ [name]) = true :=
    cc.copyEntries_keeps copies plain
      (fun same => boxDir_append_ne_timetable [str "checkstorage"] [name] same.symm) there
  have deleted : (c.deleteExcessFiles env (c.copyEntries env fs c.sourceList).2).fileExists
      (env.station.timetablePath ++ [name]) = false := gone
  unfold Content.deleteExcessFiles at deleted
  simp only [cc.contentType] at deleted
  split at deleted
  · exact absurd (deleted.symm.trans there') (by simp)
  · obtain ⟨e, mem, place, unstaged, status⟩ := cc.deleteControlFiles_removes plain there' deleted
    refine ⟨e, cc.sourceList ▸ mem, by simpa using place, ?_, ?_⟩
    · rw [← unstaged]
      exact (copied.frame.fileExists away).symm
    · rw [← status, checkRev, checkRev, copied.frame.settingsValue]
      exact away

end ControlContent

end MediaUpdater
