import MediaUpdater.Content.ControlInstall
import MediaUpdater.Content.Convergence

/-!
# When a sync removes a control file

A sync goes through three contents, and only the last one has to do with the control files.
The other two leave the timetable directory and the statuses alone, whatever becomes of their
calls; so a control file that is gone after the sync had the status `DEFAULT` before it,
provided that no copy fails after the old file has been removed.

## Main results

* `LocalContent.sync_frame` — what the sync of a MUSIC or ADVERT content touches.
* `ContentManager.syncContent_removes` — the status of a control file that is removed.
-/

namespace MediaUpdater

open FileSystem CheckDownloadedContent

variable {env : Env} {boxId : QString} {fs fs' fs'' : FileSystem} {type : ContentType}
variable {c : Content} {e : Entry} {entries : List Entry}

/-- The disk changes at most at the pairs of one type, and the outcomes of `QFile::copy` to
come are kept. -/
structure PairFrame (env : Env) (boxId : QString) (type : ContentType) (fs fs' : FileSystem) :
    Prop where
  frame : Frame (PairPlace env boxId type) fs fs'
  copy : fs'.outcomes.copy = fs.outcomes.copy

namespace PairFrame

theorem refl (fs : FileSystem) : PairFrame env boxId type fs fs := ⟨.refl _ fs, rfl⟩

theorem trans (first : PairFrame env boxId type fs fs')
    (second : PairFrame env boxId type fs' fs'') :
    PairFrame env boxId type fs fs'' :=
  ⟨first.frame.trans second.frame, second.copy.trans first.copy⟩

/-- A pair is removed. -/
theorem remove {p : Path} (place : PairPlace env boxId type p) :
    PairFrame env boxId type fs (fs.remove p).2 :=
  ⟨.remove place, (outcomes_copy (q := p)).1⟩

theorem rename {p q : Path} (source : PairPlace env boxId type p)
    (dest : PairPlace env boxId type q) :
    PairFrame env boxId type fs (fs.rename p q).2 :=
  ⟨.rename source dest, outcomes_copy.2.2⟩

theorem removeSettings (key : QString) :
    PairFrame env boxId type fs (fs.removeSettings (env.station.checkstorage boxId) key) :=
  ⟨.removeSettings (.inl rfl) key, rfl⟩

variable (frame : PairFrame env boxId type fs fs') (media : type ≠ .revision)

include frame media

/-- The statuses of the control files stay. -/
theorem checkRev_eq (name : QString) :
    checkRev env boxId fs' name = checkRev env boxId fs name := by
  refine frame.frame.checkRev ?_ name
  rintro (same | ⟨e, same | same⟩)
  · exact checkstorage_ne_revstorage env.station boxId boxId same.symm
  · exact pairPath_ne_control env.station (.inl rfl) media (by decide) same.symm
  · exact pairPath_ne_control env.station (.inr rfl) media (by decide) same.symm

/-- The installed control files stay. -/
theorem fileExists_installedControl (e : Entry) :
    fs'.fileExists (env.station.installedControl e) =
      fs.fileExists (env.station.installedControl e) := by
  refine frame.frame.fileExists ?_
  rintro (same | ⟨x, same | same⟩)
  · exact boxDir_append_ne_timetable _ _ same.symm
  · cases type with
    | music | advert => exact boxDir_append_ne_timetable _ _ same.symm
    | revision => exact media rfl
  · cases type with
    | music | advert => exact env.station.media_append_ne _ _ same.symm
    | revision => exact media rfl

end PairFrame

/-- Collecting a manifest for a local content copies nothing. -/
theorem Content.collectContentFromFile_copy (isLocal : c.isLocal = true) (file : Path) :
    (c.collectContentFromFile env fs file).2.outcomes.copy = fs.outcomes.copy := by
  have opened : (fs.openRead file).2.outcomes.copy = fs.outcomes.copy :=
    (outcomes_copy (q := [])).2.1
  unfold Content.collectContentFromFile
  split
  · rfl
  · simp only
    split
    · split
      · rw [collectEntries_local (by exact isLocal)]
        exact opened
      · exact opened
    · rfl

namespace LocalContent

variable (lc : LocalContent env boxId type c) (media : type ≠ .revision)

include lc media

/-- One file is moved, or is not. -/
theorem installFile_frame (pair : IsPair type e) :
    PairFrame env boxId type fs (c.installFile env fs e).2 := by
  have source : PairPlace env boxId type (pairPath (env.station.boxDir boxId) type e) :=
    .inr ⟨e, .inl rfl⟩
  have dest : PairPlace env boxId type (pairPath env.station.media type e) := .inr ⟨e, .inr rfl⟩
  obtain ⟨cleared, removed, frame⟩ : ∃ cleared,
      (if fs.fileExists (pairPath env.station.media type e) then
        (fs.remove (pairPath env.station.media type e)).2 else fs) = cleared ∧
      PairFrame env boxId type fs cleared := by
    refine ⟨_, rfl, ?_⟩
    split
    · exact .remove dest
    · exact .refl fs
  have moved := frame.trans (PairFrame.rename source dest)
  unfold Content.installFile
  simp only [lc.sourcePath_eq media pair, lc.destinationPath_eq media pair, removed, lc.box,
    lc.contentType]
  cases type with
  | music | advert =>
      split
      · exact moved.trans (.removeSettings _)
      · exact moved
  | revision => exact absurd rfl media

theorem copyEntries_frame (pairs : ∀ e ∈ entries, IsPair type e) :
    PairFrame env boxId type fs (c.copyEntries env fs entries).2 := by
  induction entries generalizing fs with
  | nil => exact .refl fs
  | cons e rest ih =>
      have first : PairFrame env boxId type fs (c.copyEntry env fs e).2 := by
        unfold Content.copyEntry
        simp only [lc.contentType]
        cases type with
        | music | advert => exact lc.installFile_frame media (pairs e List.mem_cons_self)
        | revision => exact absurd rfl media
      exact first.trans (ih fun x mem => pairs x (List.mem_cons_of_mem e mem))

/-- The deletion copies nothing. -/
theorem deleteExcessFiles_copy :
    (c.deleteExcessFiles env fs).outcomes.copy = fs.outcomes.copy := by
  have removed (destination : Path) (fs : FileSystem) (list : List Entry) :
      (Content.removeLoop destination fs list).outcomes.copy = fs.outcomes.copy := by
    induction list generalizing fs with
    | nil => rfl
    | cons e rest ih =>
        rw [Content.removeLoop, ih]
        exact (outcomes_copy (q := [])).1
  obtain ⟨contentType, isLocal, box, sourceList, standart, place, sourceDir⟩ := c
  obtain ⟨rfl, rfl, -, -, -⟩ := lc
  unfold Content.deleteExcessFiles
  simp only
  cases contentType with
  | music | advert =>
      split
      · rfl
      · split
        · rw [removed]
          exact Content.collectContentFromFile_copy rfl _
        · rfl
  | revision => exact absurd rfl media

/-- **The sync of a MUSIC or ADVERT content** touches the pairs of its type, whatever becomes
of its calls. -/
theorem sync_frame (pairs : ∀ e ∈ c.sourceList, IsPair type e) :
    PairFrame env boxId type fs (c.sync env fs).2 := by
  have copied : PairFrame env boxId type fs (c.copyToDestination env fs).2 :=
    lc.copyEntries_frame media pairs
  have deleted : Frame (fun p => ∃ e, p = pairPath env.station.media type e)
      (c.copyToDestination env fs).2 (c.sync env fs).2 :=
    (lc.deleteExcessFiles_frame media).1
  refine copied.trans ⟨deleted.mono ?_, lc.deleteExcessFiles_copy media⟩
  rintro p ⟨e, same⟩
  exact .inr ⟨e, .inr same⟩

end LocalContent

/-- **A control file that a sync removes has the status `DEFAULT`.** -/
theorem ContentManager.syncContent_removes (cm : ContentManager) (copies : fs.Copies)
    (there : fs.fileExists (env.station.installedControl e) = true)
    (gone : (cm.syncContent env fs).2.2.fileExists (env.station.installedControl e) = false) :
    checkRev env cm.loginInfo.boxId fs e.fileName = CheckStatus.default.toInt := by
  let boxId := cm.loginInfo.boxId
  let music := (Content.new env fs .music boxId true).1
  let advert := (Content.new env fs .advert boxId true).1
  let control := (Content.new env fs .revision boxId true).1
  let fs₁ := (music.sync env fs).2
  let fs₂ := (advert.sync env fs₁).2
  have whole : (cm.syncContent env fs).2.2 = (control.sync env fs₂).2 :=
    (cm.syncContent_eq env fs).2
  have first : PairFrame env boxId .music fs fs₁ :=
    (localContent_new (by simp)).sync_frame (by simp) (fun _ => isPair_of_mem_sourceList (by simp))
  have second : PairFrame env boxId .advert fs₁ fs₂ :=
    (localContent_new (by simp)).sync_frame (by simp) (fun _ => isPair_of_mem_sourceList (by simp))
  have copies₂ : fs₂.Copies := (second.copy.trans first.copy).trans copies
  rw [whole] at gone
  rw [← first.fileExists_installedControl (by simp), ← second.fileExists_installedControl (by simp)]
    at there
  obtain ⟨x, listed, name, -, status⟩ := controlContent_new.sync_removes copies₂ there gone
  -- the status is looked up by the name
  rw [name, ← first.checkRev_eq (by simp), ← second.checkRev_eq (by simp)]
  exact status

end MediaUpdater
