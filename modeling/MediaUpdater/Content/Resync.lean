import MediaUpdater.Content.ControlInstall
import MediaUpdater.Content.Convergence

/-!
# A second sync

A sync on a disk whose calls all succeed leaves nothing to install: what was collected
from the staging area has left it, and the control files that were downloaded are
installed with their bytes.  A second sync can only go on deleting.

## Main results

* `ContentManager.syncContent_of_tidied` — a sync of a tidied disk only deletes.
* `ContentManager.syncContent_tidied` — a sync leaves a tidied disk.
* `ContentManager.syncContent_idempotent` — both together.
-/

namespace MediaUpdater

open FileSystem CheckDownloadedContent

variable {env : Env} {boxId : QString} {fs fs' fs'' : FileSystem} {type : ContentType}
variable {c : Content} {e : Entry} {moved : List Entry}

/-- Nothing is left to install. -/
structure Tidied (env : Env) (boxId : QString) (fs : FileSystem) : Prop where
  reliable : fs.Reliable
  collected : ∀ type, type ≠ .revision → ∀ e, IsPair type e → ¬ Collected env boxId fs type e
  replaced : ∀ e ∈ Content.playerControlFiles, replacement env boxId fs e = none

/-- Nothing is changed but that files go, and none of these is staged. -/
structure Deleted (env : Env) (boxId : QString) (fs fs' : FileSystem) : Prop where
  read : ∀ p, fs'.read p = fs.read p ∨ fs'.read p = none
  frame : Frame (fun p => ¬ env.station.boxDir boxId <+: p) fs fs'

namespace Deleted

theorem trans (first : Deleted env boxId fs fs') (second : Deleted env boxId fs' fs'') :
    Deleted env boxId fs fs'' := by
  refine ⟨fun p => ?_, first.frame.trans second.frame⟩
  rcases second.read p with same | gone
  · rw [same]
    exact first.read p
  · exact .inr gone

theorem staged (deleted : Deleted env boxId fs fs') {p : Path}
    (inside : env.station.boxDir boxId <+: p) : fs'.read p = fs.read p :=
  deleted.frame.read p (not_not_intro inside)

/-- A tidied disk stays tidied. -/
theorem tidied (deleted : Deleted env boxId fs fs') (tidied : Tidied env boxId fs)
    (installed : ∀ e ∈ Content.playerControlFiles,
      fs'.read (env.station.installedControl e) = fs.read (env.station.installedControl e)) :
    Tidied env boxId fs' := by
  have inside (dir file : QString) :
    env.station.boxDir boxId <+: env.station.boxDir boxId ++ [dir, file] :=
    List.prefix_append _ _
  refine ⟨deleted.frame.reliable tidied.reliable, fun type media e pair collected => ?_,
    fun e mem => ?_⟩
  · refine tidied.collected type media e pair ⟨collected.visible, ?_, ?_⟩
    · have place : env.station.boxDir boxId <+: pairPath (env.station.boxDir boxId) type e := by
        cases type <;> exact List.prefix_append _ _
      rw [← deleted.staged place]
      exact collected.staged
    · rw [← collected.trusted]
      exact (deleted.frame.trust (not_not_intro (List.prefix_append _ _)) e).symm
  · have same : SameControl env boxId fs fs' :=
      ⟨fun e => deleted.staged (inside _ _),
      fun e => deleted.frame.fileExists (not_not_intro (inside _ _)),
      deleted.frame.checkRev (not_not_intro (inside _ _))⟩
    rw [same.replacement_eq (installed e mem)]
    exact tidied.replaced e mem

end Deleted

/-! ### What a sync leaves behind -/

/-- A pair that is collected on a disk with fewer keys. -/
theorem Collected.of_le (collected : Collected env boxId fs' type e)
    (staged : fs'.read (pairPath (env.station.boxDir boxId) type e) =
      fs.read (pairPath (env.station.boxDir boxId) type e))
    (fewer : trust env boxId fs' e = true → trust env boxId fs e = true) :
    Collected env boxId fs type e :=
  ⟨collected.visible, staged ▸ collected.staged, fewer collected.trusted⟩

namespace Drained

variable (drained : Drained env boxId type moved fs fs')

include drained

theorem trust_mono (e : Entry) (plain : Plain e.dirName)
    (trusted : CheckDownloadedContent.trust env boxId fs' e = true) :
    CheckDownloadedContent.trust env boxId fs e = true := by
  rw [drained.trust e plain, Bool.and_eq_true] at trusted
  exact trusted.2

/-- What is still collected was collected before, and has not been moved. -/
theorem collected_before (pair : IsPair type e) (collected : Collected env boxId fs' type e) :
    e ∉ moved ∧ Collected env boxId fs type e := by
  have there := collected.staged
  rw [drained.staged e pair] at there
  have notMoved : e ∉ moved := by
    intro mem
    rw [if_pos mem] at there
    cases there
  refine ⟨notMoved, collected.of_le ?_ (drained.trust_mono e pair.dir)⟩
  rw [drained.staged e pair, if_neg notMoved]

end Drained

/-- After a sync of the control files nothing is left to replace. -/
theorem ControlContent.replacement_sync (cc : ControlContent env boxId c) (reliable : fs.Reliable)
    (mem : e ∈ Content.playerControlFiles) :
    replacement env boxId (c.sync env fs).2 e = none := by
  have same : SameControl env boxId fs (c.sync env fs).2 := cc.sync_frame.frame.sameControl
  refine Option.eq_none_iff_forall_ne_some.mpr fun bytes replaced => ?_
  obtain ⟨staged, status, differs⟩ := replacement_eq_some.mp replaced
  rw [same.staged] at staged
  rw [same.status] at status
  exact differs (cc.sync_ready reliable mem status staged).symm

/-! ### A sync of a tidied disk -/

/-- An installed pair is not staged. -/
theorem not_boxDir_prefix_installed (media : type ≠ .revision) :
    ¬ env.station.boxDir boxId <+: pairPath env.station.media type e := by
  rintro ⟨rest, same⟩
  cases type with
  | music | advert =>
      simp [pairPath, Station.boxDir, Station.mediaSync, Station.musicDir, Station.advertDir, str]
        at same
  | revision => exact media rfl

/-- A local content that has collected nothing only deletes. -/
theorem LocalContent.sync_of_empty (lc : LocalContent env boxId type c) (media : type ≠ .revision)
    (empty : c.sourceList = []) :
    (c.sync env fs).1 = false ∧ Deleted env boxId fs (c.sync env fs).2 ∧
      ∀ e ∈ Content.playerControlFiles, (c.sync env fs).2.read (env.station.installedControl e) =
        fs.read (env.station.installedControl e) := by
  have synced : c.sync env fs = (false, c.deleteExcessFiles env fs) := by
    unfold Content.sync Content.copyToDestination
    rw [empty]
    rfl
  obtain ⟨frame, only⟩ : Frame (fun p => ∃ e, p = pairPath env.station.media type e) fs
      (c.deleteExcessFiles env fs) ∧ _ := lc.deleteExcessFiles_frame media
  rw [synced]
  refine ⟨rfl, ⟨only, frame.mono ?_⟩, fun e _ => frame.read _ ?_⟩
  · rintro p ⟨e, rfl⟩
    exact not_boxDir_prefix_installed media
  · rintro ⟨x, same⟩
    cases type with
    | music | advert => exact env.station.media_append_ne _ _ same.symm
    | revision => exact media rfl

/-- A tidied disk has nothing for a local content to collect. -/
theorem Tidied.sourceList_eq_nil (tidied : Tidied env boxId fs) (media : type ≠ .revision) :
    (Content.new env fs type boxId true).1.sourceList = [] := by
  refine List.eq_nil_iff_forall_not_mem.mpr fun e mem => ?_
  obtain ⟨pair, collected⟩ := (mem_sourceList media).mp mem
  exact tidied.collected type media e pair collected

namespace ControlContent

variable (cc : ControlContent env boxId c)

include cc

/-- Without a replacement the copying loop does nothing. -/
theorem copyEntries_of_none {entries : List Entry} (reliable : fs.Reliable)
    (plain : ∀ e ∈ entries, Plain e.dirName ∧ Plain e.fileName)
    (stays : ∀ e ∈ entries, replacement env boxId fs e = none) :
    c.copyEntries env fs entries = (false, fs) := by
  induction entries with
  | nil => rfl
  | cons e rest ih =>
      have first : c.copyEntry env fs e = (false, fs) := by
        rw [cc.copyEntry_eq reliable (plain e List.mem_cons_self), stays e List.mem_cons_self]
        rfl
      rw [Content.copyEntries]
      simp only [first, ih (fun x mem => plain x (List.mem_cons_of_mem e mem))
        fun x mem => stays x (List.mem_cons_of_mem e mem)]
      rfl

/-- Without a replacement the sync of the control files only deletes. -/
theorem sync_of_none (reliable : fs.Reliable)
    (stays : ∀ e ∈ Content.playerControlFiles, replacement env boxId fs e = none) :
    (c.sync env fs).1 = false ∧ Deleted env boxId fs (c.sync env fs).2 := by
  have synced : c.sync env fs = (false, c.deleteExcessFiles env fs) := by
    unfold Content.sync Content.copyToDestination
    rw [cc.sourceList, cc.copyEntries_of_none reliable plain_playerControlFiles stays]
  rw [synced, cc.deleteExcessFiles_eq]
  refine ⟨rfl, ?_⟩
  split
  · obtain ⟨gone, frame⟩ := cc.deleteControlFiles_dropped reliable plain_playerControlFiles
    refine ⟨fun p => ?_, frame.mono ?_⟩
    · by_cases dropped : ∃ e ∈ Content.playerControlFiles, Dropped env boxId fs e ∧
          p = env.station.installedControl e
      · obtain ⟨e, mem, drops, rfl⟩ := dropped
        exact .inr (read_eq_none (gone e mem drops))
      · exact .inl (frame.read p dropped)
    · rintro p ⟨e, -, -, rfl⟩ ⟨rest, same⟩
      exact boxDir_append_ne_timetable rest [e.fileName] same
  · exact ⟨fun p => .inl rfl, .refl _ fs⟩

end ControlContent

namespace ContentManager

/-- **A sync of a tidied disk only deletes**, and does not ask for a restart. -/
theorem syncContent_of_tidied (cm : ContentManager) (box : cm.loginInfo.boxId = boxId)
    (tidied : Tidied env boxId fs) :
    (cm.syncContent env fs).2.1 = false ∧ Deleted env boxId fs (cm.syncContent env fs).2.2 := by
  subst box
  let boxId := cm.loginInfo.boxId
  let music := (Content.new env fs .music boxId true).1
  let advert := (Content.new env fs .advert boxId true).1
  let control := (Content.new env fs .revision boxId true).1
  let fs₁ := (music.sync env fs).2
  let fs₂ := (advert.sync env fs₁).2
  obtain ⟨restart, whole⟩ : (cm.syncContent env fs).2.1 =
        ((music.sync env fs).1 || ((advert.sync env fs₁).1 || ((control.sync env fs₂).1 || false)))
          ∧
      (cm.syncContent env fs).2.2 = (control.sync env fs₂).2 := cm.syncContent_eq env fs
  obtain ⟨no, first, kept⟩ : (music.sync env fs).1 = false ∧ Deleted env boxId fs fs₁ ∧ _ :=
    (localContent_new (by simp)).sync_of_empty (by simp) (tidied.sourceList_eq_nil (by simp))
  have tidied₁ : Tidied env boxId fs₁ := first.tidied tidied kept
  obtain ⟨no', second, kept'⟩ : (advert.sync env fs₁).1 = false ∧ Deleted env boxId fs₁ fs₂ ∧ _ :=
    (localContent_new (by simp)).sync_of_empty (by simp) (tidied.sourceList_eq_nil (by simp))
  have tidied₂ : Tidied env boxId fs₂ := second.tidied tidied₁ kept'
  obtain ⟨no'', third⟩ : (control.sync env fs₂).1 = false ∧ Deleted env boxId fs₂ _ :=
    controlContent_new.sync_of_none tidied₂.reliable tidied₂.replaced
  rw [restart, whole, no, no', no'']
  exact ⟨rfl, (first.trans second).trans third⟩

/-- **A sync leaves nothing to install.** -/
theorem syncContent_tidied (cm : ContentManager) (reliable : fs.Reliable) :
    Tidied env cm.loginInfo.boxId (cm.syncContent env fs).2.2 := by
  let boxId := cm.loginInfo.boxId
  let music := (Content.new env fs .music boxId true).1
  let advert := (Content.new env fs .advert boxId true).1
  let control := (Content.new env fs .revision boxId true).1
  let fs₁ := (music.sync env fs).2
  let fs₂ := (advert.sync env fs₁).2
  have whole : (cm.syncContent env fs).2.2 = (control.sync env fs₂).2 :=
    (cm.syncContent_eq env fs).2
  have first : Drained env boxId .music music.sourceList fs fs₁ :=
    (localContent_new (by simp)).sync_drained (by simp) reliable
    (fun _ => isPair_of_mem_sourceList (by simp))
      (sourceList_nodup (by simp)) fun e mem => ((mem_sourceList (by simp)).mp mem).2.staged
  have second : Drained env boxId .advert advert.sourceList fs₁ fs₂ := by
    refine (localContent_new (by simp)).sync_drained (by simp) first.reliable
      (fun _ => isPair_of_mem_sourceList (by simp)) (sourceList_nodup (by simp)) fun e mem => ?_
    rw [first.frame.read_otherPair (by simp) (by simp) (by simp) _ e (.inl rfl)]
    exact ((mem_sourceList (by simp)).mp mem).2.staged
  have third : ControlFrame env boxId fs₂ (control.sync env fs₂).2 := controlContent_new.sync_frame
  rw [whole]
  refine ⟨third.frame.reliable second.reliable, fun type media e pair collected => ?_,
    fun e mem => ?_⟩
  · have before : Collected env boxId fs₂ type e := by
      refine collected.of_le ?_ (third.trust e)
      exact third.read_pair _ e (.inl rfl)
    cases type with
    | music =>
        have earlier : Collected env boxId fs₁ .music e := by
          refine before.of_le
            (second.frame.read_otherPair (by simp) (by simp) (by simp) _ e (.inl rfl)) ?_
          exact second.trust_mono e pair.dir
        obtain ⟨notMoved, atStart⟩ := first.collected_before pair earlier
        exact notMoved ((mem_sourceList (by simp)).mpr ⟨pair, atStart⟩)
    | advert =>
        obtain ⟨notMoved, earlier⟩ := second.collected_before pair before
        have atStart : Collected env boxId fs .advert e := by
          refine earlier.of_le
            (first.frame.read_otherPair (by simp) (by simp) (by simp) _ e (.inl rfl)) ?_
          exact first.trust_mono e pair.dir
        exact notMoved ((mem_sourceList (by simp)).mpr ⟨pair, atStart⟩)
    | revision => exact media rfl
  · exact controlContent_new.replacement_sync second.reliable mem

/-- **A second sync installs nothing**: it does not ask for a restart, which every file that
is copied or moved would do; it leaves the keys and the staging area alone; and every file
keeps its bytes or goes. -/
theorem syncContent_idempotent (cm : ContentManager) (reliable : fs.Reliable) :
    let first := cm.syncContent env fs
    let second := first.1.syncContent env first.2.2
    second.2.1 = false ∧
      second.2.2.settings (env.station.checkstorage cm.loginInfo.boxId) =
        first.2.2.settings (env.station.checkstorage cm.loginInfo.boxId) ∧
      (∀ p, env.station.boxDir cm.loginInfo.boxId <+: p →
        second.2.2.read p = first.2.2.read p) ∧
      ∀ p, second.2.2.read p = first.2.2.read p ∨ second.2.2.read p = none := by
  intro first second
  have login : first.1.loginInfo.boxId = cm.loginInfo.boxId := rfl
  have tidied : Tidied env cm.loginInfo.boxId first.2.2 := cm.syncContent_tidied reliable
  obtain ⟨quiet, deleted⟩ : second.2.1 = false ∧
      Deleted env cm.loginInfo.boxId first.2.2 second.2.2 :=
    first.1.syncContent_of_tidied login tidied
  have inside : env.station.boxDir cm.loginInfo.boxId <+:
      env.station.checkstorage cm.loginInfo.boxId := ⟨[str "checkstorage"], rfl⟩
  exact ⟨quiet, deleted.frame.settings _ (not_not_intro inside),
    fun p inside => deleted.staged inside, deleted.read⟩

/-- The first sync installs a file, the second one nothing. -/
theorem syncContent_idempotent_demo :
    let first := ContentManager.demo.syncContent .demo .demoOneChannel
    (first.1.syncContent .demo first.2.2).2.1 = false := by
  intro first
  have reliable : FileSystem.demoOneChannel.Reliable := rfl
  exact (ContentManager.demo.syncContent_idempotent reliable).1

end ContentManager

end MediaUpdater
