import MediaUpdater.Content.ControlInstall

/-!
# A failed install

`copyToDestination` removes the installed file before it knows whether the new one can
be copied or moved.  This module takes the loop apart turn by turn, under every outcome
of its calls, and says what a turn that fails leaves behind.

## Main results

* `Content.copyEntry_failed_iff` — a failed turn does no harm exactly when there was no
  installed file, or its removal failed too.
* `Content.copyEntries_kept` — what the other turns leave alone.
* `Content.copyToDestination_failed_iff` — both together.
-/

namespace MediaUpdater

open FileSystem CheckDownloadedContent

variable {env : Env} {boxId : QString} {fs fs' fs'' : FileSystem} {type : ContentType}
variable {c : Content} {e x : Entry} {p q : Path} {done rest : List Entry}

/-! ### Calls that fail -/

/-- The disk is the same up to the outcomes to come. -/
abbrev SameDisk (fs fs' : FileSystem) : Prop := Frame (fun _ => False) fs fs'

theorem rename_failed (failed : (fs.rename p q).1 = false) : SameDisk fs (fs.rename p q).2 := by
  have next : SameDisk fs
      { fs with outcomes := { fs.outcomes with rename := fs.outcomes.rename.tail } } :=
    .outcomes _ (fun reliable => by rw [reliable]; rfl) id
  revert failed
  unfold FileSystem.rename
  simp only
  split
  · split
    · intro failed
      cases failed
    · exact fun _ => next
  · exact fun _ => next

theorem copy_failed (failed : (fs.copy p q).1 = false) : SameDisk fs (fs.copy p q).2 := by
  have next : SameDisk fs
      { fs with outcomes := { fs.outcomes with copy := fs.outcomes.copy.tail } } :=
    .outcomes _ (fun reliable => by rw [reliable]; rfl) id
  revert failed
  unfold FileSystem.copy
  simp only
  split
  · split
    · intro failed
      cases failed
    · exact fun _ => next
  · exact fun _ => next

namespace Content

variable (env c)

/-- The disk on which a turn of `copyToDestination` removes the old file and installs the
new one, `none` when the turn is left by `continue` before. -/
def attempt (fs : FileSystem) (entry : Entry) : Option FileSystem :=
  match c.contentType with
  | .revision =>
      let opened := fs.openRead (c.sourcePath entry)
      match opened.1 with
      | some newData =>
          if checkRev env c.boxId fs ((c.sourcePath entry).getLast?.getD []) =
              CheckStatus.downloadOk.toInt then
            let current := opened.2.openRead (c.destinationPath entry)
            if newData = current.1.getD [] then none else some current.2
          else none
      | none => none
  | _ => some fs

/-- The turn logs that the file cannot be copied or moved. -/
def cannotInstall (fs : FileSystem) (entry : Entry) : Bool :=
  (c.attempt env fs entry).any fun fs' => !(c.installFile env fs' entry).1

variable {env c}

/-- A turn that gets that far is the install. -/
theorem copyEntry_of_attempt (attempted : c.attempt env fs e = some fs') :
    c.copyEntry env fs e = c.installFile env fs' e := by
  unfold attempt at attempted
  unfold copyEntry
  cases kind : c.contentType with
  | music | advert =>
      simp only [kind] at attempted ⊢
      rw [Option.some.inj attempted]
  | revision =>
      simp only [kind] at attempted ⊢
      cases opened : (fs.openRead (c.sourcePath e)).1 with
      | none => simp [opened] at attempted
      | some newData =>
          simp only [opened] at attempted ⊢
          split at attempted
          next status =>
            split at attempted
            · cases attempted
            next differs =>
              rw [if_pos status, if_neg differs, Option.some.inj attempted]
          · cases attempted

/-- Files have been opened before, no more. -/
theorem attempt_same (attempted : c.attempt env fs e = some fs') :
    SameDisk fs fs' ∧ fs'.outcomes.remove = fs.outcomes.remove := by
  have opened (fs : FileSystem) (p : Path) :
      SameDisk fs (fs.openRead p).2 ∧ (fs.openRead p).2.outcomes.remove = fs.outcomes.remove :=
    ⟨.openRead, by rw [openRead_snd]⟩
  revert attempted
  unfold attempt
  split
  · simp only
    split
    · split
      · split
        · exact fun none => by cases none
        · intro same
          obtain rfl := Option.some.inj same
          obtain ⟨first, remove⟩ := opened fs (c.sourcePath e)
          obtain ⟨second, remove'⟩ := opened (fs.openRead (c.sourcePath e)).2 (c.destinationPath e)
          exact ⟨first.trans second, remove'.trans remove⟩
      · exact fun none => by cases none
    · exact fun none => by cases none
  · intro same
    obtain rfl := Option.some.inj same
    exact ⟨.refl _ fs, rfl⟩

/-- An install that fails has at most removed the old file. -/
theorem installFile_failed (failed : (c.installFile env fs e).1 = false) :
    SameDisk (if fs.fileExists (c.destinationPath e) then (fs.remove (c.destinationPath e)).2
      else fs)
      (c.installFile env fs e).2 := by
  have dropped (res : Bool × FileSystem) (failed : res.1 = false) :
      (if res.1 then remove env c.boxId res.2 e else res.2) = res.2 := by
    rw [failed]
    rfl
  unfold installFile at failed ⊢
  simp only at failed ⊢
  rw [dropped _ failed]
  cases kind : c.contentType with
  | music | advert =>
      simp only [kind] at failed ⊢
      exact rename_failed failed
  | revision =>
      simp only [kind] at failed ⊢
      exact copy_failed failed

/-! ### What a failed turn leaves behind -/

/-- The installed file is still there with its old bytes, or there was none before; the staged
file and the key of the entry are as they were. -/
structure Unharmed (env : Env) (c : Content) (e : Entry) (before after : FileSystem) : Prop where
  installed : before.fileExists (c.destinationPath e) = true →
    after.fileExists (c.destinationPath e) = true ∧
      after.read (c.destinationPath e) = before.read (c.destinationPath e)
  staged : after.read (c.sourcePath e) = before.read (c.sourcePath e)
  trust : trust env c.boxId after e = trust env c.boxId before e

/-- **One failed turn** does no harm exactly when there was nothing to remove or the removal
failed too. -/
theorem copyEntry_failed_iff (failed : c.cannotInstall env fs e = true) :
    Unharmed env c e fs (c.copyEntry env fs e).2 ↔
      fs.fileExists (c.destinationPath e) = false ∨ fs.outcomes.remove.head = false := by
  obtain ⟨fs', attempted, failed⟩ := (Option.any_eq_true _ _).mp failed
  obtain ⟨same, remove⟩ := attempt_same attempted
  have after : SameDisk
      (if fs'.fileExists (c.destinationPath e) then (fs'.remove (c.destinationPath e)).2 else fs')
      (c.installFile env fs' e).2 :=
    installFile_failed (by simpa using failed)
  rw [copyEntry_of_attempt attempted, ← same.fileExists id, ← remove]
  by_cases removed : fs'.fileExists (c.destinationPath e) = true ∧ fs'.outcomes.remove.head = true
  · -- the old file is gone
    obtain ⟨there, succeeds⟩ := removed
    rw [if_pos there] at after
    constructor
    · intro unharmed
      have still := (unharmed.installed ((same.fileExists id).symm.trans there)).1
      rw [after.fileExists id, fileExists_remove, succeeds] at still
      simp at still
    · rintro (absent | fails)
      · exact absurd (absent.symm.trans there) (by simp)
      · exact absurd (fails.symm.trans succeeds) (by simp)
  · -- nothing has changed
    have kept : SameDisk fs' (c.installFile env fs' e).2 := by
      refine FileSystem.Frame.trans ?_ after
      split
      next there =>
        refine FileSystem.Frame.remove_head.mono ?_
        rintro q ⟨-, succeeds⟩
        exact removed ⟨there, succeeds⟩
      · exact .refl _ fs'
    have whole : SameDisk fs (c.installFile env fs' e).2 := same.trans kept
    refine ⟨fun _ => ?_, fun _ => ⟨fun there => ?_, whole.read _ id, whole.trust id e⟩⟩
    · cases there : fs'.fileExists (c.destinationPath e) with
      | false => exact .inl rfl
      | true => exact .inr (by simpa [there] using removed)
    · exact ⟨(whole.fileExists id).trans there, whole.read _ id⟩

/-! ### The other turns -/

/-- Another entry of the list has other files and another key, and none of these files is
`checkstorage`. -/
structure Apart (env : Env) (c : Content) (e x : Entry) : Prop where
  installed : c.destinationPath e ≠ c.destinationPath x ∧ c.destinationPath e ≠ c.sourcePath x ∧
    c.destinationPath e ≠ env.station.checkstorage c.boxId
  staged : c.sourcePath e ≠ c.destinationPath x ∧ c.sourcePath e ≠ c.sourcePath x ∧
    c.sourcePath e ≠ env.station.checkstorage c.boxId
  storage : env.station.checkstorage c.boxId ≠ c.destinationPath x ∧
    env.station.checkstorage c.boxId ≠ c.sourcePath x
  key : storageKey e ≠ storageKey x

/-- The files and the key of an entry are as they were. -/
structure Kept (env : Env) (c : Content) (e : Entry) (fs fs' : FileSystem) : Prop where
  there : fs'.fileExists (c.destinationPath e) = fs.fileExists (c.destinationPath e)
  installed : fs'.read (c.destinationPath e) = fs.read (c.destinationPath e)
  staged : fs'.read (c.sourcePath e) = fs.read (c.sourcePath e)
  trust : trust env c.boxId fs' e = trust env c.boxId fs e

namespace Kept

theorem refl (fs : FileSystem) : Kept env c e fs fs := ⟨rfl, rfl, rfl, rfl⟩

theorem trans (first : Kept env c e fs fs') (second : Kept env c e fs' fs'') :
    Kept env c e fs fs'' :=
  ⟨second.there.trans first.there, second.installed.trans first.installed,
    second.staged.trans first.staged, second.trust.trans first.trust⟩

/-- A change of the files of another entry. -/
theorem of_frame (apart : Apart env c e x)
    (frame : Frame (fun p => p = c.destinationPath x ∨ p = c.sourcePath x) fs fs') :
    Kept env c e fs fs' :=
  ⟨frame.fileExists (not_or.mpr ⟨apart.installed.1, apart.installed.2.1⟩),
    frame.read _ (not_or.mpr ⟨apart.installed.1, apart.installed.2.1⟩),
    frame.read _ (not_or.mpr ⟨apart.staged.1, apart.staged.2.1⟩),
    frame.trust (not_or.mpr apart.storage) e⟩

/-- The key of another entry is dropped. -/
theorem remove (apart : Apart env c e x) :
    Kept env c e fs (CheckDownloadedContent.remove env c.boxId fs x) := by
  refine ⟨fileExists_removeSettings apart.installed.2.2, rfl, rfl, ?_⟩
  rw [trust_remove]
  simp [apart.key]

/-- Whether an entry is unharmed does not depend on what is done to others before and
after. -/
theorem unharmed_iff {final : FileSystem} (before : Kept env c e fs fs')
    (after : Kept env c e fs'' final) :
    Unharmed env c e fs final ↔ Unharmed env c e fs' fs'' := by
  constructor
  · rintro ⟨installed, staged, trusted⟩
    refine ⟨fun there => ?_, ?_, ?_⟩
    · rw [← after.there, ← after.installed, before.installed]
      exact installed (before.there ▸ there)
    · rw [← after.staged, staged, before.staged]
    · rw [← after.trust, trusted, before.trust]
  · rintro ⟨installed, staged, trusted⟩
    refine ⟨fun there => ?_, ?_, ?_⟩
    · rw [after.there, after.installed, ← before.installed]
      exact installed (before.there.trans there)
    · rw [after.staged, staged, before.staged]
    · rw [after.trust, trusted, before.trust]

end Kept

/-- Installing another file. -/
theorem installFile_kept (apart : Apart env c e x) :
    Kept env c e fs (c.installFile env fs x).2 := by
  have cleared : Frame (fun p => p = c.destinationPath x ∨ p = c.sourcePath x) fs
      (if fs.fileExists (c.destinationPath x) then (fs.remove (c.destinationPath x)).2
        else fs) := by
    split
    · exact .remove (.inl rfl)
    · exact .refl _ fs
  have dropped (res : Bool × FileSystem)
      (frame : Frame (fun p => p = c.destinationPath x ∨ p = c.sourcePath x) fs res.2) :
      Kept env c e fs
        (if res.1 then CheckDownloadedContent.remove env c.boxId res.2 x else res.2) := by
    split
    · exact (Kept.of_frame apart frame).trans (.remove apart)
    · exact .of_frame apart frame
  unfold installFile
  refine dropped _ ?_
  cases kind : c.contentType with
  | music | advert => exact cleared.trans (.rename (.inr rfl) (.inl rfl))
  | revision => exact cleared.trans (.copy (.inl rfl))

/-- A turn for another file. -/
theorem copyEntry_kept (apart : Apart env c e x) :
    Kept env c e fs (c.copyEntry env fs x).2 := by
  have opened (fs : FileSystem) (p : Path) : Kept env c e fs (fs.openRead p).2 :=
    .of_frame apart .openRead
  unfold copyEntry
  cases kind : c.contentType with
  | music | advert => exact installFile_kept apart
  | revision =>
      simp only
      split
      · split
        · split
          · exact (opened fs _).trans (opened _ _)
          · exact ((opened fs _).trans (opened _ _)).trans (installFile_kept apart)
        · exact opened fs _
      · exact opened fs _

/-- The turns for other files. -/
theorem copyEntries_kept (apart : ∀ x ∈ rest, Apart env c e x) :
    Kept env c e fs (c.copyEntries env fs rest).2 := by
  induction rest generalizing fs with
  | nil => exact .refl fs
  | cons x rest ih =>
      exact (copyEntry_kept (apart x List.mem_cons_self)).trans
        (ih fun y mem => apart y (List.mem_cons_of_mem x mem))

theorem copyEntries_append :
    (c.copyEntries env fs (done ++ rest)).2 =
      (c.copyEntries env (c.copyEntries env fs done).2 rest).2 := by
  induction done generalizing fs with
  | nil => rfl
  | cons x done ih => exact ih

/-- **A failed install does no harm exactly when there was no installed file, or its removal
failed too.**  This is so for every turn of the loop; and for the whole call, when no other
entry of the list has a file or the key of this one. -/
theorem copyToDestination_failed_iff (c : Content) (fs : FileSystem) {done rest : List Entry}
    {e : Entry} (list : c.sourceList = done ++ e :: rest)
    (failed : c.cannotInstall env (c.copyEntries env fs done).2 e = true) :
    let before := (c.copyEntries env fs done).2
    let after := (c.copyEntry env before e).2
    (Unharmed env c e before after ↔
      before.fileExists (c.destinationPath e) = false ∨ before.outcomes.remove.head = false) ∧
    ((∀ x ∈ done ++ rest, Apart env c e x) →
      (Unharmed env c e fs (c.copyToDestination env fs).2 ↔
        fs.fileExists (c.destinationPath e) = false ∨ before.outcomes.remove.head = false)) := by
  intro before after
  have turn : Unharmed env c e before after ↔
      before.fileExists (c.destinationPath e) = false ∨ before.outcomes.remove.head = false :=
    copyEntry_failed_iff failed
  refine ⟨turn, fun apart => ?_⟩
  have earlier : Kept env c e fs before :=
    copyEntries_kept fun x mem => apart x (List.mem_append_left rest mem)
  have later : Kept env c e after (c.copyEntries env after rest).2 :=
    copyEntries_kept fun x mem => apart x (List.mem_append_right done mem)
  have whole : (c.copyToDestination env fs).2 = (c.copyEntries env after rest).2 := by
    unfold copyToDestination
    rw [list, copyEntries_append]
    rfl
  rw [whole, earlier.unharmed_iff later, turn, earlier.there]

end Content

/-! ### The local contents -/

/-- The pairs of a local content are apart from each other. -/
theorem LocalContent.apart (lc : LocalContent env boxId type c) (media : type ≠ .revision)
    (pair : IsPair type e) (pair' : IsPair type x) (other : e ≠ x) : Content.Apart env c e x := by
  have place (e : Entry) (pair : IsPair type e) :
      c.destinationPath e = pairPath env.station.media type e ∧
        c.sourcePath e = pairPath (env.station.boxDir boxId) type e :=
    ⟨lc.destinationPath_eq media pair, lc.sourcePath_eq media pair⟩
  have differs (root : Path) : pairPath root type e ≠ pairPath root type x :=
    fun same => other (pairPath_inj (pair.dirs pair') same)
  have storage (e : Entry) {root : Path}
      (at_ : root = env.station.boxDir boxId ∨ root = env.station.media) :
      pairPath root type e ≠ env.station.checkstorage boxId :=
    pairPath_ne_checkstorage env.station at_
  obtain ⟨dest, source⟩ := place e pair
  obtain ⟨dest', source'⟩ := place x pair'
  refine ⟨?_, ?_, ?_, fun same => other (storageKey_inj pair.dir pair'.dir same)⟩
  · rw [dest, dest', source', lc.box]
    exact ⟨differs _, fun same => pairPath_boxDir_ne_media env.station boxId same.symm,
      storage e (.inr rfl)⟩
  · rw [source, dest', source', lc.box]
    exact ⟨pairPath_boxDir_ne_media env.station boxId, differs _, storage e (.inl rfl)⟩
  · rw [dest', source', lc.box]
    exact ⟨(storage x (.inr rfl)).symm, (storage x (.inl rfl)).symm⟩

/-- The control files of different names are apart from each other. -/
theorem ControlContent.apart (cc : ControlContent env boxId c)
    (plain : Plain e.dirName ∧ Plain e.fileName) (plain' : Plain x.dirName ∧ Plain x.fileName)
    (other : e.fileName ≠ x.fileName) : Content.Apart env c e x := by
  have staged (e : Entry) (plain : Plain e.dirName ∧ Plain e.fileName) :
      c.sourcePath e = env.station.stagedControl boxId e :=
    cc.copySource_eq plain
  have storage (e : Entry) :
      env.station.stagedControl boxId e ≠ env.station.checkstorage boxId ∧
        env.station.installedControl e ≠ env.station.checkstorage boxId := by
    refine ⟨by simp [Station.stagedControl, Station.checkstorage], fun same => ?_⟩
    exact boxDir_append_ne_timetable [str "checkstorage"] [e.fileName] same.symm
  refine ⟨?_, ?_, ?_, fun same => other ?_⟩
  · rw [cc.copyDestination_eq plain.2, cc.copyDestination_eq plain'.2, staged x plain', cc.box]
    exact ⟨fun same => other (installedControl_inj same), stagedControl_ne_installedControl.symm,
      (storage e).2⟩
  · rw [cc.copyDestination_eq plain'.2, staged e plain, staged x plain', cc.box]
    refine ⟨stagedControl_ne_installedControl, fun same => other ?_, (storage e).1⟩
    simp only [Station.stagedControl, List.append_cancel_left_eq, List.cons.injEq, and_true] at same
    exact same.2
  · rw [cc.copyDestination_eq plain'.2, staged x plain', cc.box]
    exact ⟨(storage x).2.symm, (storage x).1.symm⟩
  · rw [storageKey_inj plain.1 plain'.1 same]

/-- **The files of a local content**, as it is constructed, are apart from each other. -/
theorem Content.new_apart (list : (Content.new env fs type boxId true).1.sourceList =
    done ++ e :: rest)
    (x : Entry) (mem : x ∈ done ++ rest) :
    Content.Apart env (Content.new env fs type boxId true).1 e x := by
  have inList : e ∈ done ++ e :: rest := by simp
  have inList' : x ∈ done ++ e :: rest := by
    rcases List.mem_append.mp mem with before | after
    · exact List.mem_append_left _ before
    · exact List.mem_append_right done (List.mem_cons_of_mem e after)
  -- no entry is listed twice, so `x` is another one
  have apart {α : Type} (f : Entry → α)
      (nodup : ((Content.new env fs type boxId true).1.sourceList.map f).Nodup) : f e ≠ f x := by
    rw [list, List.map_append, List.map_cons, List.nodup_middle, List.nodup_cons, ← List.map_append]
      at nodup
    exact fun same => nodup.1 (same ▸ List.mem_map_of_mem mem)
  by_cases media : type = .revision
  · subst media
    have cc : ControlContent env boxId (Content.new env fs .revision boxId true).1 :=
      controlContent_new
    have names :
      ((Content.new env fs .revision boxId true).1.sourceList.map Entry.fileName).Nodup := by
      rw [cc.sourceList]
      decide
    rw [← list, cc.sourceList] at inList inList'
    exact cc.apart (plain_playerControlFiles e inList) (plain_playerControlFiles x inList')
      (apart _ names)
  · have lc : LocalContent env boxId type (Content.new env fs type boxId true).1 :=
      localContent_new media
    have pairs (y : Entry) (mem : y ∈ done ++ e :: rest) : IsPair type y := by
      rw [← list, sourceList_local media] at mem
      exact (mem_scan.mp (List.mem_of_mem_filter mem)).2.1
    refine lc.apart media (pairs e inList) (pairs x inList') (apart id ?_)
    rw [List.map_id, sourceList_local media]
    exact scan_nodup.filter _

/-- A disk with music files of one name for each channel staged and trusted, on which no file
can be moved. -/
def demoStuck (channels : List String) (installed : List Entry) : FileSystem :=
  { installed.foldl (fun fs e => fs.put (pairPath Env.demo.station.media .music e) (ascii "old"))
      (channels.foldl (fun fs channel =>
        setTrust .demo (str "7")
          (fs.put (pairPath (Env.demo.station.boxDir (str "7")) .music ⟨str channel, str "a.mp3"⟩)
            (ascii "new"))
          ⟨str channel, str "a.mp3"⟩) blank) with
    outcomes := { Outcomes.success with rename := .const false } }

/-- Nothing was installed, so nothing is lost. -/
theorem Content.copyToDestination_failed_first :
    let fs := demoStuck ["jazz", "rock"] []
    let c := (Content.new .demo fs .music (str "7") true).1
    Content.Unharmed .demo c ⟨str "jazz", str "a.mp3"⟩ fs (c.copyToDestination .demo fs).2 := by
  intro fs c
  have list : c.sourceList = [] ++ ⟨str "jazz", str "a.mp3"⟩ :: [⟨str "rock", str "a.mp3"⟩] := by
    decide
  exact ((c.copyToDestination_failed_iff fs list (by decide)).2 (Content.new_apart list)).mpr
    (.inl (by decide))

/-- The old file is removed, the new one cannot be moved to its place. -/
theorem Content.copyToDestination_failed_fails :
    let fs := demoStuck ["rock"] [⟨str "rock", str "a.mp3"⟩]
    let c := (Content.new .demo fs .music (str "7") true).1
    c.sourceList = [⟨str "rock", str "a.mp3"⟩] ∧
      c.cannotInstall .demo fs ⟨str "rock", str "a.mp3"⟩ = true ∧
      ¬ Content.Unharmed .demo c ⟨str "rock", str "a.mp3"⟩ fs (c.copyToDestination .demo fs).2 := by
  refine ⟨by decide, by decide, fun unharmed => ?_⟩
  have still := (unharmed.installed (by decide)).1
  exact absurd still (by decide)

end MediaUpdater
