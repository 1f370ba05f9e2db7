import MediaUpdater.Qt.FileSystem

/-!
# Frames

`Frame touched fs fs'` says that going from `fs` to `fs'` changes the disk at most
at the paths of `touched`, and that calls that succeed go on to do so.  Each
operation has one frame lemma; loops compose them with `Frame.trans`.
-/

namespace MediaUpdater

namespace FileSystem

variable {fs fs' fs'' : FileSystem} {p q : Path} {touched touched' : Path → Prop}

/-- The two disks differ at most at the paths of `touched`. -/
structure Frame (touched : Path → Prop) (fs fs' : FileSystem) : Prop where
  read : ∀ p, ¬ touched p → fs'.read p = fs.read p
  settings : ∀ p, ¬ touched p → fs'.settings p = fs.settings p
  reliable : fs.Reliable → fs'.Reliable
  readable : fs.Readable → fs'.Readable

namespace Frame

theorem refl (touched : Path → Prop) (fs : FileSystem) : Frame touched fs fs :=
  ⟨fun _ _ => rfl, fun _ _ => rfl, id, id⟩

theorem trans (first : Frame touched fs fs') (second : Frame touched fs' fs'') :
    Frame touched fs fs'' where
  read p away := (second.read p away).trans (first.read p away)
  settings p away := (second.settings p away).trans (first.settings p away)
  reliable reliable := second.reliable (first.reliable reliable)
  readable readable := second.readable (first.readable readable)

theorem mono (frame : Frame touched fs fs') (wider : ∀ p, touched p → touched' p) :
    Frame touched' fs fs' where
  read p away := frame.read p fun mem => away (wider p mem)
  settings p away := frame.settings p fun mem => away (wider p mem)
  reliable := frame.reliable
  readable := frame.readable

theorem fileExists (frame : Frame touched fs fs') (away : ¬ touched p) :
    fs'.fileExists p = fs.fileExists p := by
  rw [FileSystem.fileExists, FileSystem.fileExists, frame.read p away, frame.settings p away]

theorem settingsValue (frame : Frame touched fs fs') (away : ¬ touched p) (key : QString) :
    fs'.settingsValue p key = fs.settingsValue p key := by
  rw [FileSystem.settingsValue, FileSystem.settingsValue, frame.settings p away]

/-! ### One operation -/

theorem put (mem : touched p) (bytes : QByteArray) : Frame touched fs (fs.put p bytes) where
  read q away := by
    rw [read_put, if_neg]
    rintro rfl
    exact away mem
  settings _ _ := rfl
  reliable := id
  readable := id

theorem forget (mem : touched p) : Frame touched fs (fs.forget p) where
  read q away := by
    rw [read_forget, if_neg]
    rintro rfl
    exact away mem
  settings q away := by
    rw [settings_forget, if_neg]
    rintro rfl
    exact away mem
  reliable := id
  readable := id

theorem setSettingsValue (mem : touched p) (key : QString) (value : QVariant) :
    Frame touched fs (fs.setSettingsValue p key value) where
  read _ _ := rfl
  settings q away := by
    have apart : q ≠ p := fun same => away (same ▸ mem)
    simp [FileSystem.setSettingsValue, apart]
  reliable := id
  readable := id

theorem removeSettings (mem : touched p) (key : QString) :
    Frame touched fs (fs.removeSettings p key) where
  read _ _ := rfl
  settings q away := by
    have apart : q ≠ p := fun same => away (same ▸ mem)
    simp [FileSystem.removeSettings, apart]
  reliable := id
  readable := id

/-- Going on with other outcomes. -/
theorem outcomes (rest : Outcomes) (reliable : fs.outcomes = .success → rest = .success)
    (readable : fs.outcomes.openRead = .const true → rest.openRead = .const true) :
    Frame touched fs { fs with outcomes := rest } :=
  ⟨fun _ _ => rfl, fun _ _ => rfl, reliable, readable⟩

theorem remove (mem : touched p) : Frame touched fs (fs.remove p).2 := by
  have rest : Frame touched fs
      { fs with outcomes := { fs.outcomes with remove := fs.outcomes.remove.tail } } :=
    outcomes _ (fun reliable => by rw [reliable]; rfl) id
  unfold FileSystem.remove
  simp only
  split
  · exact rest.trans (forget mem)
  · exact rest

theorem openAppend (mem : touched p) : Frame touched fs (fs.openAppend p).2 := by
  have rest : Frame touched fs
      { fs with outcomes := { fs.outcomes with openAppend := fs.outcomes.openAppend.tail } } :=
    outcomes _ (fun reliable => by rw [reliable]; rfl) id
  unfold FileSystem.openAppend
  simp only
  split
  · exact rest.trans (put mem _)
  · exact rest

theorem write (mem : touched p) (bytes : QByteArray) : Frame touched fs (fs.write p bytes) := by
  have rest : Frame touched fs
      { fs with outcomes := { fs.outcomes with write := fs.outcomes.write.tail } } :=
    outcomes _ (fun reliable => by rw [reliable]; rfl) id
  exact rest.trans (put mem _)

theorem openRead : Frame touched fs (fs.openRead p).2 := by
  have rest : Frame touched fs
      { fs with outcomes := { fs.outcomes with openRead := fs.outcomes.openRead.tail } } :=
    outcomes _ (fun reliable => by rw [reliable]; rfl) fun readable => by rw [readable]; rfl
  unfold FileSystem.openRead
  simp only
  split <;> exact rest

theorem rename (source : touched p) (dest : touched q) : Frame touched fs (fs.rename p q).2 := by
  have rest : Frame touched fs
      { fs with outcomes := { fs.outcomes with rename := fs.outcomes.rename.tail } } :=
    outcomes _ (fun reliable => by rw [reliable]; rfl) id
  unfold FileSystem.rename
  simp only
  split
  · split
    · exact (rest.trans (forget source)).trans (put dest _)
    · exact rest
  · exact rest

theorem copy (dest : touched q) : Frame touched fs (fs.copy p q).2 := by
  have rest : Frame touched fs
      { fs with outcomes := { fs.outcomes with copy := fs.outcomes.copy.tail } } :=
    outcomes _ (fun reliable => by rw [reliable]; rfl) id
  unfold FileSystem.copy
  simp only
  split
  · split
    · exact rest.trans (put dest _)
    · exact rest
  · exact rest

end Frame

end FileSystem

end MediaUpdater
