import MediaUpdater.Download.Stage
import MediaUpdater.Qt.Frame

/-!
# One event of a download

An inversion of `step` for the events of an outstanding reply: `Transfer` is what an
event does to its bytes and to the staged file, `Judged` is the verdict at its end.

## Main results

* `Downloading.inverted` — every event of a download is a transfer or its end.
* `Gathered` — between two events the staged bytes and the buffer of the reply are what
  was there before and what has been delivered since, as long as the calls succeed.
-/

namespace MediaUpdater

open Library DownloadManager FileSystem

variable {env : Env} {s t u : State} {e : Event} {reply reply' : Reply}

/-! ### Transfers -/

/-- The event calls `saveDownloadedFile`: a `readyRead` is delivered, or the timer finds
bytes in the buffer. -/
def Saves (s : State) : Event → Prop
  | .deliver => s.posted.head?.map Prod.snd = some .readyRead
  | .downloadTimer => ∃ reply, s.currentReply = some reply ∧ reply.buffer ≠ []
  | _ => False

/-- What an event does to the bytes of an outstanding reply. -/
inductive Transfer (s : State) (e : Event) (t : State) (reply reply' : Reply) : Prop
  /-- Bytes arrive, and `readyRead` is queued. -/
  | data (bytes : QByteArray) (event : e = .netData bytes) (fs : t.fs = s.fs)
      (buffer : reply'.buffer = reply.buffer ++ bytes)
      (delivered : reply'.delivered = reply.delivered ++ bytes)
      (posted : t.posted = s.posted ++ [(reply.id, .readyRead)])
  /-- The bytes and the queued `readyRead`s stay. -/
  | still (calls : ¬ Saves s e) (fs : t.fs = s.fs) (buffer : reply'.buffer = reply.buffer)
      (delivered : reply'.delivered = reply.delivered)
      (posted : ∀ signal, signal.2 = .readyRead → (signal ∈ t.posted ↔ signal ∈ s.posted))
  /-- The bytes in the buffer are appended to the staged file, if it can be opened. -/
  | saved (calls : Saves s e) (delivered : reply'.delivered = reply.delivered)
      (fewer : ∀ signal ∈ t.posted, signal ∈ s.posted)
      (effect :
        let opened := s.fs.openAppend reply.file.stagedPath
        opened.1 = true ∧ reply'.buffer = [] ∧
            (reply.buffer = [] ∧ t.fs = opened.2 ∨
              t.fs = opened.2.write reply.file.stagedPath reply.buffer) ∨
          opened.1 = false ∧ reply'.buffer = reply.buffer ∧ t.fs = opened.2)

/-- A transfer touches the staged file only. -/
theorem Transfer.frame (transfer : Transfer s e t reply reply') :
    Frame (· = reply.file.stagedPath) s.fs t.fs ∧ t.fs.settings = s.fs.settings := by
  have opened : Frame (· = reply.file.stagedPath) s.fs (s.fs.openAppend reply.file.stagedPath).2 :=
    .openAppend rfl
  have kept : (s.fs.openAppend reply.file.stagedPath).2.settings = s.fs.settings := by
    unfold FileSystem.openAppend
    simp only
    split <;> rfl
  cases transfer with
  | data _ _ fs | still _ fs =>
      rw [fs]
      exact ⟨.refl _ s.fs, rfl⟩
  | saved _ _ _ effect =>
      rcases effect with ⟨-, -, ⟨-, fs⟩ | fs⟩ | ⟨-, -, fs⟩ <;> rw [fs]
      · exact ⟨opened, kept⟩
      · have written : Frame (· = reply.file.stagedPath) (s.fs.openAppend reply.file.stagedPath).2
            ((s.fs.openAppend reply.file.stagedPath).2.write reply.file.stagedPath reply.buffer) :=
          .write (by rfl) _
        exact ⟨opened.trans written, kept⟩
      · exact ⟨opened, kept⟩

/-- What the verdict on a download does to the disk and the log. -/
inductive Judged (env : Env) (s t : State) (reply : Reply) (file : SContentInfo) : Prop
  /-- A control file gets its status. -/
  | revision (stage : s.revision = true) (status : CheckStatus)
      (ok : status = if s.fs.fileExists file.stagedPath && !s.downloadTimeout && !reply.error
        then .downloadOk else .downloadFail)
      (fs : t.fs = CheckDownloadedContent.setRev env s.contentManager.loginInfo.boxId s.fs
        file.fileName status)
      (log : t.log = .setRev reply.id file status :: s.log)
  /-- Any other file becomes trusted, or does not. -/
  | content (stage : s.revision = false) (n : ℕ)
      (fs : t.fs = (fun fs => CheckDownloadedContent.setTrust env
        s.contentManager.loginInfo.boxId fs file.toEntry)^[n] s.fs)
      (log : t.log = List.replicate n (.setTrust reply.id file (s.fs.read file.stagedPath)
        (some reply.delivered)) ++ s.log)
      (present : n ≠ 0 → s.fs.fileExists file.stagedPath = true)
      (ok : s.fs.fileExists file.stagedPath && !s.downloadTimeout && !reply.error → n ≠ 0)

/-- Setting trust any number of times leaves every file as it is. -/
theorem read_iterate_setTrust {boxId : QString} {fs : FileSystem} {entry : Entry} {p : Path}
    (n : ℕ) :
    ((fun fs => CheckDownloadedContent.setTrust env boxId fs entry)^[n] fs).read p = fs.read p := by
  have unread : (fun fs : FileSystem => fs.read p) ∘
      (fun fs => CheckDownloadedContent.setTrust env boxId fs entry) = fun fs => fs.read p := by
    funext fs
    rfl
  exact congrFun (Function.iterate_invariant unread n) fs

/-- The specification of `verdict`. -/
theorem judged_verdict {file : SContentInfo} (replying : s.currentReply = some reply) {ok : Bool}
    (is : ok = (s.fs.fileExists file.stagedPath && !s.downloadTimeout && !reply.error))
    (fs : t.fs = (verdict env s reply.id file ok (s.fs.fileExists file.stagedPath)).fs)
    (log : t.log = (verdict env s reply.id file ok (s.fs.fileExists file.stagedPath)).log) :
    Judged env s t reply file := by
  have own : deliveredBy s reply.id = some reply.delivered := by
    simp [deliveredBy, replying]
  cases stage : s.revision with
  | true =>
      refine .revision stage (if ok then .downloadOk else .downloadFail) (by rw [is]) ?_ ?_
      · rw [fs]
        cases ok <;> simp [verdict, stage, setRev]
      · rw [log]
        cases ok <;> simp [verdict, stage, setRev]
  | false =>
      have first : ok = true → s.fs.fileExists file.stagedPath = true := by
        rw [is]
        simp +contextual
      -- it is enough to find the number of calls of `setTrust`
      have calls (n : ℕ)
          (fs : t.fs = (fun fs => CheckDownloadedContent.setTrust env
            s.contentManager.loginInfo.boxId fs file.toEntry)^[n] s.fs)
          (log : t.log = List.replicate n (.setTrust reply.id file (s.fs.read file.stagedPath)
            (some reply.delivered)) ++ s.log)
          (present : n ≠ 0 → s.fs.fileExists file.stagedPath = true) (given : ok = true → n ≠ 0) :
          Judged env s t reply file :=
        .content stage n fs log present (by rw [← is]; exact given)
      cases present : s.fs.fileExists file.stagedPath with
      | false =>
          obtain rfl : ok = false := by simpa [present] using first
          exact calls 0 (by simpa [verdict, stage, present] using fs)
            (by simpa [verdict, stage, present] using log) (by simp) (by simp)
      | true =>
          rw [present] at fs log
          cases ok <;> cases full : s.fullDownloadBytes
          · exact calls 0 (by simpa [verdict, stage, full] using fs)
              (by simpa [verdict, stage, full] using log) (by simp) (by simp)
          · exact calls 1 (by simpa [verdict, stage, full, setTrust] using fs)
              (by simpa [verdict, stage, full, setTrust, own] using log) (by simp [present])
              (by simp)
          · exact calls 1 (by simpa [verdict, stage, full, setTrust] using fs)
              (by simpa [verdict, stage, full, setTrust, own] using log) (by simp [present])
              (by simp)
          · exact calls 2 (by simpa [verdict, stage, full, setTrust] using fs)
              (by simpa [verdict, stage, full, setTrust, deliveredBy, replying] using log)
              (by simp [present]) (by simp)

/-- `saveDownloadedFile` is a transfer. -/
theorem transfer_saveDownloadedFile {file : SContentInfo} (fs : u.fs = s.fs)
    (current : u.currentContentFile = some file) (same : SameFile file reply.file)
    (replying : u.currentReply = some reply)
    (calls : Saves s e) (fewer : ∀ signal ∈ u.posted, signal ∈ s.posted) :
    ∃ reply', (saveDownloadedFile u).currentReply = some reply' ∧
      Transfer s e (saveDownloadedFile u) reply reply' := by
  unfold saveDownloadedFile
  simp only [current, replying, fs, same.stagedPath]
  cases opened : (s.fs.openAppend reply.file.stagedPath).1 with
  | false =>
      exact ⟨reply, by simp, .saved calls rfl (by simpa using fewer) (.inr ⟨opened, rfl, rfl⟩)⟩
  | true =>
      by_cases empty : reply.buffer = []
      · exact ⟨{ reply with buffer := [] }, by simp [empty],
          .saved calls rfl (by simpa [empty] using fewer)
            (.inl ⟨opened, rfl, .inl ⟨empty, by simp [empty]⟩⟩)⟩
      · exact ⟨{ reply with buffer := [] }, by simp [empty],
          .saved calls rfl (by simpa [empty] using fewer)
            (.inl ⟨opened, rfl, .inr (by simp [empty])⟩)⟩

/-- `downloadFinished` with a reply is a verdict. -/
theorem judged_downloadFinished {file : SContentInfo} (current : s.currentContentFile = some file)
    (replying : s.currentReply = some reply) :
    (downloadFinished env s reply.id).currentReply = none ∧
      Judged env s (downloadFinished env s reply.id) reply file := by
  rw [downloadFinished_verdict env s reply.id current replying]
  refine ⟨rfl, ?_⟩
  have judged : Judged env { s with downloadTimer := false } _ reply file :=
    judged_verdict (t := verdict env { s with downloadTimer := false } reply.id file
        (s.fs.fileExists file.stagedPath && !s.downloadTimeout && !reply.error)
        (s.fs.fileExists file.stagedPath)) replying rfl rfl rfl
  cases judged with
  | revision stage status is fs log => exact .revision stage status is fs log
  | content stage n fs log present ok => exact .content stage n fs log present ok

/-- **One event of a download**, with what it does to the bytes and to the disk. -/
theorem Downloading.transferred (downloading : Downloading s reply) (alive : s.crashed = false)
    (stage : e.isStage) (takes : step env s e = some t) :
    (∃ reply', t.currentReply = some reply' ∧ Transfer s e t reply reply') ∨
      t.currentReply = none ∧ s.posted = [(reply.id, .finished)] ∧
        ∃ file, s.currentContentFile = some file ∧ SameFile file reply.file ∧
          Judged env s t reply file := by
  obtain ⟨scheduled, replying, ⟨file, current, same⟩, queued⟩ := downloading
  rw [step_eq_react alive] at takes
  have emitted (change : Reply → Reply) {signal : Signal}
      (takes : s.activeReply.map (fun reply => s.emits (change reply) signal) = some t) :
      t = s.emits (change reply) signal := by
    rw [activeReply_eq replying] at takes
    split at takes
    · cases takes
    · exact (Option.some.inj takes).symm
  have later {reply' : Reply} {signal : Signal} (buffer : reply'.buffer = reply.buffer)
      (delivered : reply'.delivered = reply.delivered) (other : signal ≠ .readyRead)
      (calls : ¬ Saves s e) :
      Transfer s e (s.emits reply' signal) reply reply' := by
    refine .still calls rfl buffer delivered fun x read => ?_
    have fresh : x ≠ (reply'.id, signal) := by
      rintro rfl
      exact other read
    simp [State.emits, fresh]
  cases e with
  | nextDownload => simp [react, scheduled] at takes
  | netData bytes =>
      rw [emitted (fun reply => { reply with
        buffer := reply.buffer ++ bytes, delivered := reply.delivered ++ bytes }) takes]
      exact .inl ⟨_, rfl, .data bytes rfl rfl rfl rfl rfl⟩
  | netProgress cb tb =>
      rw [emitted id takes]
      exact .inl ⟨_, rfl, later rfl rfl (by simp) id⟩
  | netError =>
      rw [emitted (fun reply => { reply with error := true }) takes]
      exact .inl ⟨_, rfl, later rfl rfl (by simp) id⟩
  | netFinished =>
      rw [emitted (fun reply => { reply with finished := true }) takes]
      exact .inl ⟨_, rfl, later rfl rfl (by simp) id⟩
  | downloadTimer =>
      rw [react, Option.ite_none_right_eq_some] at takes
      obtain ⟨-, fired⟩ := takes
      obtain rfl := Option.some.inj fired
      rw [downloadTimedOut_eq s replying]
      split
      next buffered =>
        exact .inl (transfer_saveDownloadedFile rfl current same replying
          ⟨reply, replying, buffered⟩ fun _ mem => mem)
      next drained =>
        refine .inl ⟨_, rfl, .still ?_ rfl rfl rfl fun _ _ => Iff.rfl⟩
        rintro ⟨reply', replying', buffered⟩
        obtain rfl := Option.some.inj (replying.symm.trans replying')
        exact drained buffered
  | deliver =>
      simp only [react] at takes
      split at takes
      · cases takes
      case h_2 sender signal rest posted =>
          obtain rfl := Option.some.inj takes
          rw [posted] at queued
          obtain ⟨rfl, ⟨rfl, rfl, -⟩ | ⟨other, left⟩⟩ := queued.of_cons
          · have verdict : (downloadFinished env { s with posted := [] } reply.id).currentReply =
              none ∧
                Judged env { s with posted := [] }
                  (downloadFinished env { s with posted := [] } reply.id) reply file :=
              judged_downloadFinished current replying
            obtain ⟨given, judged⟩ := verdict
            refine .inr ⟨given, posted, file, current, same, ?_⟩
            cases judged with
            | revision stage status is fs log => exact .revision stage status is fs log
            | content stage n fs log present ok => exact .content stage n fs log present ok
          · -- a queued `readyRead` is taken from the queue by its own delivery only
            have kept (other : signal ≠ .readyRead) (x : ℕ × Signal) (read : x.2 = .readyRead) :
                x ∈ rest ↔ x ∈ s.posted := by
              have fresh : x ≠ (reply.id, signal) := by
                rintro rfl
                exact other read
              simp [posted, fresh]
            have calls : Saves s .deliver ↔ signal = .readyRead := by
              simp [Saves, posted]
            cases signal with
            | readyRead =>
                refine .inl
                  (transfer_saveDownloadedFile rfl current same replying (calls.mpr rfl) ?_)
                intro x mem
                rw [posted]
                exact List.mem_cons_of_mem _ mem
            | downloadProgress cb tb =>
                obtain ⟨currentBytes, lastBytes, full, file', progressed, -⟩ :=
                  downloadProgress_eq { s with posted := rest } cb tb current
                simp only [deliver]
                rw [progressed]
                exact .inl ⟨reply, replying, .still (by simp [calls]) rfl rfl rfl (kept (by simp))⟩
            | error =>
                exact .inl ⟨reply, replying, .still (by simp [calls]) rfl rfl rfl (kept (by simp))⟩
            | finished => exact absurd rfl other
  | _ => cases stage

/-- **What one event can do to a download**: it goes on, or its `finished` is handled. -/
inductive DownloadStep (env : Env) (s t : State) (reply : Reply) : Event → Prop
  | transfers {e : Event} {reply' : Reply} (downloading : Downloading t reply')
      (id : reply'.id = reply.id) (file : reply'.file = reply.file) (only : DownloadOnly s t)
      (transfer : Transfer s e t reply reply')
      (log : ∃ acts, t.log = acts ++ s.log ∧
      ∀ a ∈ acts, a.IsTransfer reply.id reply.file.stagedPath) :
      DownloadStep env s t reply e
  | judges {file : SContentInfo} (waiting : Waiting t) (posted : s.posted = [(reply.id, .finished)])
      (only : DownloadOnly s t) (same : SameFile file reply.file)
      (judged : Judged env s t reply file) : DownloadStep env s t reply .deliver

/-- **The inversion of an event of a download.** -/
theorem Downloading.inverted (downloading : Downloading s reply) (alive : s.crashed = false)
    (stage : e.isStage) (takes : step env s e = some t) : DownloadStep env s t reply e := by
  obtain ⟨acts, logged, only, progress⟩ := downloading.progresses alive stage takes
  rcases downloading.transferred alive stage takes with
    ⟨reply', replying, transfer⟩ | ⟨given, posted, file, current, same, judged⟩
  · cases progress with
    | @goesOn _ reply'' downloading' id file transfers =>
        obtain rfl := Option.some.inj (replying.symm.trans downloading'.replying)
        exact .transfers downloading' id file only transfer ⟨acts, logged, transfers⟩
    | ends waiting _ _ _ => exact absurd (replying.symm.trans waiting.replying) (by simp)
  · cases progress with
    | goesOn downloading' _ _ _ => exact absurd (given.symm.trans downloading'.replying) (by simp)
    | ends waiting _ _ _ => exact .judges waiting posted only same judged

/-! ### The bytes of a download -/

/-- The staged bytes and the buffer are what was there before, followed by what the reply
has delivered. -/
structure Gathered (leftover : QByteArray) (s : State) (reply : Reply) : Prop where
  bytes : (s.fs.read reply.file.stagedPath).getD [] ++ reply.buffer = leftover ++ reply.delivered
  /-- Bytes in the buffer are announced. -/
  announced : reply.buffer ≠ [] → (reply.id, .readyRead) ∈ s.posted

namespace Gathered

variable {leftover : QByteArray}

/-- A reply that was just requested. -/
theorem request (fresh : reply.buffer = [] ∧ reply.delivered = []) :
    Gathered ((s.fs.read reply.file.stagedPath).getD []) s reply :=
  ⟨by simp [fresh], fun nonempty => absurd fresh.1 nonempty⟩

/-- **Every transfer keeps the bytes together.** -/
theorem transfer (gathered : Gathered leftover s reply) (reliable : s.fs.Reliable)
    (id : reply'.id = reply.id) (file : reply'.file = reply.file)
    (transfer : Transfer s e t reply reply') : Gathered leftover t reply' := by
  obtain ⟨bytes, announced⟩ := gathered
  cases transfer with
  | data new _ fs buffer delivered posted =>
      refine ⟨?_, fun _ => ?_⟩
      · rw [fs, file, buffer, delivered, ← List.append_assoc, bytes, List.append_assoc]
      · rw [posted, id]
        exact List.mem_append_right _ (List.mem_singleton_self _)
  | still _ fs buffer delivered posted =>
      refine ⟨?_, fun nonempty => ?_⟩
      · rw [fs, file, buffer, delivered, bytes]
      · rw [buffer] at nonempty
        rw [id]
        exact (posted _ rfl).mpr (announced nonempty)
  | saved _ delivered _ effect =>
      simp only [reliable.openAppend_eq] at effect
      rcases effect with ⟨-, buffer, effect⟩ | ⟨failed, -⟩
      · refine ⟨?_, fun nonempty => absurd buffer nonempty⟩
        rw [file, buffer, delivered, ← bytes, List.append_nil]
        rcases effect with ⟨empty, fs⟩ | fs
        · rw [fs, empty]
          simp
        · rw [fs, reliable.put.write_eq]
          simp
      · cases failed

/-- When `finished` is all that is left in the queue, the staged bytes are complete. -/
theorem complete (gathered : Gathered leftover s reply)
    (posted : s.posted = [(reply.id, .finished)]) :
    (s.fs.read reply.file.stagedPath).getD [] = leftover ++ reply.delivered := by
  have saved : reply.buffer = [] := by
    by_contra nonempty
    have waits := gathered.announced nonempty
    simp [posted] at waits
  have bytes := gathered.bytes
  rwa [saved, List.append_nil] at bytes

end Gathered

end MediaUpdater
