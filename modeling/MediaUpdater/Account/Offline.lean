import MediaUpdater.Account.AccountManager
import MediaUpdater.Library.Run
import MediaUpdater.Station

/-!
# Account data without the server

Any number of `AccountManager` instances, alive at the same time or one after the
other, share the file `account.dat`.  The program asks each instance once; here an
instance may be asked again as soon as its reply has finished.

## Main results

* `offline_faithful` — an instance that has accepted no reply and whose request ends
  in a network error or a timeout has the data of the reply that was accepted last.
-/

namespace MediaUpdater

open Library

/-- The instances and the file they share. -/
structure Accounts where
  /-- `account.dat`. -/
  accountFile : StoreFile
  managers : List AccountManager
  /-- The instances that have accepted a reply. -/
  accepted : List ℕ

/-- What happens to an instance. -/
inductive AccountEvent where
  | create (uninitialised : AccountError)
  | setLogin (i : ℕ) (login : QString)
  | setPassword (i : ℕ) (pass : QString)
  | request (i : ℕ)
  | requestTimeout (i : ℕ)
  | replyFinished (i : ℕ) (reply : NetworkReply) (randomChar : UInt8)

namespace Accounts

variable (codec : Codec) (s : Accounts)

/-- No instance yet; the file holds what earlier processes left. -/
def Initial : Prop := s.managers = [] ∧ s.accepted = []

/-- One instance changes. -/
def change (i : ℕ) (f : AccountManager → Option AccountManager) : Option Accounts :=
  (s.managers[i]?.bind f).map fun account => { s with managers := s.managers.set i account }

/-- The instance `i` takes a reply. -/
def takeReply (i : ℕ) (account : AccountManager) (reply : NetworkReply) (randomChar : UInt8) :
    Accounts :=
  let finished := account.replyFinished codec s.accountFile reply randomChar
  { accountFile := finished.2
    managers := s.managers.set i finished.1
    accepted :=
      if account.accepts codec s.accountFile reply randomChar then i :: s.accepted else s.accepted }

/-- A request needs an instance whose last reply has finished, and its timer runs until
then. -/
def step : AccountEvent → Option Accounts
  | .create uninitialised => some { s with managers := s.managers ++ [.new codec uninitialised] }
  | .setLogin i login => s.change i fun account => some (account.setLogin login)
  | .setPassword i pass => s.change i fun account => some (account.setPassword pass)
  | .request i => s.change i fun account =>
      if account.waiting then none else some account.request.2
  | .requestTimeout i => s.change i fun account =>
      if account.waiting && !account.requestTimeout then some account.onRequestTimeout else none
  | .replyFinished i reply randomChar =>
      (s.managers[i]?.filter (·.waiting)).map fun account =>
      s.takeReply codec i account reply randomChar

/-- The event is a reply that its instance accepts. -/
def accepts : AccountEvent → Bool
  | .replyFinished i reply randomChar =>
      s.managers[i]?.any fun account => account.accepts codec s.accountFile reply randomChar
  | _ => false

/-- Every instance is sound. -/
def Sound : Prop :=
  ∀ i (account : AccountManager), s.managers[i]? = some account →
    account.Sound codec (i ∈ s.accepted)

variable {codec s} {t u v : Accounts} {i j : ℕ} {account other : AccountManager}
variable {reply reply' : NetworkReply} {randomChar randomChar' : UInt8} {e : AccountEvent}
variable {es : List AccountEvent}

/-! ### Steps -/

theorem change_eq_some {f : AccountManager → Option AccountManager} :
    s.change i f = some t ↔ ∃ account account', s.managers[i]? = some account ∧
      f account = some account' ∧ t = { s with managers := s.managers.set i account' } := by
  simp only [change, Option.map_eq_some_iff, Option.bind_eq_some_iff]
  constructor
  · rintro ⟨account', ⟨account, known, changed⟩, rfl⟩
    exact ⟨account, account', known, changed, rfl⟩
  · rintro ⟨account, account', known, changed, rfl⟩
    exact ⟨account', ⟨account, known, changed⟩, rfl⟩

theorem step_replyFinished :
    s.step codec (.replyFinished i reply randomChar) = some t ↔
      ∃ account, s.managers[i]? = some account ∧ account.waiting = true ∧
        t = s.takeReply codec i account reply randomChar := by
  simp only [step, Option.map_eq_some_iff, Option.filter_eq_some_iff]
  constructor
  · rintro ⟨account, ⟨known, waiting⟩, rfl⟩
    exact ⟨account, known, waiting, rfl⟩
  · rintro ⟨account, known, waiting, rfl⟩
    exact ⟨account, ⟨known, waiting⟩, rfl⟩

/-- **What a step can do.**  It creates an instance, changes one instance in a way that
keeps it sound, or lets an instance take a reply. -/
theorem step_cases (takes : s.step codec e = some t) :
    (∃ uninitialised, t = { s with managers := s.managers ++ [.new codec uninitialised] }) ∨
      (∃ i account account', s.managers[i]? = some account ∧
        (∀ saved, account.Sound codec saved → account'.Sound codec saved) ∧
        account'.localConnect = account.localConnect ∧
        t = { s with managers := s.managers.set i account' }) ∨
      ∃ i account reply randomChar, e = .replyFinished i reply randomChar ∧
        s.managers[i]? = some account ∧ t = s.takeReply codec i account reply randomChar := by
  cases e with
  | create uninitialised => exact Or.inl ⟨uninitialised, (Option.some.inj takes).symm⟩
  | setLogin i login =>
      obtain ⟨account, account', known, changed, rfl⟩ := change_eq_some.mp takes
      obtain rfl := Option.some.inj changed
      exact Or.inr (Or.inl ⟨i, account, account.setLogin login, known,
        fun _ sound => ⟨sound.1, sound.2, sound.3⟩, rfl, rfl⟩)
  | setPassword i pass =>
      obtain ⟨account, account', known, changed, rfl⟩ := change_eq_some.mp takes
      obtain rfl := Option.some.inj changed
      exact Or.inr (Or.inl ⟨i, account, account.setPassword pass, known,
        fun _ sound => ⟨sound.1, sound.2, sound.3⟩, rfl, rfl⟩)
  | request i =>
      obtain ⟨account, account', known, changed, rfl⟩ := change_eq_some.mp takes
      rw [Option.ite_none_left_eq_some] at changed
      obtain ⟨idle, changed⟩ := changed
      obtain rfl := Option.some.inj changed
      exact Or.inr (Or.inl ⟨i, account, _, known,
        fun _ sound => sound.request (Bool.eq_false_iff.mpr idle),
        AccountManager.localConnect_request, rfl⟩)
  | requestTimeout i =>
      obtain ⟨account, account', known, changed, rfl⟩ := change_eq_some.mp takes
      rw [Option.ite_none_right_eq_some] at changed
      obtain rfl := Option.some.inj changed.2
      exact Or.inr (Or.inl ⟨i, account, account.onRequestTimeout, known,
        fun _ sound => ⟨sound.1, sound.2, sound.3⟩, rfl, rfl⟩)
  | replyFinished i reply randomChar =>
      obtain ⟨account, known, -, rfl⟩ := step_replyFinished.mp takes
      exact Or.inr (Or.inr ⟨i, account, reply, randomChar, rfl, known, rfl⟩)

/-! ### Soundness -/

/-- Replacing one instance by a sound one keeps soundness. -/
theorem Sound.set (sound : s.Sound codec) {accepted : List ℕ} {file : StoreFile}
    (more : ∀ i ∈ s.accepted, i ∈ accepted) (replaced : account.Sound codec (i ∈ accepted)) :
    Sound codec ⟨file, s.managers.set i account, accepted⟩ := by
  intro k other known
  rw [List.getElem?_set] at known
  split at known
  · next same =>
    split at known
    · obtain rfl := Option.some.inj known
      exact same ▸ replaced
    · simp at known
  · exact (sound k other known).mono (more k)

theorem sound_step (sound : s.Sound codec) (takes : s.step codec e = some t) : t.Sound codec := by
  obtain ⟨uninitialised, rfl⟩ | ⟨i, account, account', known, keeps, -, rfl⟩ |
    ⟨i, account, reply, randomChar, -, known, rfl⟩ := step_cases takes
  · intro k other known
    rw [List.getElem?_append] at known
    split at known
    · exact sound k other known
    · obtain rfl := List.mem_singleton.mp (List.mem_of_getElem? known)
      exact AccountManager.sound_new uninitialised
  · exact sound.set (fun _ mem => mem) (keeps _ (sound i account known))
  · refine sound.set (fun k mem => ?_) ((sound i account known).replyFinished.mono ?_)
    · split
      · exact List.mem_cons_of_mem i mem
      · exact mem
    · rintro (was | accepted)
      · split
        · exact List.mem_cons_of_mem i was
        · exact was
      · rw [if_pos accepted]
        exact List.mem_cons_self

theorem sound_reachable (reached : Reachable (step codec) (fun _ _ => True) Initial s) :
    s.Sound codec := by
  refine reached.invariant (Sound codec) ?_ fun s e t _ sound _ takes => sound_step sound takes
  rintro s ⟨none, -⟩ i account known
  simp [none] at known

/-! ### The file -/

/-- A step in which no reply is accepted leaves the file. -/
theorem accountFile_step (rejects : s.accepts codec e = false) (takes : s.step codec e = some t) :
    t.accountFile = s.accountFile := by
  obtain ⟨uninitialised, rfl⟩ | ⟨i, account, account', known, keeps, -, rfl⟩ |
    ⟨i, account, reply, randomChar, rfl, known, rfl⟩ := step_cases takes
  · rfl
  · rfl
  · rw [accepts, known, Option.any_some] at rejects
    exact (AccountManager.replyFinished_of_not_accepts rejects).1

/-- While no reply is accepted the file stays as it is. -/
theorem accountFile_run (run : Run (step codec) (fun s e => s.accepts codec e = false) t es u) :
    u.accountFile = t.accountFile :=
  run.invariant (fun w => w.accountFile = t.accountFile)
    (fun _ _ _ same rejects takes => (accountFile_step rejects takes).trans same) rfl

end Accounts

open Accounts AccountManager

variable {codec : Codec} {s t u v : Accounts} {i j : ℕ} {n : AccountManager}
variable {reply reply' : NetworkReply} {randomChar randomChar' : UInt8} {es : List AccountEvent}

/-- **Offline account data is faithful.**  The instance `i` accepts a reply, no reply is
accepted after that, and the request of the instance `j`, which has accepted none,
ends in a network error or a timeout: `j` ends without an error and with the values of
`i`. -/
theorem offline_faithful (lawful : codec.Lawful)
    (reached : Reachable (step codec) (fun _ _ => True) Initial s)
    (takes : s.step codec (.replyFinished i reply randomChar) = some t)
    (accepted : s.accepts codec (.replyFinished i reply randomChar) = true)
    (run : Run (step codec) (fun s e => s.accepts codec e = false) t es u)
    (later : u.managers[j]? = some n) (none : j ∉ u.accepted)
    (offline : reply'.failed = true ∨ n.requestTimeout = true)
    (ends : u.step codec (.replyFinished j reply' randomChar') = some v) :
    ∃ first last, t.managers[i]? = some first ∧ v.managers[j]? = some last ∧
      last.error = .noError ∧ ∀ key, last.getValue codec key = first.getValue codec key := by
  have reachedT := reached.next trivial takes
  have reachedU := reachedT.run (run.mono fun _ _ _ => trivial)
  -- the reply that `i` accepts
  obtain ⟨m, known, waiting, rfl⟩ := step_replyFinished.mp takes
  rw [Accounts.accepts, known, Option.any_some] at accepted
  -- the reply that `j` does not get
  obtain ⟨n', known', waiting', rfl⟩ := step_replyFinished.mp ends
  obtain rfl : n = n' := Option.some.inj (later.symm.trans known')
  have fresh : n.Sound codec False := (sound_reachable reachedU j n later).mono none
  obtain ⟨clean, same⟩ := replyFinished_fallback lawful (sound_reachable reached i m known) waiting
    accepted fresh waiting' offline randomChar'
  refine ⟨(m.replyFinished codec s.accountFile reply randomChar).1,
    (n.replyFinished codec u.accountFile reply' randomChar').1, ?_, ?_, ?_⟩
  · exact List.getElem?_set_self (List.getElem?_eq_some_iff.mp known).1
  · exact List.getElem?_set_self (List.getElem?_eq_some_iff.mp later).1
  · rw [accountFile_run run]
    exact ⟨clean, same⟩

/-! ### A concrete run -/

/-- The answer of the server in the concrete run. -/
def Codec.demoJson : QByteArray := ascii "\x7b\"STHost\":\"h\"\x7d"

/-- What `qCompress` makes of the text that the concrete run saves. -/
def Codec.demoCompressed : QByteArray :=
  [0, 0, 0, 20, 120, 218, 75, 173, 244, 10, 9, 115, 205, 40, 75, 54, 14, 204, 244, 207, 244,
    202, 247, 204, 51, 176, 5, 0, 74, 205, 6, 219]

/-- The conversions of Qt, as far as the concrete run uses them: ASCII text, the digest of
the encryption key, which is not a number, and the compressed form, the checksum and
the parse of the saved text. -/
def Codec.demo : Codec where
  fromUtf8 := fromLatin1
  toUtf8 := toLatin1
  toLocal8Bit := toLatin1
  toLower s := s.map Char.toLower
  toULongLong _ := 0
  sha1 _ :=
    [209, 104, 237, 210, 86, 89, 63, 90, 191, 125, 195, 34, 17, 253, 31, 170, 10, 206, 52, 248]
  qCompress bytes := if bytes = toBase64 demoJson then demoCompressed else 255 :: bytes
  qUncompress bytes := if bytes = demoCompressed then toBase64 demoJson else bytes.drop 1
  qChecksum _ := 0xf231
  fromJson bytes :=
    if bytes = demoJson then .ok (.object [(str "STHost", .string (str "h"))])
    else .error (str "illegal value")

theorem Codec.demo_lawful : Codec.demo.Lawful where
  toUtf8_fromUtf8 _ ascii := toLatin1_fromLatin1 ascii.zero_notMem
  toLocal8Bit_fromUtf8 _ ascii := toLatin1_fromLatin1 ascii.zero_notMem
  qUncompress_qCompress bytes := by
    simp only [Codec.demo]
    split
    · next saved => rw [if_pos rfl, saved]
    · rw [if_neg (by simp [demoCompressed]), List.drop_one, List.tail_cons]
  length_sha1 _ := rfl
  fromJson_nil := by
    have nonempty : ([] : QByteArray) ≠ demoJson := by decide
    refine ⟨str "illegal value", ?_⟩
    simp only [Codec.demo, if_neg nonempty]

/-- A box without server: the first instance has an answer, the second one runs into its
timer and reads what the first one saved. -/
theorem offline_faithful_demo : ∃ (s t u v : Accounts) (first last : AccountManager),
    s.step .demo (.replyFinished 0 ⟨false, [], toBase64 Codec.demoJson⟩ 77) = some t ∧
    t.managers[0]? = some first ∧ first.getValue .demo (str "sthost") = str "h" ∧
    u.step .demo (.replyFinished 1 ⟨true, str "Operation canceled", []⟩ 5) = some v ∧
    v.managers[1]? = some last ∧ last.error = .noError ∧
    ∀ key, last.getValue .demo key = first.getValue .demo key := by
  have plays : (execute (step .demo) (fun _ _ => True) ⟨∅, [], []⟩
      [.create .noError, .setLogin 0 (str "l"), .setPassword 0 (str "p"), .request 0]).map
        (fun s => (s.accepts .demo (.replyFinished 0 ⟨false, [], toBase64 Codec.demoJson⟩ 77),
          (s.step .demo (.replyFinished 0 ⟨false, [], toBase64 Codec.demoJson⟩ 77)).map
            fun t => (t.managers[0]?.map (·.getValue .demo (str "sthost")),
              (execute (step .demo) (fun s e => s.accepts .demo e = false) t
                [.create .replyError, .setLogin 1 (str "l"), .setPassword 1 (str "p"), .request 1,
                  .requestTimeout 1]).map
                fun u => (u.accepted, u.managers[1]?.map (·.requestTimeout),
                  (u.step .demo
                  (.replyFinished 1 ⟨true, str "Operation canceled", []⟩ 5)).isSome)))) =
      some (true, some (some (str "h"), some ([0], some true, true))) := rfl
  obtain ⟨s, played, facts⟩ := Option.map_eq_some_iff.mp plays
  simp only [Prod.mk.injEq] at facts
  obtain ⟨accepted, answered⟩ := facts
  obtain ⟨t, takes, facts⟩ := Option.map_eq_some_iff.mp answered
  simp only [Prod.mk.injEq] at facts
  obtain ⟨host, quiet⟩ := facts
  obtain ⟨u, waits, facts⟩ := Option.map_eq_some_iff.mp quiet
  simp only [Prod.mk.injEq] at facts
  obtain ⟨saved, late, ends⟩ := facts
  obtain ⟨n, later, -⟩ := Option.map_eq_some_iff.mp late
  obtain ⟨v, ends⟩ := Option.isSome_iff_exists.mp ends
  obtain ⟨first, last, known, known', clean, same⟩ :=
    offline_faithful Codec.demo_lawful ⟨_, _, ⟨rfl, rfl⟩, .of_execute played⟩ takes accepted
      (.of_execute waits) later (by rw [saved]; decide) (Or.inl rfl) ends
  rw [known, Option.map_some, Option.some.injEq] at host
  exact ⟨s, t, u, v, first, last, takes, known, host, ends, known', clean, same⟩

end MediaUpdater
