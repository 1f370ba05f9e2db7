import MediaUpdater.Account.Offline

/-!
# Falling back more than once

`saveCache` sets the group key of its own store, and `tryLoadCache` asks the same
store for the full key: an instance that has accepted a reply looks from then on
for `login/login/prefs`, which nobody writes.  So an instance falls back on the file
only until its own first accepted reply.

## Main results

* `Filed` — `account.dat` has one key at most, and an instance that has accepted a
  reply has a group key.
* `fallback_iff` — after a request that ends in a network error or a timeout, the
  data is that of the last accepted reply exactly when the instance has accepted none
  itself.
-/

namespace MediaUpdater

open Library

namespace AccountManager

variable {codec : Codec} {account : AccountManager} {file : StoreFile}
variable {reply : NetworkReply} {randomChar : UInt8} {json : QByteArray}

/-- The only key that is ever written. -/
def prefsKey : QString := str "login/prefs"

/-- An accepted reply is saved under that key, and leaves the group key set. -/
theorem replyFinished_saves (accepted : account.accepts codec file reply randomChar = true) :
    (∃ stored, (account.replyFinished codec file reply randomChar).2 = file.insert prefsKey stored)
      ∧
      (account.replyFinished codec file reply randomChar).1.localConnect.groupKey =
        str "login" := by
  rw [(replyFinished_of_accepts accepted).1]
  exact ⟨⟨_, rfl⟩, rfl⟩

/-- **With the group key set the saved data is not found.** -/
theorem tryLoadCache_of_groupKey (null : codec.toLocal8Bit [] = [])
    (keyed : account.localConnect.groupKey = str "login") (filed : ∀ key ∈ file, key = prefsKey) :
    account.tryLoadCache codec file = [] := by
  have asked : account.localConnect.fullKey (str "login/prefs") = str "login/login/prefs" := by
    rw [SettingsStore.fullKey, keyed]
    rfl
  have absent : file.lookup (str "login/login/prefs") = none := by
    rw [AList.lookup_eq_none]
    intro mem
    exact absurd (filed _ mem) (by decide)
  rw [tryLoadCache, SettingsStore.value, asked, absent, null]
  rfl

/-- A reply without an answer and without saved data is an error. -/
theorem replyFinished_of_no_cache (offline : reply.failed = true ∨ account.requestTimeout = true)
    (empty : account.tryLoadCache codec file = []) :
    (account.replyFinished codec file reply randomChar).1.error = .replyError := by
  have failed : (!reply.failed && !account.requestTimeout) = false := by
    rcases offline with failed | late
    · simp [failed]
    · simp [late]
  unfold replyFinished
  simp only [failed, Bool.false_eq_true, if_false]
  split
  · rfl
  next cached => exact absurd empty cached

end AccountManager

namespace Accounts

variable {codec : Codec} {s t : Accounts} {i : ℕ} {account : AccountManager} {e : AccountEvent}

/-- No instance yet, and nothing in the file: what earlier processes did belongs to the run. -/
def Fresh (s : Accounts) : Prop := s.Initial ∧ s.accountFile = ∅

/-- The file has the one key, and an instance that has accepted a reply has the group key
that `saveCache` sets. -/
structure Filed (s : Accounts) : Prop where
  keys : ∀ key ∈ s.accountFile, key = AccountManager.prefsKey
  known : ∀ i ∈ s.accepted, i < s.managers.length
  groupKey : ∀ i ∈ s.accepted, ∀ account : AccountManager, s.managers[i]? = some account →
    account.localConnect.groupKey = str "login"

/-- An instance that keeps its store keeps what is filed. -/
theorem Filed.set (filed : s.Filed) (known : s.managers[i]? = some account)
    {account' : AccountManager} (kept : account'.localConnect = account.localConnect) :
    Filed { s with managers := s.managers.set i account' } where
  keys := filed.keys
  known k mem := by
    rw [List.length_set]
    exact filed.known k mem
  groupKey k mem other found := by
    rw [List.getElem?_set] at found
    split at found
    next same =>
      subst same
      split at found
      · obtain rfl := Option.some.inj found
        rw [kept]
        exact filed.groupKey i mem account known
      · cases found
    next => exact filed.groupKey k mem other found

theorem Filed.takeReply (filed : s.Filed) (known : s.managers[i]? = some account)
    (reply : NetworkReply) (randomChar : UInt8) :
    (s.takeReply codec i account reply randomChar).Filed := by
  by_cases accepted : account.accepts codec s.accountFile reply randomChar = true
  · obtain ⟨⟨stored, saved⟩, keyed⟩ := AccountManager.replyFinished_saves accepted
    unfold Accounts.takeReply
    simp only [if_pos accepted]
    refine ⟨fun key mem => ?_, fun k mem => ?_, fun k mem other found => ?_⟩
    · rw [saved, AList.mem_insert] at mem
      exact mem.elim id (filed.keys key)
    · rw [List.length_set]
      rcases List.mem_cons.mp mem with rfl | mem
      · exact (List.getElem?_eq_some_iff.mp known).1
      · exact filed.known k mem
    · rw [List.getElem?_set] at found
      split at found
      next =>
        split at found
        · obtain rfl := Option.some.inj found
          exact keyed
        · cases found
      next apart =>
        exact filed.groupKey k ((List.mem_cons.mp mem).resolve_left fun same => apart same.symm)
          other found
  · have kept := AccountManager.replyFinished_of_not_accepts (Bool.eq_false_iff.mpr accepted)
    unfold Accounts.takeReply
    simp only [if_neg accepted, kept.1]
    exact filed.set known kept.2

theorem filed_step (filed : s.Filed) (takes : s.step codec e = some t) : t.Filed := by
  obtain ⟨uninitialised, rfl⟩ | ⟨i, account, account', known, -, kept, rfl⟩ |
    ⟨i, account, reply, randomChar, -, known, rfl⟩ := step_cases takes
  · refine ⟨filed.keys, fun k mem => ?_, fun k mem other found => ?_⟩
    · rw [List.length_append]
      exact Nat.lt_add_right _ (filed.known k mem)
    · rw [List.getElem?_append_left (filed.known k mem)] at found
      exact filed.groupKey k mem other found
  · exact filed.set known kept
  · exact filed.takeReply known reply randomChar

theorem filed_reachable (reached : Reachable (step codec) (fun _ _ => True) Fresh s) : s.Filed := by
  refine reached.invariant Filed ?_ fun s e t _ filed _ takes => filed_step filed takes
  rintro s ⟨⟨-, none⟩, empty⟩
  refine ⟨fun key mem => ?_, fun k mem => ?_, fun k mem => ?_⟩
  · rw [empty] at mem
    cases mem
  · rw [none] at mem
    cases mem
  · rw [none] at mem
    cases mem

/-- A run from an empty file is a run. -/
theorem reachable_of_fresh (reached : Reachable (step codec) (fun _ _ => True) Fresh s) :
    Reachable (step codec) (fun _ _ => True) Initial s := by
  obtain ⟨start, es, ⟨initial, -⟩, run⟩ := reached
  exact ⟨start, es, initial, run⟩

end Accounts

open Accounts AccountManager

variable {codec : Codec} {s t u v : Accounts} {i j : ℕ} {n : AccountManager}
variable {reply reply' : NetworkReply} {randomChar randomChar' : UInt8} {es : List AccountEvent}

/-- **When a fallback finds the last accepted reply.**  The instance `i` accepts a reply, no
reply is accepted after that, and the request of the instance `j` ends in a network error
or a timeout: `j` ends without an error and with the values of `i` exactly when `j` has
accepted no reply itself. -/
theorem fallback_iff (lawful : codec.Lawful) (null : codec.toLocal8Bit [] = [])
    (reached : Reachable (step codec) (fun _ _ => True) Fresh s)
    (takes : s.step codec (.replyFinished i reply randomChar) = some t)
    (accepted : s.accepts codec (.replyFinished i reply randomChar) = true)
    (run : Run (step codec) (fun s e => s.accepts codec e = false) t es u)
    (later : u.managers[j]? = some n)
    (offline : reply'.failed = true ∨ n.requestTimeout = true)
    (ends : u.step codec (.replyFinished j reply' randomChar') = some v) :
    (∃ first last, t.managers[i]? = some first ∧ v.managers[j]? = some last ∧
      last.error = .noError ∧ ∀ key, last.getValue codec key = first.getValue codec key) ↔
    j ∉ u.accepted := by
  have reachedU := (reached.next trivial takes).run (run.mono fun _ _ _ => trivial)
  -- the reply that `j` does not get
  obtain ⟨n', known', waiting', rfl⟩ := step_replyFinished.mp ends
  obtain rfl : n = n' := Option.some.inj (later.symm.trans known')
  have ended : (u.takeReply codec j n reply' randomChar').managers[j]? =
      some (n.replyFinished codec u.accountFile reply' randomChar').1 :=
    List.getElem?_set_self (List.getElem?_eq_some_iff.mp later).1
  constructor
  · rintro ⟨first, last, -, found, clean, -⟩ mem
    obtain rfl := Option.some.inj (ended.symm.trans found)
    have filed := filed_reachable reachedU
    have empty := tryLoadCache_of_groupKey null (filed.groupKey j mem n later) filed.keys
    rw [replyFinished_of_no_cache offline empty] at clean
    cases clean
  · intro none
    -- the reply that `i` accepts
    obtain ⟨m, known, waiting, rfl⟩ := step_replyFinished.mp takes
    rw [Accounts.accepts, known, Option.any_some] at accepted
    have fresh : n.Sound codec False :=
      (sound_reachable (reachable_of_fresh reachedU) j n later).mono none
    have sound := sound_reachable (reachable_of_fresh reached) i m known
    refine ⟨(m.replyFinished codec s.accountFile reply randomChar).1, _, ?_, ended, ?_⟩
    · exact List.getElem?_set_self (List.getElem?_eq_some_iff.mp known).1
    · rw [accountFile_run run]
      exact replyFinished_fallback lawful sound waiting accepted fresh waiting' offline randomChar'

/-- The second of two instances falls back on what the first one saved. -/
theorem fallback_iff_demo : ∃ (u v : Accounts) (last : AccountManager),
    u.accepted = [0] ∧
    u.step .demo (.replyFinished 1 ⟨true, str "Operation canceled", []⟩ 5) = some v ∧
    v.managers[1]? = some last ∧ last.error = .noError := by
  have plays : (execute (step .demo) (fun _ _ => True) ⟨∅, [], []⟩
      [.create .noError, .setLogin 0 (str "l"), .setPassword 0 (str "p"), .request 0]).map
        (fun s => (s.accepts .demo (.replyFinished 0 ⟨false, [], toBase64 Codec.demoJson⟩ 77),
          (s.step .demo (.replyFinished 0 ⟨false, [], toBase64 Codec.demoJson⟩ 77)).map
            fun t => (execute (step .demo) (fun s e => s.accepts .demo e = false) t
              [.create .replyError, .setLogin 1 (str "l"), .setPassword 1 (str "p"),
              .request 1]).map
                fun u => (u.accepted, u.managers[1]?.isSome,
                  (u.step .demo (.replyFinished 1 ⟨true, str "Operation canceled", []⟩ 5)).isSome)))
                    =
      some (true, some (some ([0], true, true))) := rfl
  obtain ⟨s, played, facts⟩ := Option.map_eq_some_iff.mp plays
  simp only [Prod.mk.injEq] at facts
  obtain ⟨accepted, answered⟩ := facts
  obtain ⟨t, takes, quiet⟩ := Option.map_eq_some_iff.mp answered
  obtain ⟨u, waits, facts⟩ := Option.map_eq_some_iff.mp quiet
  simp only [Prod.mk.injEq] at facts
  obtain ⟨saved, there, ends⟩ := facts
  obtain ⟨n, later⟩ := Option.isSome_iff_exists.mp there
  obtain ⟨v, ends⟩ := Option.isSome_iff_exists.mp ends
  obtain ⟨first, last, -, found, clean, -⟩ :=
    (fallback_iff Codec.demo_lawful rfl ⟨_, _, ⟨⟨rfl, rfl⟩, rfl⟩, .of_execute played⟩ takes accepted
      (.of_execute waits) later (Or.inl rfl) ends).mpr (by rw [saved]; decide)
  exact ⟨u, v, last, saved, ends, found, clean⟩

/-- An instance whose first request is accepted and whose second one runs into its timer
ends with an error, although it has just saved its data. -/
theorem fallback_fails : ∃ (s t u v : Accounts) (n : AccountManager),
    Reachable (step .demo) (fun _ _ => True) Fresh s ∧
    s.step .demo (.replyFinished 0 ⟨false, [], toBase64 Codec.demoJson⟩ 77) = some t ∧
    s.accepts .demo (.replyFinished 0 ⟨false, [], toBase64 Codec.demoJson⟩ 77) = true ∧
    Run (step .demo) (fun s e => s.accepts .demo e = false) t [.request 0, .requestTimeout 0] u ∧
    u.managers[0]? = some n ∧ n.requestTimeout = true ∧
    u.step .demo (.replyFinished 0 ⟨true, str "Operation canceled", []⟩ 5) = some v ∧
    ¬ ∃ first last, t.managers[0]? = some first ∧ v.managers[0]? = some last ∧
      last.error = .noError ∧ ∀ key, last.getValue .demo key = first.getValue .demo key := by
  have plays : (execute (step .demo) (fun _ _ => True) ⟨∅, [], []⟩
      [.create .noError, .setLogin 0 (str "l"), .setPassword 0 (str "p"), .request 0]).map
        (fun s => (s.accepts .demo (.replyFinished 0 ⟨false, [], toBase64 Codec.demoJson⟩ 77),
          (s.step .demo (.replyFinished 0 ⟨false, [], toBase64 Codec.demoJson⟩ 77)).map
            fun t => (execute (step .demo) (fun s e => s.accepts .demo e = false) t
              [.request 0, .requestTimeout 0]).map
                fun u => (u.managers[0]?.map (·.requestTimeout),
                  (u.step .demo (.replyFinished 0 ⟨true, str "Operation canceled", []⟩ 5)).map
                    fun v => v.managers[0]?.map (·.error)))) =
      some (true, some (some (some true, some (some .replyError)))) := rfl
  obtain ⟨s, played, facts⟩ := Option.map_eq_some_iff.mp plays
  simp only [Prod.mk.injEq] at facts
  obtain ⟨accepted, answered⟩ := facts
  obtain ⟨t, takes, quiet⟩ := Option.map_eq_some_iff.mp answered
  obtain ⟨u, waits, facts⟩ := Option.map_eq_some_iff.mp quiet
  simp only [Prod.mk.injEq] at facts
  obtain ⟨late, ended⟩ := facts
  obtain ⟨n, later, late⟩ := Option.map_eq_some_iff.mp late
  obtain ⟨v, ends, failed⟩ := Option.map_eq_some_iff.mp ended
  refine ⟨s, t, u, v, n, ⟨_, _, ⟨⟨rfl, rfl⟩, rfl⟩, .of_execute played⟩, takes, accepted,
    .of_execute waits, later, late, ends, ?_⟩
  rintro ⟨first, last, -, found, clean, -⟩
  rw [found, Option.map_some, clean] at failed
  cases failed

end MediaUpdater
