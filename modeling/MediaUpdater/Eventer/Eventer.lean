import MediaUpdater.Account.Offline

/-!
# `Eventer`

The event reporter learns the address of its server from the account data.  It asks once,
in its constructor; when the answer has no address, `dataUpdate` starts a timer that
calls `getServerUri` again after five minutes.  But `getServerUri` does nothing while
there is an account object, and nobody ever resets `account`: the timer fires in vain,
and the one request of the constructor is the only one.

## Main results

* `requests_of_run` — one account request is issued, whatever happens.
* `keepsTrying_iff` — the reporter keeps trying exactly when that request is accepted and
  each reply to it names an address.
-/

namespace MediaUpdater

open Library

/-- `Eventer`, with the shared file that its account works on. -/
structure Eventer where
  account : Option AccountManager
  serverUri : QString
  /-- The single-shot timers of `dataUpdate` that have not fired yet. -/
  retries : ℕ
  /-- `account.dat`. -/
  accountFile : StoreFile
  /-- How often `account->request()` has been called. -/
  requests : ℕ

/-- What happens to an `Eventer`. -/
inductive EventerEvent where
  /-- A timer fires, with the login and the password that the station has then. -/
  | retry (login password : QString) (uninitialised : AccountError)
  | requestTimeout
  | replyFinished (reply : NetworkReply) (randomChar : UInt8)
  /-- Another instance has written `account.dat`. -/
  | fileChanged (file : StoreFile)

namespace Eventer

section Model

variable (codec : Codec)

/-- `getLogin().toLocal8Bit().toBase64()`, and the same for the password. -/
def credential (text : QString) : QString := codec.fromUtf8 (toBase64 (codec.toLocal8Bit text))

/-- `Eventer::getServerUri`; the result of `request` is not looked at. -/
def getServerUri (s : Eventer) (login password : QString) (uninitialised : AccountError) :
    Eventer :=
  match s.account with
  | some _ => s
  | none =>
      let account := ((AccountManager.new codec uninitialised).setLogin
        (credential codec login)).setPassword (credential codec password)
      { s with account := some account.request.2, requests := s.requests + 1 }

/-- `Eventer::Eventer`. -/
def new (login password : QString) (uninitialised : AccountError) (file : StoreFile) : Eventer :=
  getServerUri codec
    { account := none, serverUri := [], retries := 0, accountFile := file, requests := 0 }
    login password uninitialised

/-- `Eventer::dataUpdate`. -/
def dataUpdate (s : Eventer) : Eventer :=
  match s.account with
  | none => s
  | some account =>
      let serverUri := account.getValue codec (str "ReportURI")
      { s with serverUri, retries := if serverUri = [] then s.retries + 1 else s.retries }

/-- `requestReady` is emitted at the end of `replyFinished`, and `dataUpdate` is its slot. -/
def step (s : Eventer) : EventerEvent → Option Eventer
  | .retry login password uninitialised =>
      if s.retries = 0 then none
      else some
        (getServerUri codec { s with retries := s.retries - 1 } login password uninitialised)
  | .requestTimeout =>
      (s.account.filter fun account => account.waiting && !account.requestTimeout).map
        fun account => { s with account := some account.onRequestTimeout }
  | .replyFinished reply randomChar =>
      (s.account.filter (·.waiting)).map fun account =>
        let finished := account.replyFinished codec s.accountFile reply randomChar
        dataUpdate codec { s with account := some finished.1, accountFile := finished.2 }
  | .fileChanged file => some { s with accountFile := file }

end Model

/-- An account request is in flight. -/
def InFlight (s : Eventer) : Prop := ∃ account ∈ s.account, account.waiting = true

/-- While the address is not known, a request is in flight, or a timer is pending that will
issue a new one. -/
def KeepsTrying (codec : Codec) (s : Eventer) : Prop :=
  s.serverUri = [] → s.InFlight ∨ 0 < s.retries ∧ ∀ login password uninitialised,
    (getServerUri codec s login password uninitialised).requests = s.requests + 1

/-- The request is answered with an address: if the event is the end of the reply, the
account data names it afterwards. -/
def Answers (codec : Codec) (s : Eventer) : EventerEvent → Prop
  | .replyFinished reply randomChar => ∀ account ∈ s.account,
      (account.replyFinished codec s.accountFile reply randomChar).1.getValue codec
        (str "ReportURI") ≠ []
  | _ => True

instance (codec : Codec) (s : Eventer) (e : EventerEvent) : Decidable (Answers codec s e) :=
  match e with
  | .replyFinished reply randomChar => inferInstanceAs (Decidable (∀ account ∈ s.account,
      (account.replyFinished codec s.accountFile reply randomChar).1.getValue codec
        (str "ReportURI") ≠ []))
  | .retry _ _ _ | .requestTimeout | .fileChanged _ => isTrue trivial

/-- There is an account, and the address is known or on its way. -/
structure Expecting (s : Eventer) : Prop where
  account : s.account.isSome
  expects : s.serverUri ≠ [] ∨ s.InFlight

variable {codec : Codec} {s t u : Eventer} {e : EventerEvent} {es : List EventerEvent}
variable {login password : QString} {uninitialised : AccountError} {file : StoreFile}

/-- **With an account there is nothing to do.** -/
theorem getServerUri_of_account (known : s.account.isSome) :
    getServerUri codec s login password uninitialised = s := by
  obtain ⟨account, known⟩ := Option.isSome_iff_exists.mp known
  unfold getServerUri
  rw [known]

/-- **What a step can do.**  No step issues a request: it leaves the account alone, or lets
its timer fire, or lets it take its reply. -/
theorem step_cases (known : s.account.isSome) (takes : step codec s e = some t) :
    (t.account = s.account ∧ t.serverUri = s.serverUri ∧ t.requests = s.requests ∧
        Answers codec s e) ∨
      (∃ account, s.account = some account ∧ account.waiting = true ∧
        t = { s with account := some account.onRequestTimeout } ∧ Answers codec s e) ∨
      ∃ account reply randomChar, s.account = some account ∧ account.waiting = true ∧
        e = .replyFinished reply randomChar ∧
        t.account = some (account.replyFinished codec s.accountFile reply randomChar).1 ∧
        t.serverUri = (account.replyFinished codec s.accountFile reply randomChar).1.getValue codec
          (str "ReportURI") ∧ t.requests = s.requests := by
  cases e with
  | retry login password uninitialised =>
      rw [step, Option.ite_none_left_eq_some] at takes
      obtain rfl := Option.some.inj takes.2
      rw [getServerUri_of_account (by exact known)]
      exact .inl ⟨rfl, rfl, rfl, trivial⟩
  | requestTimeout =>
      obtain ⟨account, runs, rfl⟩ := Option.map_eq_some_iff.mp takes
      obtain ⟨found, runs⟩ := Option.filter_eq_some_iff.mp runs
      rw [Bool.and_eq_true] at runs
      exact .inr (.inl ⟨account, found, runs.1, rfl, trivial⟩)
  | replyFinished reply randomChar =>
      obtain ⟨account, runs, rfl⟩ := Option.map_eq_some_iff.mp takes
      obtain ⟨found, waiting⟩ := Option.filter_eq_some_iff.mp runs
      exact .inr (.inr ⟨account, reply, randomChar, found, waiting, rfl, rfl, rfl, rfl⟩)
  | fileChanged file =>
      obtain rfl := Option.some.inj takes
      exact .inl ⟨rfl, rfl, rfl, trivial⟩

/-- There is an account after the constructor. -/
theorem account_new : (new codec login password uninitialised file).account.isSome := rfl

theorem account_step (known : s.account.isSome) (takes : step codec s e = some t) :
    t.account.isSome ∧ t.requests = s.requests := by
  obtain ⟨same, -, count, -⟩ | ⟨account, -, -, rfl, -⟩ | ⟨account, reply, randomChar, -, -, -, same,
    -, count⟩ :=
    step_cases known takes
  · exact ⟨same ▸ known, count⟩
  · exact ⟨rfl, rfl⟩
  · exact ⟨by rw [same]; rfl, count⟩

/-- **One account request is issued in the life of an `Eventer`**: that of its constructor. -/
theorem requests_of_run
    (run : Run (step codec) (fun _ _ => True) (new codec login password uninitialised file) es u) :
    u.account.isSome ∧ u.requests = 1 := by
  refine run.invariant (fun s => s.account.isSome ∧ s.requests = 1) ?_ ⟨account_new, rfl⟩
  intro s e t ⟨known, count⟩ _ takes
  have kept := account_step known takes
  exact ⟨kept.1, kept.2.trans count⟩

/-- With an account the reporter keeps trying only while it expects an answer. -/
theorem expecting_of_keepsTrying (known : s.account.isSome) (tries : s.KeepsTrying codec) :
    s.Expecting := by
  refine ⟨known, ?_⟩
  by_cases empty : s.serverUri = []
  · refine .inr ((tries empty).resolve_right ?_)
    rintro ⟨-, issues⟩
    have again := issues [] [] .noError
    rw [getServerUri_of_account known] at again
    omega
  · exact .inl empty

theorem Expecting.keepsTrying (codec : Codec) (expecting : s.Expecting) : s.KeepsTrying codec :=
  fun empty => .inl (expecting.expects.resolve_left fun nonempty => nonempty empty)

/-- An answer with an address keeps the expectation, … -/
theorem Expecting.step (expecting : s.Expecting) (answers : Answers codec s e)
    (takes : Eventer.step codec s e = some t) : t.Expecting := by
  obtain ⟨same, uri, -, -⟩ | ⟨account, found, waiting, rfl, -⟩ |
    ⟨account, reply, randomChar, found, -, rfl, same, uri, -⟩ := step_cases expecting.account takes
  · refine ⟨same ▸ expecting.account, ?_⟩
    rw [InFlight, same, uri]
    exact expecting.expects
  · exact ⟨rfl, .inr ⟨_, rfl, waiting⟩⟩
  · refine ⟨by rw [same]; rfl, .inl ?_⟩
    rw [uri]
    exact answers account found

/-- … and an answer without one ends it. -/
theorem Expecting.step_fails (expecting : s.Expecting) (fails : ¬ Answers codec s e)
    (takes : Eventer.step codec s e = some t) : ¬ t.KeepsTrying codec := by
  intro tries
  have known := (account_step expecting.account takes).1
  obtain ⟨-, -, -, answers⟩ | ⟨-, -, -, -, answers⟩ |
    ⟨account, reply, randomChar, found, -, rfl, same, uri, -⟩ := step_cases expecting.account takes
  · exact fails answers
  · exact fails answers
  · rcases (expecting_of_keepsTrying known tries).expects with named | ⟨other, there, waiting⟩
    · refine fails fun account' found' => ?_
      obtain rfl := Option.some.inj (found.symm.trans found')
      exact uri ▸ named
    · obtain rfl := Option.some.inj (same.symm.trans there)
      rw [AccountManager.waiting_replyFinished] at waiting
      cases waiting

/-- From a state that expects an answer on, the condition on the replies is exact. -/
theorem Expecting.always_tries_iff (expecting : s.Expecting)
    (run : Run (Eventer.step codec) (fun _ _ => True) s es u) :
    (∀ fs t, fs <+: es → Run (Eventer.step codec) (fun _ _ => True) s fs t → t.KeepsTrying codec) ↔
      Run (Eventer.step codec) (Answers codec) s es u :=
  run.always_iff (fun _ (start : Expecting _) => start.keepsTrying codec)
    (fun _ _ _ start answers takes => start.step answers takes)
    (fun _ _ _ start fails takes => start.step_fails fails takes) expecting

/-- The constructor expects an answer when its request is accepted. -/
theorem expecting_new : (new codec login password uninitialised file).Expecting ↔
    credential codec login ≠ [] ∧ credential codec password ≠ [] := by
  have asked : (new codec login password uninitialised file).InFlight ↔
      credential codec login ≠ [] ∧ credential codec password ≠ [] := by
    have idle :
      (((AccountManager.new codec uninitialised).setLogin (credential codec login)).setPassword
        (credential codec password)).waiting = false := rfl
    constructor
    · rintro ⟨account, found, waiting⟩
      obtain rfl := Option.some.inj found
      exact (AccountManager.waiting_request idle).mp waiting
    · intro named
      exact ⟨_, rfl, (AccountManager.waiting_request idle).mpr named⟩
  rw [← asked]
  constructor
  · intro expecting
    exact expecting.expects.resolve_left fun named => named rfl
  · intro inFlight
    exact ⟨account_new, .inr inFlight⟩

/-- **When the reporter keeps trying.**  In every state of a run it waits for an answer, or
has a timer that will issue a new request, exactly when the request of the constructor is
accepted and every reply of the run names an address. -/
theorem keepsTrying_iff
    (run : Run (step codec) (fun _ _ => True) (new codec login password uninitialised file) es u) :
    (∀ fs t, fs <+: es →
      Run (step codec) (fun _ _ => True) (new codec login password uninitialised file) fs t →
        t.KeepsTrying codec) ↔
    (credential codec login ≠ [] ∧ credential codec password ≠ []) ∧
      Run (step codec) (Answers codec) (new codec login password uninitialised file) es u := by
  constructor
  · intro always
    have start := expecting_of_keepsTrying account_new
      (always [] _ (List.nil_prefix) (.nil _))
    exact ⟨expecting_new.mp start, (start.always_tries_iff run).mp always⟩
  · rintro ⟨accepted, answered⟩
    exact ((expecting_new.mpr accepted).always_tries_iff run).mpr answered

/-! ### Concrete runs -/

/-- An answer with an address. -/
def reportJson : QByteArray := ascii "\x7b\"ReportURI\":\"u\"\x7d"

/-- The conversions of the concrete runs, with the parse of that answer. -/
def reportCodec : Codec :=
  { Codec.demo with
    fromJson := fun bytes =>
      if bytes = reportJson then .ok (.object [(str "ReportURI", .string (str "u"))])
      else Codec.demo.fromJson bytes }

/-- The server answers with an address. -/
theorem keepsTrying_demo : ∃ u : Eventer, u.serverUri = str "u" ∧ u.KeepsTrying reportCodec ∧
    Run (step reportCodec) (fun _ _ => True) (new reportCodec (str "l") (str "p") .noError ∅)
      [.replyFinished ⟨false, [], toBase64 reportJson⟩ 77] u := by
  have plays : (execute (step reportCodec) (Answers reportCodec)
      (new reportCodec (str "l") (str "p") .noError ∅)
      [.replyFinished ⟨false, [], toBase64 reportJson⟩ 77]).map (·.serverUri) = some (str "u") := by
    decide
  obtain ⟨u, played, named⟩ := Option.map_eq_some_iff.mp plays
  have answered := Run.of_execute played
  have run := answered.mono fun _ _ _ => trivial
  exact ⟨u, named, (keepsTrying_iff run).mpr ⟨by decide, answered⟩ _ u (List.prefix_refl _) run,
    run⟩

/-- The server answers without an address: the timer will fire, but ask nobody. -/
theorem keepsTrying_fails : ∃ u : Eventer, u.retries = 1 ∧ ¬ u.KeepsTrying .demo ∧
    Run (step .demo) (fun _ _ => True) (new .demo (str "l") (str "p") .noError ∅)
      [.replyFinished ⟨false, [], toBase64 Codec.demoJson⟩ 77] u := by
  have plays : (execute (step .demo) (fun _ _ => True) (new .demo (str "l") (str "p") .noError ∅)
      [.replyFinished ⟨false, [], toBase64 Codec.demoJson⟩ 77]).map
        (fun u => (u.retries, u.serverUri, u.account.map (·.waiting))) =
      some (1, [], some false) := by
    decide
  obtain ⟨u, played, facts⟩ := Option.map_eq_some_iff.mp plays
  simp only [Prod.mk.injEq] at facts
  obtain ⟨timer, empty, idle⟩ := facts
  obtain ⟨account, known, idle⟩ := Option.map_eq_some_iff.mp idle
  refine ⟨u, timer, fun tries => ?_, .of_execute played⟩
  have expecting := expecting_of_keepsTrying (by rw [known]; rfl) tries
  obtain ⟨other, found, waiting⟩ := expecting.expects.resolve_left fun named => named empty
  obtain rfl := Option.some.inj (known.symm.trans found)
  rw [idle] at waiting
  cases waiting

end Eventer

end MediaUpdater
