import MediaUpdater.Account.SettingsStore

/-!
# `AccountManager`

An instance asks the account server for the data of the box.  `request` clears
what it has and starts a reply; `replyFinished` takes the reply, saves an accepted
one in `account.dat`, and falls back on that file when the reply is a network
error or came too late.

`Sound` is what every instance keeps over its life.  The other results compare two
instances: `parseJson_congr` (what `parseJson` leaves depends only on the data and
the error it found) and `tryLoadCache_saveCache` (an instance that has saved nothing
loads what another one saved).
-/

namespace MediaUpdater

/-- `AccountManager::ERRORS`. -/
inductive AccountError where
  | noError
  | replyError
  | parseJsonError
  | answerJsonError
  | loginPasswordError
  | replyIsEmpty
  deriving DecidableEq, Repr

/-- A finished `QNetworkReply`. -/
structure NetworkReply where
  /-- `error() != QNetworkReply::NoError`. -/
  failed : Bool
  /-- `errorString()`. -/
  errorString : QString
  /-- `readAll()`. -/
  data : QByteArray
  deriving DecidableEq

/-- `AccountManager`. -/
structure AccountManager where
  /-- `localConnect`. -/
  localConnect : SettingsStore
  /-- `mLastError`. -/
  lastError : QString
  /-- `mJsonData`. -/
  jsonData : AList fun _ : QString => QString
  /-- `mLogin`. -/
  login : QString
  /-- `mPassword`. -/
  password : QString
  /-- `mError`. -/
  error : AccountError
  /-- `mRequestTimeout`. -/
  requestTimeout : Bool
  /-- A reply is on its way: `mCurrentReply` has not finished. -/
  waiting : Bool

namespace AccountManager

/-- `ENCRYPTION_KEY`. -/
def encryptionKey : QString := str "lmHar01lov410l"

section Model

variable (codec : Codec) (account : AccountManager) (file : StoreFile)

/-- `AccountManager::AccountManager`; it leaves `mError` uninitialised. -/
def new (uninitialised : AccountError) : AccountManager where
  localConnect := .new codec encryptionKey
  lastError := []
  jsonData := ∅
  login := []
  password := []
  error := uninitialised
  requestTimeout := false
  waiting := false

/-- `AccountManager::setLogin`. -/
def setLogin (login : QString) : AccountManager := { account with login }

/-- `AccountManager::setPassword`. -/
def setPassword (pass : QString) : AccountManager := { account with password := pass }

/-- `AccountManager::request`. -/
def request : Bool × AccountManager :=
  let account := { account with jsonData := ∅, requestTimeout := false, error := .noError }
  if account.login = [] ∨ account.password = [] then
    (false, { account with
      lastError := str "Login or password is empty."
      error := .loginPasswordError })
  else (true, { account with waiting := true })

/-- `AccountManager::requestTimeout`: the reply is aborted, so it will finish. -/
def onRequestTimeout : AccountManager := { account with requestTimeout := true }

/-- The object that `parseJson` reads: the first value of a non-empty array, or
the document itself. -/
def jsonObject (document : QJsonDocument) : QJsonObject :=
  match document.toArray with
  | [] => document.toObject
  | value :: _ => value.toObject

/-- `mJsonData` with the members of an object entered in it. -/
def enter (data : AList fun _ : QString => QString) (object : QJsonObject) :
    AList fun _ : QString => QString :=
  object.keys.foldl (fun data key => data.insert (codec.toLower key) (object.value key).toString)
    data

/-- `AccountManager::parseJson`. -/
def parseJson (json : QByteArray) : AccountManager :=
  match codec.fromJson json with
  | .error text =>
      { account with lastError := str "Parse JSON error: " ++ text, error := .parseJsonError }
  | .ok document =>
      let jsonData := enter codec account.jsonData (jsonObject document)
      match jsonData.lookup (str "error") with
      | some text => { account with jsonData, lastError := text, error := .answerJsonError }
      | none => { account with jsonData }

/-- `AccountManager::saveCache`. -/
def saveCache (randomChar : UInt8) (json : QByteArray) : AccountManager × StoreFile :=
  let store := account.localConnect.setGroupKey (str "login")
  ({ account with localConnect := store },
    store.setValue codec file randomChar (str "prefs") (codec.fromUtf8 (toBase64 json)))

/-- `AccountManager::tryLoadCache`. -/
def tryLoadCache : QByteArray :=
  fromBase64 (codec.toLocal8Bit (account.localConnect.value codec file (str "login/prefs") []))

/-- `AccountManager::replyFinished`, where `randomChar` is the random byte of an
encryption. -/
def replyFinished (reply : NetworkReply) (randomChar : UInt8) : AccountManager × StoreFile :=
  let account := { account with waiting := false }
  if !reply.failed && !account.requestTimeout then
    if reply.data = [] then
      ({ account with
        lastError := str "WARNING: Server answer is empty."
        error := .replyIsEmpty }, file)
    else
      let decodeString := fromBase64 reply.data
      let parsed := account.parseJson codec decodeString
      if parsed.error = .noError then parsed.saveCache codec file randomChar decodeString
      else (parsed, file)
  else
    let decodeString := account.tryLoadCache codec file
    if decodeString = [] then
      ({ account with
        lastError := str "WARNING: Cache is empty. ReplyError:" ++ reply.errorString
        error := .replyError }, file)
    else (account.parseJson codec decodeString, file)

/-- `AccountManager::getValue`; the null string is empty. -/
def getValue (key : QString) : QString := (account.jsonData.lookup (codec.toLower key)).getD []

/-- The instance accepts a reply: it is in time, no network error, and leaves
`error() == NoError`. -/
def accepts (reply : NetworkReply) (randomChar : UInt8) : Bool :=
  !reply.failed && !account.requestTimeout &&
    (account.replyFinished codec file reply randomChar).1.error = .noError

/-- What an instance keeps over its life, where `saved` says that it has accepted a
reply. -/
structure Sound (saved : Prop) : Prop where
  /-- All instances encrypt with one key. -/
  crypt : account.localConnect.crypt = .ofKey (SettingsStore.getHash codec encryptionKey)
  /-- A reply finds neither data nor an error. -/
  clear : account.waiting = true → account.jsonData = ∅ ∧ account.error = .noError
  /-- Only `saveCache` sets a group key. -/
  groupKey : ¬ saved → account.localConnect.groupKey = []

end Model

variable {codec : Codec} {account other : AccountManager} {file : StoreFile}
variable {reply : NetworkReply} {randomChar : UInt8} {json : QByteArray} {saved : Prop}

/-! ### Parsing -/

@[simp] theorem localConnect_parseJson :
    (account.parseJson codec json).localConnect = account.localConnect := by
  unfold parseJson
  split
  · rfl
  · simp only
    split <;> rfl

@[simp] theorem waiting_parseJson :
    (account.parseJson codec json).waiting = account.waiting := by
  unfold parseJson
  split
  · rfl
  · simp only
    split <;> rfl

theorem localConnect_request : account.request.2.localConnect = account.localConnect := by
  unfold request
  simp only
  split <;> rfl

/-- An idle instance waits for a reply after a request when it has a login and a password. -/
theorem waiting_request (idle : account.waiting = false) :
    account.request.2.waiting = true ↔ account.login ≠ [] ∧ account.password ≠ [] := by
  unfold request
  by_cases empty : account.login = [] ∨ account.password = []
  · simp only [if_pos empty, idle, Bool.false_eq_true, false_iff]
    tauto
  · simp only [if_neg empty, true_iff]
    tauto

/-- What `parseJson` leaves depends on the data and the error that it finds. -/
theorem parseJson_congr (codec : Codec) (json : QByteArray) (account other : AccountManager)
    (sameData : account.jsonData = other.jsonData)
    (sameError : account.error = other.error) :
    (account.parseJson codec json).jsonData = (other.parseJson codec json).jsonData ∧
      (account.parseJson codec json).error = (other.parseJson codec json).error := by
  unfold parseJson
  rw [sameData]
  split
  · exact ⟨rfl, rfl⟩
  · simp only
    split
    · exact ⟨rfl, rfl⟩
    · exact ⟨rfl, sameError⟩

/-- The empty text is no JSON document. -/
theorem parseJson_nil (lawful : codec.Lawful) : (account.parseJson codec []).error ≠ .noError := by
  obtain ⟨text, fails⟩ := lawful.fromJson_nil
  rw [parseJson, fails]
  simp

/-! ### The file -/

/-- **An instance that has saved nothing loads what another one saved.** -/
theorem tryLoadCache_saveCache (lawful : codec.Lawful)
    (crypt : account.localConnect.crypt = .ofKey (SettingsStore.getHash codec encryptionKey))
    (fresh : other.Sound codec False) :
    other.tryLoadCache codec (account.saveCache codec file randomChar json).2 = json := by
  have keyed : (account.localConnect.setGroupKey (str "login")).crypt.keyParts ≠ [] := by
    rw [SettingsStore.setGroupKey, crypt]
    exact SimpleCrypt.keyParts_ofKey _
  have sameCrypt : other.localConnect.crypt =
      (account.localConnect.setGroupKey (str "login")).crypt :=
    fresh.crypt.trans crypt.symm
  have sameKey : other.localConnect.fullKey (str "login/prefs") =
      (account.localConnect.setGroupKey (str "login")).fullKey (str "prefs") := by
    rw [SettingsStore.fullKey, if_pos (fresh.groupKey not_false)]
    rfl
  have text := ascii_toBase64 json
  rw [tryLoadCache, saveCache, SettingsStore.value_setValue lawful keyed sameCrypt sameKey,
    lawful.toUtf8_fromUtf8 _ text, lawful.toLocal8Bit_fromUtf8 _ text, fromBase64_toBase64]

/-! ### A reply -/

/-- **An accepted reply** is parsed and saved. -/
theorem replyFinished_of_accepts (accepted : account.accepts codec file reply randomChar = true) :
    let parsed := { account with waiting := false }.parseJson codec (fromBase64 reply.data)
    account.replyFinished codec file reply randomChar =
        parsed.saveCache codec file randomChar (fromBase64 reply.data) ∧
      parsed.error = .noError := by
  rw [accepts, Bool.and_eq_true, decide_eq_true_eq] at accepted
  obtain ⟨inTime, clean⟩ := accepted
  unfold replyFinished at clean ⊢
  simp only [inTime, if_true] at clean ⊢
  split at clean
  · simp at clean
  · next nonempty =>
    split at clean
    · next parsed =>
      rw [if_neg nonempty, if_pos parsed]
      exact ⟨rfl, parsed⟩
    · next failed => exact absurd clean failed

/-- A reply that is not accepted leaves the file and the store. -/
theorem replyFinished_of_not_accepts
    (rejected : account.accepts codec file reply randomChar = false) :
    (account.replyFinished codec file reply randomChar).2 = file ∧
      (account.replyFinished codec file reply randomChar).1.localConnect =
        account.localConnect := by
  unfold accepts at rejected
  unfold replyFinished at rejected ⊢
  simp only at rejected ⊢
  split
  · next inTime =>
    rw [if_pos inTime, inTime, Bool.true_and, decide_eq_false_iff_not] at rejected
    split
    · exact ⟨rfl, rfl⟩
    · next nonempty =>
      rw [if_neg nonempty] at rejected
      split
      · next parsed =>
        rw [if_pos parsed] at rejected
        exact absurd parsed rejected
      · exact ⟨rfl, localConnect_parseJson⟩
  · split
    · exact ⟨rfl, rfl⟩
    · exact ⟨rfl, localConnect_parseJson⟩

/-- **A reply without an answer** falls back on the file. -/
theorem replyFinished_offline (offline : reply.failed = true ∨ account.requestTimeout = true)
    (cached : account.tryLoadCache codec file ≠ []) :
    (account.replyFinished codec file reply randomChar).1 =
      { account with waiting := false }.parseJson codec (account.tryLoadCache codec file) := by
  have failed : (!reply.failed && !account.requestTimeout) = false := by
    rcases offline with failed | late
    · simp [failed]
    · simp [late]
  unfold replyFinished
  simp only [failed, Bool.false_eq_true, if_false]
  exact (congrArg Prod.fst (if_neg cached)).trans rfl

@[simp] theorem waiting_replyFinished :
    (account.replyFinished codec file reply randomChar).1.waiting = false := by
  unfold replyFinished
  simp only
  split
  · split
    · rfl
    · split
      · exact waiting_parseJson
      · exact waiting_parseJson
  · split
    · rfl
    · exact waiting_parseJson

/-! ### Soundness -/

theorem sound_new (uninitialised : AccountError) : (new codec uninitialised).Sound codec saved where
  crypt := rfl
  clear waiting := absurd waiting (by simp [new])
  groupKey _ := rfl

theorem Sound.mono {saved' : Prop} (sound : account.Sound codec saved) (weaker : saved → saved') :
    account.Sound codec saved' where
  crypt := sound.crypt
  clear := sound.clear
  groupKey unsaved := sound.groupKey fun was => unsaved (weaker was)

/-- A request starts a reply with neither data nor an error. -/
theorem Sound.request (sound : account.Sound codec saved) (idle : account.waiting = false) :
    account.request.2.Sound codec saved := by
  unfold AccountManager.request
  simp only
  split
  · exact ⟨sound.crypt, fun waiting => absurd waiting (by simp [idle]), sound.groupKey⟩
  · exact ⟨sound.crypt, fun _ => ⟨rfl, rfl⟩, sound.groupKey⟩

theorem Sound.replyFinished (sound : account.Sound codec saved) :
    (account.replyFinished codec file reply randomChar).1.Sound codec
      (saved ∨ account.accepts codec file reply randomChar = true) := by
  have settled : (account.replyFinished codec file reply randomChar).1.waiting = true → False := by
    simp
  by_cases accepted : account.accepts codec file reply randomChar = true
  · refine ⟨?_, fun waiting => (settled waiting).elim,
      fun unsaved => (unsaved (Or.inr accepted)).elim⟩
    rw [(replyFinished_of_accepts accepted).1]
    exact (congrArg SettingsStore.crypt localConnect_parseJson).trans sound.crypt
  · have kept := (replyFinished_of_not_accepts (Bool.eq_false_iff.mpr accepted)).2
    refine ⟨?_, fun waiting => (settled waiting).elim, fun unsaved => ?_⟩
    · rw [kept]
      exact sound.crypt
    · rw [kept]
      exact sound.groupKey fun was => unsaved (Or.inl was)

/-- **An instance that has saved nothing falls back on what another one saved**: it ends
without an error and with the values of the accepted reply. -/
theorem replyFinished_fallback (lawful : codec.Lawful) (sound : account.Sound codec saved)
    (waiting : account.waiting = true)
    (accepted : account.accepts codec file reply randomChar = true)
    (fresh : other.Sound codec False) (waiting' : other.waiting = true) {reply' : NetworkReply}
    (offline : reply'.failed = true ∨ other.requestTimeout = true) (randomChar' : UInt8) :
    let first := account.replyFinished codec file reply randomChar
    let last := (other.replyFinished codec first.2 reply' randomChar').1
    last.error = .noError ∧ ∀ key, last.getValue codec key = first.1.getValue codec key := by
  intro first last
  obtain ⟨saves, clean⟩ := replyFinished_of_accepts accepted
  have loads : other.tryLoadCache codec first.2 = fromBase64 reply.data := by
    show other.tryLoadCache codec (account.replyFinished codec file reply randomChar).2 = _
    rw [saves]
    exact tryLoadCache_saveCache lawful
      ((congrArg SettingsStore.crypt localConnect_parseJson).trans sound.crypt) fresh
  have nonempty : other.tryLoadCache codec first.2 ≠ [] := by
    rw [loads]
    intro empty
    rw [empty] at clean
    exact parseJson_nil lawful clean
  have ended : last = { other with waiting := false }.parseJson codec (fromBase64 reply.data) := by
    show (other.replyFinished codec first.2 reply' randomChar').1 = _
    rw [replyFinished_offline offline nonempty, loads]
  -- both parse the same text, starting from nothing
  obtain ⟨noData, noError⟩ := sound.clear waiting
  obtain ⟨noData', noError'⟩ := fresh.clear waiting'
  obtain ⟨sameData, sameError⟩ := parseJson_congr codec (fromBase64 reply.data)
    { other with waiting := false } { account with waiting := false } (noData'.trans noData.symm)
    (noError'.trans noError.symm)
  refine ⟨?_, fun key => ?_⟩
  · rw [ended, sameError]
    exact clean
  · show last.getValue codec key =
      (account.replyFinished codec file reply randomChar).1.getValue codec key
    rw [getValue, getValue, ended, saves, sameData]
    rfl

end AccountManager

end MediaUpdater
