import MediaUpdater.Account.Offline

/-!
# The key of `account.dat`

`getHash` hands the twenty raw bytes of a SHA-1 digest to `QByteArray::toULongLong`,
which reads decimal text.  A digest is hardly ever a decimal number, and then the number
is 0, whatever the configured key is: `account.dat` is encrypted with the key 0, and
anybody can decrypt it.
-/

namespace MediaUpdater

/-- The byte can begin the text of a number: a digit, a sign or white space. -/
def BeginsNumber (byte : UInt8) : Prop :=
  48 ≤ byte ∧ byte ≤ 57 ∨ byte = 43 ∨ byte = 45 ∨ byte = 32 ∨ 9 ≤ byte ∧ byte ≤ 13

instance (byte : UInt8) : Decidable (BeginsNumber byte) :=
  inferInstanceAs (Decidable (_ ∨ _))

/-- `QByteArray::toULongLong` reads decimal text, and is 0 when there is none. -/
def Codec.ReadsDecimal (codec : Codec) : Prop :=
  ∀ bytes, (∀ byte ∈ bytes.head?, ¬ BeginsNumber byte) → codec.toULongLong bytes = 0

variable {codec : Codec} {account : AccountManager} {file : StoreFile} {json : QByteArray}
variable {encryptionKey : QString} {randomChar : UInt8}

/-- The key of the cipher does not depend on the configured key. -/
theorem SettingsStore.crypt_new (decimal : codec.ReadsDecimal)
    (digest : ∀ byte ∈ (codec.sha1 (toLatin1 encryptionKey)).head?, ¬ BeginsNumber byte) :
    (SettingsStore.new codec encryptionKey).crypt = .ofKey 0 :=
  congrArg SimpleCrypt.ofKey (decimal _ digest)

/-- What `saveCache` stores: the encrypted base64 text of the document. -/
theorem AccountManager.saveCache_stored (account : AccountManager) (file : StoreFile) :
    (account.saveCache codec file randomChar json).2.lookup (str "login/prefs") =
      some (account.localConnect.crypt.encryptToString codec randomChar
        (codec.fromUtf8 (toBase64 json))) :=
  AList.lookup_insert _

/-- **The configured key protects nothing**: the key 0 decrypts what `saveCache` stores. -/
theorem saveCache_unprotected (lawful : codec.Lawful) (decimal : codec.ReadsDecimal)
    (digest : ∀ byte ∈ (codec.sha1 (toLatin1 encryptionKey)).head?, ¬ BeginsNumber byte)
    (built : account.localConnect.crypt = (SettingsStore.new codec encryptionKey).crypt) :
    ∃ stored,
      (account.saveCache codec file randomChar json).2.lookup (str "login/prefs") = some stored ∧
        (SimpleCrypt.ofKey 0).decryptToString codec stored = codec.fromUtf8 (toBase64 json) := by
  refine ⟨_, account.saveCache_stored file, ?_⟩
  rw [built, SettingsStore.crypt_new decimal digest,
    SimpleCrypt.decryptToString_encryptToString lawful (SimpleCrypt.keyParts_ofKey 0),
    lawful.toUtf8_fromUtf8 _ (ascii_toBase64 json)]

/-- The digest of the key of the program begins with no number. -/
theorem demo_digest (byte : UInt8)
    (first : byte ∈ (Codec.demo.sha1 (toLatin1 AccountManager.encryptionKey)).head?) :
    ¬ BeginsNumber byte := by
  obtain rfl : 209 = byte := Option.some.inj first
  decide

/-- The key of the program, and the answer of the concrete run. -/
theorem saveCache_unprotected_demo : ∃ stored,
    ((AccountManager.new .demo .noError).saveCache .demo ∅ 77 Codec.demoJson).2.lookup
        (str "login/prefs") = some stored ∧
      (SimpleCrypt.ofKey 0).decryptToString .demo stored =
        Codec.demo.fromUtf8 (toBase64 Codec.demoJson) :=
  saveCache_unprotected Codec.demo_lawful (fun _ _ => rfl) demo_digest rfl

/-- There the key 0 returns the stored text. -/
theorem saveCache_protected_fails :
    (∀ byte ∈ (Codec.demo.sha1 (toLatin1 AccountManager.encryptionKey)).head?,
      ¬ BeginsNumber byte) ∧
    ¬ ∀ stored, ((AccountManager.new .demo .noError).saveCache .demo ∅ 77 Codec.demoJson).2.lookup
        (str "login/prefs") = some stored →
      (SimpleCrypt.ofKey 0).decryptToString .demo stored ≠
        Codec.demo.fromUtf8 (toBase64 Codec.demoJson) := by
  refine ⟨demo_digest, fun protected_ => ?_⟩
  exact protected_ _ (AccountManager.saveCache_stored _ _) (by decide)

end MediaUpdater
