import MediaUpdater.Account.SimpleCrypt
import Mathlib.Data.List.AList

/-!
# `SettingsStore`

The values of an INI file, encrypted.  A store prefixes every key with its group
key, unless that is empty; the group key belongs to the store object, the file to
all the stores that open it.
-/

namespace MediaUpdater

/-- The INI file of a store, as `QSettings` keeps it. -/
abbrev StoreFile := AList fun _ : QString => QString

/-- `SettingsStore`. -/
structure SettingsStore where
  /-- `groupKey_`. -/
  groupKey : QString
  /-- `crypt_`. -/
  crypt : SimpleCrypt

namespace SettingsStore

section Model

variable (codec : Codec) (store : SettingsStore) (file : StoreFile)

/-- `getHash`. -/
def getHash (encryptionKey : QString) : UInt64 :=
  codec.toULongLong (codec.sha1 (toLatin1 encryptionKey))

/-- `SettingsStore::SettingsStore`. -/
def new (encryptionKey : QString) : SettingsStore where
  groupKey := []
  crypt := .ofKey (getHash codec encryptionKey)

/-- `SettingsStore::setGroupKey`. -/
def setGroupKey (groupKey : QString) : SettingsStore := { store with groupKey }

/-- `fullKey`. -/
def fullKey (key : QString) : QString :=
  if store.groupKey = [] then key else store.groupKey ++ str "/" ++ key

/-- `SettingsStore::value`. -/
def value (key defaultValue : QString) : QString :=
  match file.lookup (store.fullKey key) with
  | none => defaultValue
  | some cypher => store.crypt.decryptToString codec cypher

/-- `SettingsStore::setValue`. -/
def setValue (randomChar : UInt8) (key val : QString) : StoreFile :=
  file.insert (store.fullKey key) (store.crypt.encryptToString codec randomChar val)

end Model

variable {codec : Codec} {writer reader : SettingsStore} {file : StoreFile}

/-- **A store reads what another one wrote** under the same full key with the same
key of encryption. -/
theorem value_setValue (lawful : codec.Lawful) (keyed : writer.crypt.keyParts ≠ [])
    (sameCrypt : reader.crypt = writer.crypt) {key key' : QString}
    (sameKey : reader.fullKey key' = writer.fullKey key) (randomChar : UInt8)
    (val defaultValue : QString) :
    reader.value codec (writer.setValue codec file randomChar key val) key' defaultValue =
      codec.fromUtf8 (codec.toUtf8 val) := by
  rw [value, setValue, sameKey, AList.lookup_insert, sameCrypt]
  exact SimpleCrypt.decryptToString_encryptToString lawful keyed randomChar val

end SettingsStore

end MediaUpdater
