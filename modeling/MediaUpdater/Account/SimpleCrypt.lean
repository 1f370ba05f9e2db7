import MediaUpdater.Library.Feedback
import MediaUpdater.Qt.Codec

/-!
# `SimpleCrypt`

A cypher text is a version byte, a byte of flags, and the encryption of a random
byte, of the integrity protection and of the possibly compressed data.  Each byte
is combined with one of the eight bytes of the key and with the encrypted byte
before it.

An operation that fails returns the empty array and sets `m_lastError`; here it
returns the error.

## Main results

* `decryptToByteArray_encryptToByteArray` — in every compression and protection
  mode, decryption undoes encryption, whatever the random byte.
* `decryptToString_encryptToString` — the same for text.
-/

namespace MediaUpdater

open Library

namespace SimpleCrypt

/-- `SimpleCrypt::CompressionMode`. -/
inductive CompressionMode where
  /-- Compress only when that makes the data shorter. -/
  | auto
  | always
  | never
  deriving DecidableEq, Repr

/-- `SimpleCrypt::IntegrityProtectionMode`. -/
inductive IntegrityProtectionMode where
  | none
  | checksum
  | hash
  deriving DecidableEq, Repr

/-- `SimpleCrypt::Error`, without `ErrorNoError`. -/
inductive Error where
  | noKeySet
  | unknownVersion
  | integrityFailed
  deriving DecidableEq, Repr

end SimpleCrypt

/-- `SimpleCrypt`. -/
structure SimpleCrypt where
  /-- `m_keyParts`; empty when no key is set. -/
  keyParts : List UInt8
  compressionMode : SimpleCrypt.CompressionMode
  protectionMode : SimpleCrypt.IntegrityProtectionMode

namespace SimpleCrypt

/-- `SimpleCrypt::splitKey`: the bytes of the key, the lowest first. -/
def splitKey (key : UInt64) : List UInt8 :=
  (List.range 8).map fun i => ((fun part => part >>> (8 : UInt64))^[i] key &&& 0xff).toUInt8

/-- `SimpleCrypt::SimpleCrypt(quint64)`. -/
def ofKey (key : UInt64) : SimpleCrypt where
  keyParts := splitKey key
  compressionMode := .auto
  protectionMode := .checksum

/-! ### The flags -/

/-- `CryptoFlagCompression`. -/
def flagCompression : UInt8 := 0x01

/-- `CryptoFlagChecksum`. -/
def flagChecksum : UInt8 := 0x02

/-- `CryptoFlagHash`. -/
def flagHash : UInt8 := 0x04

/-- `QFlags::testFlag`. -/
def testFlag (flags flag : UInt8) : Bool := flags &&& flag = flag

/-! ### A checksum in a stream -/

/-- `QDataStream << quint16`: big endian. -/
def writeUInt16 (n : UInt16) : QByteArray := [.ofNat (n.toNat / 256), .ofNat (n.toNat % 256)]

/-- `QDataStream >> quint16`. -/
def readUInt16 (bytes : QByteArray) : UInt16 :=
  .ofNat ((bytes.getD 0 0).toNat * 256 + (bytes.getD 1 0).toNat)

theorem readUInt16_writeUInt16 (n : UInt16) (rest : QByteArray) :
    readUInt16 (writeUInt16 n ++ rest) = n := by
  have bound := n.toNat_lt
  have high : (UInt8.ofNat (n.toNat / 256)).toNat = n.toNat / 256 := UInt8.toNat_ofNat_of_lt' (by
    show n.toNat / 256 < 256
    omega)
  have low : (UInt8.ofNat (n.toNat % 256)).toNat = n.toNat % 256 := UInt8.toNat_ofNat_of_lt' (by
    show n.toNat % 256 < 256
    omega)
  have join : n.toNat / 256 * 256 + n.toNat % 256 = n.toNat := by omega
  show UInt16.ofNat ((UInt8.ofNat (n.toNat / 256)).toNat * 256 +
    (UInt8.ofNat (n.toNat % 256)).toNat)
    = n
  rw [high, low, join, UInt16.ofNat_toNat]

/-! ### Encryption -/

section Model

variable (codec : Codec) (crypt : SimpleCrypt)

/-- The data as it goes into the cypher text, with the flag of the compression. -/
def compress (plaintext : QByteArray) : QByteArray × UInt8 :=
  match crypt.compressionMode with
  | .always => (codec.qCompress plaintext, flagCompression)
  | .auto =>
      let compressed := codec.qCompress plaintext
      if compressed.length < plaintext.length then (compressed, flagCompression)
      else (plaintext, 0)
  | .never => (plaintext, 0)

/-- The integrity protection of the data, with its flag. -/
def integrityProtection (ba : QByteArray) : QByteArray × UInt8 :=
  match crypt.protectionMode with
  | .checksum => (writeUInt16 (codec.qChecksum ba), flagChecksum)
  | .hash => (codec.sha1 ba, flagHash)
  | .none => ([], 0)

/-- `m_keyParts.at(pos % 8)`. -/
def keyPart (pos : ℕ) : UInt8 := crypt.keyParts.getD (pos % 8) 0

/-- One byte of the encryption loop. -/
def encryptByte (pos : ℕ) (lastChar c : UInt8) : UInt8 := c ^^^ crypt.keyPart pos ^^^ lastChar

/-- One byte of the decryption loop. -/
def decryptByte (pos : ℕ) (lastChar c : UInt8) : UInt8 := c ^^^ lastChar ^^^ crypt.keyPart pos

/-- `SimpleCrypt::encryptToByteArray`, where `randomChar` is `qrand() & 0xFF`. -/
def encryptToByteArray (randomChar : UInt8) (plaintext : QByteArray) : Except Error QByteArray :=
  if crypt.keyParts = [] then .error .noKeySet
  else
    let data := crypt.compress codec plaintext
    let protection := crypt.integrityProtection codec data.1
    .ok (0x03 :: (data.2 ||| protection.2) ::
      feedbackEncode crypt.encryptByte 0 0 (randomChar :: (protection.1 ++ data.1)))

/-! ### Decryption -/

/-- The integrity check and the decompression, once the bytes are decrypted. -/
def unprotect (flags : UInt8) (ba : QByteArray) : Except Error QByteArray :=
  let uncompress := fun ba : QByteArray =>
    if testFlag flags flagCompression then codec.qUncompress ba else ba
  if testFlag flags flagChecksum then
    if ba.length < 2 then .error .integrityFailed
    else if codec.qChecksum (ba.drop 2) = readUInt16 ba then .ok (uncompress (ba.drop 2))
    else .error .integrityFailed
  else if testFlag flags flagHash then
    if ba.length < 20 then .error .integrityFailed
    else if codec.sha1 (ba.drop 20) = ba.take 20 then .ok (uncompress (ba.drop 20))
    else .error .integrityFailed
  else .ok (uncompress ba)

/-- `SimpleCrypt::decryptToByteArray`.  The flags of a cypher text of one byte are
the null byte behind it. -/
def decryptToByteArray (cypher : QByteArray) : Except Error QByteArray :=
  if crypt.keyParts = [] then .error .noKeySet
  else if cypher.length = 0 then .error .unknownVersion
  else if cypher.getD 0 0 ≠ 0x03 then .error .unknownVersion
  else
    let ba := feedbackDecode crypt.decryptByte 0 0 (cypher.drop 2)
    unprotect codec (cypher.getD 1 0) (ba.drop 1)

/-- The array that a call returns: empty after an error. -/
def returned : Except Error QByteArray → QByteArray
  | .ok bytes => bytes
  | .error _ => []

/-- `SimpleCrypt::encryptToString`. -/
def encryptToString (randomChar : UInt8) (plaintext : QString) : QString :=
  fromLatin1 (toBase64 (returned
    (crypt.encryptToByteArray codec randomChar (codec.toUtf8 plaintext))))

/-- `SimpleCrypt::decryptToString`. -/
def decryptToString (cyphertext : QString) : QString :=
  codec.fromUtf8 (returned (crypt.decryptToByteArray codec (fromBase64 (toLatin1 cyphertext))))

end Model

/-! ### Decryption undoes encryption -/

variable {codec : Codec} {crypt : SimpleCrypt}

theorem keyParts_ofKey (key : UInt64) : (ofKey key).keyParts ≠ [] := by
  simp [ofKey, splitKey]

theorem decryptByte_encryptByte (pos : ℕ) (lastChar c : UInt8) :
    crypt.decryptByte pos lastChar (crypt.encryptByte pos lastChar c) = c := by
  rw [decryptByte, encryptByte, UInt8.xor_assoc, UInt8.xor_assoc, UInt8.xor_assoc,
    ← UInt8.xor_assoc lastChar, UInt8.xor_self, UInt8.zero_xor, UInt8.xor_self, UInt8.xor_zero]

/-- The data is compressed or not, and the flag says which. -/
theorem compress_cases (plaintext : QByteArray) :
    crypt.compress codec plaintext = (codec.qCompress plaintext, flagCompression) ∨
      crypt.compress codec plaintext = (plaintext, 0) := by
  unfold compress
  split
  · exact Or.inl rfl
  · simp only
    split
    · exact Or.inl rfl
    · exact Or.inr rfl
  · exact Or.inr rfl

/-- **The check passes the data that the protection was computed from**, and undoes
the compression when its flag is set. -/
theorem unprotect_integrityProtection (lawful : codec.Lawful) (ba : QByteArray)
    {compression : UInt8} (known : compression = flagCompression ∨ compression = 0) :
    unprotect codec (compression ||| (crypt.integrityProtection codec ba).2)
        ((crypt.integrityProtection codec ba).1 ++ ba) =
      .ok (if compression = flagCompression then codec.qUncompress ba else ba) := by
  unfold integrityProtection
  split
  · have checksum : testFlag (compression ||| flagChecksum) flagChecksum = true := by
      rcases known with rfl | rfl <;> rfl
    have compressed : testFlag (compression ||| flagChecksum) flagCompression =
        decide (compression = flagCompression) := by
      rcases known with rfl | rfl <;> rfl
    have long : ¬ (writeUInt16 (codec.qChecksum ba) ++ ba).length < 2 := by
      simp [writeUInt16]
    have data : (writeUInt16 (codec.qChecksum ba) ++ ba).drop 2 = ba := rfl
    simp only [unprotect, checksum, compressed, if_true, if_neg long, data, readUInt16_writeUInt16,
      decide_eq_true_eq]
  · have checksum : testFlag (compression ||| flagHash) flagChecksum = false := by
      rcases known with rfl | rfl <;> rfl
    have hash : testFlag (compression ||| flagHash) flagHash = true := by
      rcases known with rfl | rfl <;> rfl
    have compressed : testFlag (compression ||| flagHash) flagCompression =
        decide (compression = flagCompression) := by
      rcases known with rfl | rfl <;> rfl
    have size := lawful.length_sha1 ba
    have long : ¬ (codec.sha1 ba ++ ba).length < 20 := by
      rw [List.length_append]
      omega
    have data : (codec.sha1 ba ++ ba).drop 20 = ba := List.drop_left' size
    have stored : (codec.sha1 ba ++ ba).take 20 = codec.sha1 ba := List.take_left' size
    simp only [unprotect, checksum, hash, compressed, Bool.false_eq_true, if_false, if_true,
      if_neg long, data, stored, decide_eq_true_eq]
  · have checksum : testFlag (compression ||| 0) flagChecksum = false := by
      rcases known with rfl | rfl <;> rfl
    have hash : testFlag (compression ||| 0) flagHash = false := by
      rcases known with rfl | rfl <;> rfl
    have compressed : testFlag (compression ||| 0) flagCompression =
        decide (compression = flagCompression) := by
      rcases known with rfl | rfl <;> rfl
    simp only [unprotect, checksum, hash, compressed, Bool.false_eq_true, if_false, List.nil_append,
      decide_eq_true_eq]

/-- **Decryption undoes encryption**, whatever the modes and the random byte. -/
theorem decryptToByteArray_encryptToByteArray (lawful : codec.Lawful) (keyed : crypt.keyParts ≠ [])
    (randomChar : UInt8) (plaintext : QByteArray) :
    (crypt.encryptToByteArray codec randomChar plaintext).bind (crypt.decryptToByteArray codec) =
      .ok plaintext := by
  rw [encryptToByteArray, if_neg keyed]
  show crypt.decryptToByteArray codec _ = _
  rw [decryptToByteArray, if_neg keyed, if_neg (by simp), if_neg (by simp)]
  simp only [List.drop_succ_cons, List.drop_zero, feedbackDecode_encode decryptByte_encryptByte,
    List.getD_cons_succ, List.getD_cons_zero]
  rcases crypt.compress_cases plaintext with compressed | plain
  · rw [compressed, unprotect_integrityProtection lawful _ (Or.inl rfl), if_pos rfl,
      lawful.qUncompress_qCompress]
  · rw [plain, unprotect_integrityProtection lawful _ (Or.inr rfl), if_neg (by decide)]

/-- **Decryption undoes encryption of text.** -/
theorem decryptToString_encryptToString (lawful : codec.Lawful) (keyed : crypt.keyParts ≠ [])
    (randomChar : UInt8) (plaintext : QString) :
    crypt.decryptToString codec (crypt.encryptToString codec randomChar plaintext) =
      codec.fromUtf8 (codec.toUtf8 plaintext) := by
  have undone := decryptToByteArray_encryptToByteArray lawful keyed randomChar
    (codec.toUtf8 plaintext)
  rw [decryptToString, encryptToString, toLatin1_fromLatin1 (ascii_toBase64 _).zero_notMem,
    fromBase64_toBase64]
  obtain ⟨cypher, encrypted⟩ : ∃ cypher,
      crypt.encryptToByteArray codec randomChar (codec.toUtf8 plaintext) = .ok cypher := by
    rw [encryptToByteArray, if_neg keyed]
    exact ⟨_, rfl⟩
  rw [encrypted] at undone ⊢
  show codec.fromUtf8 (returned (crypt.decryptToByteArray codec cypher)) = _
  rw [show crypt.decryptToByteArray codec cypher = .ok (codec.toUtf8 plaintext) from undone]
  rfl

end SimpleCrypt

end MediaUpdater
