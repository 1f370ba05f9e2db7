import MediaUpdater.Library.Base64
import MediaUpdater.Qt.Path

/-!
# Conversions of Qt

Latin-1 and base64 are written out.  `Codec` collects the conversions that the
account code takes from Qt as they are: UTF-8, the local 8-bit encoding, SHA-1,
zlib, the CRC of `qChecksum` and the JSON parser.  `Codec.Lawful` states what
Qt promises of them.
-/

namespace MediaUpdater

/-! ### Latin-1 and base64 -/

/-- `QString::fromLatin1`, which stops at a NUL. -/
def fromLatin1 (bytes : QByteArray) : QString :=
  (bytes.takeWhile (· ≠ 0)).map fun byte => Char.ofNat byte.toNat

/-- `QString::toLatin1`: a UTF-16 unit outside Latin-1 becomes a question mark. -/
def toLatin1 (s : QString) : QByteArray :=
  s.flatMap fun c =>
    if c.toNat < 256 then [.ofNat c.toNat] else if c.toNat < 65536 then [63] else [63, 63]

theorem toLatin1_of_latin {s : QString} (latin : ∀ c ∈ s, c.toNat < 256) :
    toLatin1 s = s.map fun c => .ofNat c.toNat := by
  induction s with
  | nil => rfl
  | cons c s ih =>
      have later := ih fun other mem => latin other (List.mem_cons_of_mem c mem)
      rw [toLatin1, List.flatMap_cons, if_pos (latin c List.mem_cons_self), ← toLatin1, later]
      rfl

theorem zero_notMem_toLatin1 {s : QString} (noNul : ∀ c ∈ s, c.toNat ≠ 0) : 0 ∉ toLatin1 s := by
  intro mem
  obtain ⟨c, inside, nul⟩ := List.mem_flatMap.mp mem
  split at nul
  · rename_i latin
    have number := congrArg UInt8.toNat (List.mem_singleton.mp nul)
    rw [UInt8.toNat_ofNat_of_lt' latin] at number
    exact noNul c inside number.symm
  · split at nul
    · exact absurd nul (by decide)
    · exact absurd nul (by decide)

theorem fromLatin1_of_notMem {bytes : QByteArray} (noNul : 0 ∉ bytes) :
    fromLatin1 bytes = bytes.map fun byte => Char.ofNat byte.toNat := by
  rw [fromLatin1, List.takeWhile_eq_self_iff.mpr]
  intro byte mem
  exact decide_eq_true fun nul => noNul (nul ▸ mem)

theorem toLatin1_fromLatin1 {bytes : QByteArray} (noNul : 0 ∉ bytes) :
    toLatin1 (fromLatin1 bytes) = bytes := by
  have char (byte : UInt8) : (Char.ofNat byte.toNat).toNat = byte.toNat := by
    have bound := byte.toNat_lt
    rw [Char.ofNat, dif_pos (Or.inl (by omega))]
    rfl
  have latin : ∀ c ∈ bytes.map fun byte => Char.ofNat byte.toNat, c.toNat < 256 := by
    intro c mem
    obtain ⟨byte, -, rfl⟩ := List.mem_map.mp mem
    rw [char]
    exact byte.toNat_lt
  rw [fromLatin1_of_notMem noNul, toLatin1_of_latin latin, List.map_map]
  refine List.map_id'' (fun byte => ?_) bytes
  simp only [Function.comp_apply, char, UInt8.ofNat_toNat]

theorem fromLatin1_toLatin1 {s : QString} (latin : ∀ c ∈ s, c.toNat ≠ 0 ∧ c.toNat < 256) :
    fromLatin1 (toLatin1 s) = s := by
  rw [fromLatin1_of_notMem (zero_notMem_toLatin1 fun c mem => (latin c mem).1),
    toLatin1_of_latin fun c mem => (latin c mem).2, List.map_map]
  refine (List.map_congr_left fun c mem => ?_).trans (List.map_id s)
  rw [Function.comp_apply, UInt8.toNat_ofNat_of_lt' (latin c mem).2, Char.ofNat_toNat, id]

theorem fromLatin1_append {s : QByteArray} (noNul : 0 ∉ s) (t : QByteArray) :
    fromLatin1 (s ++ t) = fromLatin1 s ++ fromLatin1 t := by
  rw [fromLatin1_of_notMem noNul, fromLatin1, fromLatin1, List.takeWhile_append_of_pos,
    List.map_append]
  intro byte mem
  exact decide_eq_true fun nul => noNul (nul ▸ mem)

/-- `QByteArray::toBase64`. -/
def toBase64 (bytes : QByteArray) : QByteArray := Library.Base64.encode bytes

/-- `QByteArray::fromBase64`. -/
def fromBase64 (bytes : QByteArray) : QByteArray := Library.Base64.decode bytes

@[simp] theorem fromBase64_toBase64 (bytes : QByteArray) : fromBase64 (toBase64 bytes) = bytes :=
  Library.Base64.decode_encode bytes

/-- Text in the ASCII range, without a NUL. -/
def Ascii (bytes : QByteArray) : Prop := ∀ c ∈ bytes, c ≠ 0 ∧ c.toNat < 128

theorem Ascii.zero_notMem {bytes : QByteArray} (ascii : Ascii bytes) : 0 ∉ bytes :=
  fun mem => (ascii 0 mem).1 rfl

theorem ascii_toBase64 (bytes : QByteArray) : Ascii (toBase64 bytes) :=
  Library.Base64.encode_ascii bytes

/-! ### JSON documents -/

/-- `QJsonValue`; numbers and booleans carry nothing that the program reads. -/
inductive QJsonValue where
  | null
  | bool
  | double
  | string (text : QString)
  | array (values : List QJsonValue)
  | object (members : List (QString × QJsonValue))

/-- `QJsonObject`, in the order of `keys()`. -/
abbrev QJsonObject := List (QString × QJsonValue)

namespace QJsonValue

/-- `QJsonValue::toString`: the null string unless the value is a string. -/
def toString : QJsonValue → QString
  | .string text => text
  | _ => []

/-- `QJsonValue::toObject`: the empty object unless the value is an object. -/
def toObject : QJsonValue → QJsonObject
  | .object members => members
  | _ => []

end QJsonValue

namespace QJsonObject

/-- `QJsonObject::keys`. -/
def keys (object : QJsonObject) : List QString := object.map Prod.fst

/-- `QJsonObject::value`: the undefined value, with an empty `toString()`, when
the key is absent. -/
def value (object : QJsonObject) (key : QString) : QJsonValue :=
  (object.lookup key).getD .null

end QJsonObject

/-- `QJsonDocument`. -/
inductive QJsonDocument where
  | array (values : List QJsonValue)
  | object (members : QJsonObject)

namespace QJsonDocument

/-- `QJsonDocument::array`: empty unless the document is an array. -/
def toArray : QJsonDocument → List QJsonValue
  | .array values => values
  | .object _ => []

/-- `QJsonDocument::object`: empty unless the document is an object. -/
def toObject : QJsonDocument → QJsonObject
  | .array _ => []
  | .object members => members

end QJsonDocument

/-! ### The conversions taken from Qt -/

/-- The conversions of Qt that the account code calls. -/
structure Codec where
  /-- `QString::fromUtf8`, and `QString(QByteArray)`. -/
  fromUtf8 : QByteArray → QString
  /-- `QString::toUtf8`. -/
  toUtf8 : QString → QByteArray
  /-- `QString::toLocal8Bit`. -/
  toLocal8Bit : QString → QByteArray
  /-- `QString::toLower`. -/
  toLower : QString → QString
  /-- `QByteArray::toULongLong`. -/
  toULongLong : QByteArray → UInt64
  /-- `QCryptographicHash::hash(…, QCryptographicHash::Sha1)`. -/
  sha1 : QByteArray → QByteArray
  /-- `qCompress(…, 9)`. -/
  qCompress : QByteArray → QByteArray
  /-- `qUncompress`. -/
  qUncompress : QByteArray → QByteArray
  /-- `qChecksum`. -/
  qChecksum : QByteArray → UInt16
  /-- `QJsonDocument::fromJson`, with the text of its parse error. -/
  fromJson : QByteArray → Except QString QJsonDocument

/-- What Qt promises of its conversions. -/
structure Codec.Lawful (codec : Codec) : Prop where
  /-- ASCII text is its own UTF-8 encoding. -/
  toUtf8_fromUtf8 : ∀ bytes, Ascii bytes → codec.toUtf8 (codec.fromUtf8 bytes) = bytes
  /-- ASCII text is its own encoding in the local 8-bit encoding. -/
  toLocal8Bit_fromUtf8 : ∀ bytes, Ascii bytes → codec.toLocal8Bit (codec.fromUtf8 bytes) = bytes
  /-- `qUncompress` inverts `qCompress`. -/
  qUncompress_qCompress : ∀ bytes, codec.qUncompress (codec.qCompress bytes) = bytes
  /-- A SHA-1 digest has twenty bytes. -/
  length_sha1 : ∀ bytes, (codec.sha1 bytes).length = 20
  /-- The empty text is not a JSON document. -/
  fromJson_nil : ∃ text, codec.fromJson [] = .error text

end MediaUpdater
