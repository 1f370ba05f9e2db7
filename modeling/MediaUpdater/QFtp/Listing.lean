import MediaUpdater.Library.Pattern
import MediaUpdater.Download.Ftp
import MediaUpdater.Qt.Codec

/-!
# The lines of a listing

`QFtpDTP::parseDir` tries a pattern for the listings of Unix servers, then one for those
of DOS servers.  The patterns are the source's, over Latin-1 text; repetitions are greedy.
The date columns are captured but not read: nothing in the program asks for the time of
the last modification.
-/

namespace MediaUpdater

open Library

/-! ### Characters and numbers -/

/-- `QChar::isSpace`, in Latin-1. -/
def isSpace (c : Char) : Bool :=
  (9 ≤ c.toNat && c.toNat ≤ 13) || c = ' ' || c.toNat = 0x85 || c.toNat = 0xA0

/-- `\S`. -/
def notSpace (c : Char) : Bool := !isSpace c

/-- `[a-zA-Z\-]`. -/
def isPermission (c : Char) : Bool := c.isAlpha || c = '-'

/-- `QString::trimmed`. -/
def trimmed (s : QString) : QString := (s.dropWhile isSpace).rdropWhile isSpace

/-- `QString::toLongLong` of a text without sign and white space: 0 for what is not a
number or does not fit. -/
def toLongLong (s : QString) : ℤ :=
  if s ≠ [] ∧ s.all Char.isDigit ∧ Nat.ofDigitChars 10 s 0 < 2 ^ 63 then
    Nat.ofDigitChars 10 s 0
  else 0

/-- `QString::toUInt` of digits. -/
def toUInt (s : QString) : UInt32 :=
  if Nat.ofDigitChars 10 s 0 < 2 ^ 32 then .ofNat (Nat.ofDigitChars 10 s 0) else 0

/-- The number that a text stands for: white space around it and a sign are allowed. -/
def number? (s : QString) : Option ℤ :=
  match trimmed s with
  | '-' :: digits =>
      if digits ≠ [] ∧ digits.all Char.isDigit then some (-(Nat.ofDigitChars 10 digits 0 : ℤ))
        else none
  | '+' :: digits =>
      if digits ≠ [] ∧ digits.all Char.isDigit then some (Nat.ofDigitChars 10 digits 0) else none
  | digits =>
      if digits ≠ [] ∧ digits.all Char.isDigit then some (Nat.ofDigitChars 10 digits 0) else none

/-- `QString::toInt`: 0 for what is not a number or does not fit. -/
def toInt (s : QString) : ℤ :=
  match number? s with
  | some n => if -2 ^ 31 ≤ n ∧ n < 2 ^ 31 then n else 0
  | none => 0

/-- `QString::indexOf`. -/
def indexOf (part : QString) (s : QString) : Option ℕ :=
  s.tails.findIdx? fun rest => part.isPrefixOf rest

/-! ### `QUrlInfo` -/

namespace QUrlInfo

def readOwner : ℕ := 0o400
def writeOwner : ℕ := 0o200
def exeOwner : ℕ := 0o100
def readGroup : ℕ := 0o040
def writeGroup : ℕ := 0o020
def exeGroup : ℕ := 0o010
def readOther : ℕ := 0o004
def writeOther : ℕ := 0o002
def exeOther : ℕ := 0o001

end QUrlInfo

/-- `QUrlInfoPrivate`, without the times. -/
structure QUrlInfoPrivate where
  name : QString := []
  permissions : ℕ := 0
  owner : QString := []
  group : QString := []
  size : ℤ := 0
  isDir : Bool := false
  isFile : Bool := true
  isSymLink : Bool := false
  isWritable : Bool := true
  isReadable : Bool := true
  isExecutable : Bool := false
  deriving DecidableEq, Repr

/-- The members of a valid `QUrlInfo` that `listInfo` reads. -/
def QUrlInfoPrivate.toUrlInfo (info : QUrlInfoPrivate) : QUrlInfo where
  isValid := true
  isFile := info.isFile
  size := info.size

namespace QFtpDTP

open QUrlInfo

/-! ### The patterns -/

/-- `^([\-dl])([a-zA-Z\-]{9,9})\s+\d+\s+(\S*)\s+(\S*)\s+(\d+)\s+(\S+\s+\S+\s+\S+)\s+(\S.*)` -/
def unixPattern : Pattern Char :=
  .inOrder
    [.group (.one fun c => c = '-' || c = 'd' || c = 'l'),
      .group (.exactly (.one isPermission) 9),
      .many 1 isSpace, .many 1 Char.isDigit,
      .many 1 isSpace, .group (.many 0 notSpace),
      .many 1 isSpace, .group (.many 0 notSpace),
      .many 1 isSpace, .group (.many 1 Char.isDigit),
      .many 1 isSpace,
      .group (.inOrder [.many 1 notSpace, .many 1 isSpace, .many 1 notSpace, .many 1 isSpace,
        .many 1 notSpace]),
      .many 1 isSpace, .group (.inOrder [.one notSpace, .many 0 fun _ => true])]

/-- `\d\d-\d\d-\d\d\d?\d?\ \ \d\d:\d\d[AP]M` -/
def dosTime : Pattern Char :=
  .inOrder
    [.exactly (.one Char.isDigit) 2, .text ['-'], .exactly (.one Char.isDigit) 2, .text ['-'],
      .exactly (.one Char.isDigit) 2, .opt (.one Char.isDigit), .opt (.one Char.isDigit),
      .text [' ', ' '], .exactly (.one Char.isDigit) 2, .text [':'],
      .exactly (.one Char.isDigit) 2, .one fun c => c = 'A' || c = 'P', .text ['M']]

/-- `^(` the time `)\s+(<DIR>|\d+)\s+(\S.*)$` -/
def dosPattern : Pattern Char :=
  .inOrder
    [.group dosTime,
      .many 1 isSpace, .group (.alt (.text (str "<DIR>")) (.many 1 Char.isDigit)),
      .many 1 isSpace, .group (.inOrder [.one notSpace, .many 0 fun _ => true])]

/-- `capturedTexts()` after `indexIn(s) == 0`: the match and the groups.  With `atEnd` the
match has to reach the end of the text, as a `$` demands. -/
def capturedTexts (pattern : Pattern Char) (atEnd : Bool) (s : QString) : Option (List QString) :=
  pattern.run s fun xs captures rest =>
    if atEnd && !rest.isEmpty then none else some (xs :: captures)

/-! ### The columns -/

/-- The letters of the permissions with their flags. -/
def permissionFlags : List (Char × ℕ) :=
  [('r', readOwner), ('w', writeOwner), ('x', exeOwner), ('r', readGroup), ('w', writeGroup),
    ('x', exeGroup), ('r', readOther), ('w', writeOther), ('x', exeOther)]

/-- The permissions of a Unix line. -/
def unixPermissions (p : QString) : ℕ :=
  (p.zip permissionFlags).foldl
    (fun bits entry => bits ||| if entry.1 = entry.2.1 then entry.2.2 else 0) 0

/-- The name without the target of a link. -/
def linkName (name : QString) : QString :=
  match indexOf (str " ->") name with
  | some linkPos => name.take linkPos
  | none => name

/-- `_q_parseUnixDir`. -/
def parseUnixDir (tokens : List QString) (userName : QString) (info : QUrlInfoPrivate) :
    QUrlInfoPrivate :=
  match tokens with
  | [_, first, p, owner, group, size, _, name] =>
      let info := match first.head? with
        | some 'd' => { info with isDir := true, isFile := false, isSymLink := false }
        | some '-' => { info with isDir := false, isFile := true, isSymLink := false }
        | some 'l' => { info with isDir := true, isFile := false, isSymLink := true }
        | _ => info
      let permissions := unixPermissions p
      let isOwner : Bool := owner = userName
      { info with
        name := if info.isSymLink then linkName name else name
        owner := owner
        group := group
        size := toLongLong size
        permissions := permissions
        isReadable := permissions &&& readOther ≠ 0 || (permissions &&& readOwner ≠ 0 && isOwner)
        isWritable :=
          permissions &&& writeOther ≠ 0 || (permissions &&& writeOwner ≠ 0 && isOwner) }
  | _ => info

/-- The text after the last dot, empty if there is none. -/
def extension (name : QString) : QString := if '.' ∈ name then lastSection '.' name else []

/-- `_q_parseDosDir`. -/
def parseDosDir (tokens : List QString) (info : QUrlInfoPrivate) : QUrlInfoPrivate :=
  match tokens with
  | [_, _, size, name] =>
      let ext := extension name
      let permissions :=
        readOwner ||| writeOwner ||| readGroup ||| writeGroup ||| readOther ||| writeOther
      let info :=
        if size = str "<DIR>" then { info with isFile := false, isDir := true }
        else { info with isFile := true, isDir := false, size := toLongLong size }
      { info with
        name := name
        isSymLink := decide (str ".lnk" <:+ name.map Char.toLower)
        permissions :=
          if ext = str "exe" ∨ ext = str "bat" ∨ ext = str "com" then
            permissions ||| exeOwner ||| exeGroup ||| exeOther
          else permissions
        isReadable := true
        isWritable := info.isFile }
  | _ => info

/-- `QFtpDTP::parseDir`: the entry, or `none` for a line in neither format. -/
def parseDir (buffer : QByteArray) (userName : QString) : Option QUrlInfoPrivate :=
  if buffer = [] then none
  else
    let bufferStr := trimmed (fromLatin1 buffer)
    match capturedTexts unixPattern false bufferStr with
    | some tokens => some (parseUnixDir tokens userName {})
    | none => (capturedTexts dosPattern true bufferStr).map fun tokens => parseDosDir tokens {}

end QFtpDTP

end MediaUpdater
