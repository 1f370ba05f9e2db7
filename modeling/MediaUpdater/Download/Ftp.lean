import MediaUpdater.Content.Manager

/-!
# `QFtp`, as the size phase uses it

The vendored `QFtp` runs its commands in the order in which they were queued.
What the size phase sees of it is a queue of commands, the login state and the
last error:

* a `LIST` announces any number of entries through `listInfo`, then ends;
* every command ends with one `commandFinished(id, error)`;
* when a command fails, the commands queued behind it are dropped *before* the
  signal, so what the handler queues in answer is what runs next.

A `LIST` carries the file it was queued for.  The path sent to the server is the
file's `serverPath`; the rest of the file is kept for the specification only.
-/

namespace MediaUpdater

/-- `QFtp::Error`. -/
inductive FtpError where
  | noError
  | unknownError
  | hostNotFound
  | connectionRefused
  | notConnected
  deriving DecidableEq, Repr

/-- `QFtp::State`. -/
inductive FtpState where
  | unconnected
  | hostLookup
  | connecting
  | connected
  | loggedIn
  | closing
  deriving DecidableEq, Repr

/-- What makes a command fail. -/
inductive FtpFailure where
  | hostNotFound
  | connectionRefused
  | notConnected
  /-- The data connection was refused. -/
  | dataConnectionRefused
  /-- The data connection reported an error text of its own. -/
  | dataTransfer
  /-- A transient `4yz` reply. -/
  | transientReply
  /-- A permanent reply, or a line of the listing, that says that there is no
  such file. -/
  | noSuchFile
  /-- Any other permanent `5yz` reply. -/
  | permanentReply
  deriving DecidableEq, Repr

/-- The error code under which `QFtp` reports a failure: every reply of the server
and every text of the data connection is an `UnknownError`. -/
def FtpFailure.error : FtpFailure → FtpError
  | hostNotFound => .hostNotFound
  | connectionRefused => .connectionRefused
  | notConnected => .notConnected
  | dataConnectionRefused => .connectionRefused
  | dataTransfer => .unknownError
  | transientReply => .unknownError
  | noSuchFile => .unknownError
  | permanentReply => .unknownError

/-- The members of `QUrlInfo` that `listInfo` reads. -/
structure QUrlInfo where
  isValid : Bool
  isFile : Bool
  size : ℤ
  deriving DecidableEq, Repr

/-- The line is taken for a regular file. -/
def QUrlInfo.isRegularFile (info : QUrlInfo) : Bool := info.isValid && info.isFile

/-- `QFtp::Command`, with what the command is about. -/
inductive FtpCommand where
  | connectToHost
  | login
  | list (file : SContentInfo)
  | close
  deriving DecidableEq

/-- The file of a `LIST`. -/
def FtpCommand.listed? : FtpCommand → Option SContentInfo
  | list file => some file
  | _ => none

/-- `QFtp`: the queue, whose head is the running command, the state and the error
of the last command. -/
structure QFtp where
  pending : List (ℕ × FtpCommand) := []
  state : FtpState := .unconnected
  error : FtpError := .noError

namespace QFtp

variable (ftp : QFtp)

/-- `addCommand`. -/
def addCommand (id : ℕ) (command : FtpCommand) : QFtp :=
  { ftp with pending := ftp.pending ++ [(id, command)] }

/-- The first half of `_q_piError`: the error is recorded and what is queued behind
the running command is dropped. -/
def fail (error : FtpError) : QFtp :=
  { ftp with pending := ftp.pending.take 1, error := error }

/-- `pending.removeFirst()`, after the signal. -/
def removeFirst : QFtp := { ftp with pending := ftp.pending.tail }

@[simp] theorem pending_addCommand (id : ℕ) (command : FtpCommand) :
    (ftp.addCommand id command).pending = ftp.pending ++ [(id, command)] := rfl

@[simp] theorem state_addCommand (id : ℕ) (command : FtpCommand) :
    (ftp.addCommand id command).state = ftp.state := rfl

@[simp] theorem pending_fail (error : FtpError) :
    (ftp.fail error).pending = ftp.pending.take 1 := rfl

@[simp] theorem error_fail (error : FtpError) : (ftp.fail error).error = error := rfl

@[simp] theorem pending_removeFirst : ftp.removeFirst.pending = ftp.pending.tail := rfl

end QFtp

end MediaUpdater
