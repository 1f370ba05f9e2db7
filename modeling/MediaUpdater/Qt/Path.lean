import Mathlib.Data.List.Basic
import Mathlib.Data.List.DropRight
import Mathlib.Data.List.Infix
import Mathlib.Tactic.Common

/-!
# Strings, names and paths

`QString` is a list of characters and `QByteArray` a list of bytes.  A `Path` is
an absolute path with its `.`, `..` and empty components already resolved, that
is the list of its components; two strings name one file exactly when they
resolve to one `Path`.

The program builds every path by `directory + "/" + name`.  `Path.child` is that
step: it splits `name` at its slashes and resolves each piece against the
directory, so a name that contains `/` or `..` reaches the file that the string
would reach.  For a *plain* name — one non-empty component that is neither `.` nor
`..` — it appends one component (`Path.child_plain`).
-/

namespace MediaUpdater

/-- `QString`. -/
abbrev QString := List Char

/-- `QByteArray`. -/
abbrev QByteArray := List UInt8

/-- An absolute path, as the list of its resolved components. -/
abbrev Path := List QString

/-- The string of a literal. -/
def str (s : String) : QString := s.toList

namespace Path

/-- Resolve one component against a directory. -/
def push (dir : Path) (component : QString) : Path :=
  if component = [] ∨ component = str "." then dir
  else if component = str ".." then dir.dropLast
  else dir ++ [component]

/-- `dir + "/" + name`. -/
def child (dir : Path) (name : QString) : Path :=
  (name.splitOn '/').foldl push dir

/-- The path as text with a slash after every component, empty for the empty
path: `sourceDirSlash()` of a relative directory. -/
def slashed (dir : Path) : QString := dir.flatMap (· ++ str "/")

end Path

/-- A plain path component: not empty, without a slash, and neither `.` nor `..`. -/
structure Plain (name : QString) : Prop where
  ne_nil : name ≠ []
  no_slash : '/' ∉ name
  ne_dot : name ≠ str "."
  ne_dotDot : name ≠ str ".."

/-- A name that `QDir::entryInfoList` returns: it does not begin with a dot. -/
def Visible (name : QString) : Prop := name.head? ≠ some '.'

instance (name : QString) : Decidable (Visible name) :=
  inferInstanceAs (Decidable (name.head? ≠ some '.'))

namespace Plain

variable {name : QString}

theorem iff : Plain name ↔ name ≠ [] ∧ '/' ∉ name ∧ name ≠ str "." ∧ name ≠ str ".." :=
  ⟨fun h => ⟨h.1, h.2, h.3, h.4⟩, fun h => ⟨h.1, h.2.1, h.2.2.1, h.2.2.2⟩⟩

instance : Decidable (Plain name) := decidable_of_iff' _ iff

theorem push_eq (plain : Plain name) (dir : Path) : dir.push name = dir ++ [name] := by
  simp [Path.push, plain.ne_nil, plain.ne_dot, plain.ne_dotDot]

end Plain

/-- **A plain name adds one component.** -/
theorem Path.child_plain {name : QString} (plain : Plain name) (dir : Path) :
    dir.child name = dir ++ [name] := by
  rw [Path.child, List.splitOn_eq_singleton plain.no_slash]
  simpa using plain.push_eq dir

/-- `QString::section(sep, 0, 0)`: the text before the first separator. -/
def firstSection (sep : Char) (s : QString) : QString := s.takeWhile (· ≠ sep)

/-- `QString::section(sep, -1)`: the text after the last separator. -/
def lastSection (sep : Char) (s : QString) : QString := s.rtakeWhile (· ≠ sep)

example : (lastSection '/' (str "rock=ftp/rock/a.mp3"), firstSection '=' (str "rock=x")) =
    (str "a.mp3", str "rock") := by decide

end MediaUpdater
