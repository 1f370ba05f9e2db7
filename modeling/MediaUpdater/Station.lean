import MediaUpdater.Qt.FileSystem

/-!
# The station and its account

`Station` is the configured part of `StationManager`: where the media tree and
the player live.  Below the media directory the program owns

* `.sync/<boxId>/`, the staging area: the control files in the directories
  `command`, `chanels`, `cron.d` and `timetable`, the advertising files in
  `ads/`, the music in `music/<channel>/`, and the INI files `checkstorage`,
  `command/revstorage` and `local`;
* `music/<channel>/` and `ads/`, the installed content.

The installed control files live in the player's `timetable` directory, which a
`Station` keeps apart from the media tree.

`Env` adds the two conversions of Qt that the model takes as they are: the
decoding of a text file, and the revision number in a downloaded INI file.
-/

namespace MediaUpdater

/-- The directories of `StationManager`. -/
structure Station where
  /-- `pathToMedia`. -/
  media : Path
  /-- `pathToStation`. -/
  player : Path
  /-- The timetable directory is not inside the media tree … -/
  media_not_prefix : ¬ media <+: player ++ [str "timetable"]
  /-- … nor the media tree inside it. -/
  timetable_not_prefix : ¬ player ++ [str "timetable"] <+: media

/-- The station together with Qt's conversions. -/
structure Env where
  station : Station
  /-- `QString(QByteArray)`. -/
  fromUtf8 : QByteArray → QString
  /-- `QSettings(file, QSettings::IniFormat).value("/revision", 0).toInt()`. -/
  iniRevision : QByteArray → ℤ

namespace Station

variable (st : Station) (boxId : QString)

/-- `StationManager::advertDir`. -/
def advertDir : QString := str "ads"

/-- `StationManager::musicDir`. -/
def musicDir : QString := str "music"

/-- `StationManager::mediaSync`. -/
def mediaSync : Path := st.media ++ [str ".sync"]

/-- `StationManager::timetablePath`. -/
def timetablePath : Path := st.player ++ [str "timetable"]

/-- `mediaSync() + "/" + boxId`; a box id is a number, so one component. -/
def boxDir : Path := st.mediaSync ++ [boxId]

/-- `.sync/<boxId>/command/command`, the server's revision file. -/
def commandFile : Path := st.boxDir boxId ++ [str "command", str "command"]

/-- `.sync/<boxId>/chanels/chanels`, the music manifest. -/
def chanelsFile : Path := st.boxDir boxId ++ [str "chanels", str "chanels"]

/-- `.sync/<boxId>/cron.d/adverttable`, the advertising manifest. -/
def adverttableFile : Path := st.boxDir boxId ++ [str "cron.d", str "adverttable"]

/-- `.sync/<boxId>/checkstorage`. -/
def checkstorage : Path := st.boxDir boxId ++ [str "checkstorage"]

/-- `.sync/<boxId>/command/revstorage`. -/
def revstorage : Path := st.boxDir boxId ++ [str "command", str "revstorage"]

/-- `.sync/<boxId>/local`. -/
def localFile : Path := st.boxDir boxId ++ [str "local"]

/-- Nothing below the media directory is the timetable directory or below it. -/
theorem media_append_ne (below under : Path) :
    st.media ++ below ≠ st.timetablePath ++ under := by
  intro same
  have left : st.media <+: st.timetablePath ++ under := ⟨below, same⟩
  have right : st.timetablePath <+: st.timetablePath ++ under := ⟨under, rfl⟩
  rcases List.prefix_or_prefix_of_prefix left right with inside | inside
  · exact st.media_not_prefix inside
  · exact st.timetable_not_prefix inside

end Station

/-- The bytes of an ASCII text. -/
def ascii (s : String) : QByteArray := s.toList.map fun c => .ofNat c.toNat

/-- A station for concrete runs: `/media` and `/player`, ASCII text, and revision files
of the form `revision=<number>`. -/
def Env.demo : Env where
  station :=
    { media := [str "media"]
      player := [str "player"]
      media_not_prefix := by decide
      timetable_not_prefix := by decide }
  fromUtf8 bytes := bytes.map fun byte => Char.ofNat byte.toNat
  iniRevision bytes :=
    ((bytes.drop 9).map fun byte => (byte.toNat - 48 : ℤ)).foldl (fun n digit => 10 * n + digit) 0

/-- `LoginInfo`. -/
structure LoginInfo where
  boxId : QString
  host : QString
  login : QString
  password : QString
  pathPrefix : QString
  scheme : QString := str "ftp"
  boxFolder : QString := str "mediabox"
  port : ℤ := 21
  deriving DecidableEq

namespace LoginInfo

/-- `prefixSlash()`, `boxFolderSlash()`: a slash at the end unless there is one or
the text is empty. -/
def withSlash (s : QString) : QString :=
  if s = [] then s else if s.getLast? = some '/' then s else s ++ str "/"

def prefixSlash (info : LoginInfo) : QString := withSlash info.pathPrefix

def boxFolderSlash (info : LoginInfo) : QString := withSlash info.boxFolder

end LoginInfo

/-- The login data of the concrete runs. -/
def LoginInfo.demo : LoginInfo where
  boxId := str "7"
  host := str "host"
  login := str "login"
  password := str "password"
  pathPrefix := []

namespace FileSystem

variable (fs : FileSystem) (env : Env) (boxId : QString)

/-- `StationManager::revServer`. -/
def revServer : ℤ :=
  match fs.read (env.station.commandFile boxId) with
  | some bytes => env.iniRevision bytes
  | none => 0

/-- `StationManager::revLocal`. -/
def revLocal : ℤ :=
  ((fs.settingsValue (env.station.localFile boxId) (str "revision")).map QVariant.toInt).getD 0

/-- `StationManager::setRevLocal`. -/
def setRevLocal (rev : ℤ) : FileSystem :=
  fs.setSettingsValue (env.station.localFile boxId) (str "revision") (.int rev)

/-- `DownloadManager::checkRevision`. -/
def checkRevision : Bool :=
  let server := fs.revServer env boxId
  if server ≤ 0 then false else fs.revLocal env boxId ≠ server

end FileSystem

end MediaUpdater
