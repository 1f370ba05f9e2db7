import MediaUpdater.Content.Content

/-!
# `Content::sync`

Installing the collected files of a local content and deleting what its manifest
does not list.  MUSIC and ADVERT files are moved out of the staging area, control
files are copied when their bytes differ; afterwards `deleteExcessFiles` matches
the installed files against the manifest and removes the rest.

The matching loop and the deletion loop share the variable `destination`: the
matching loop sets it, for MUSIC, to the directory of each unmatched file it
meets, and the deletion loop removes every excess file from the directory that
is left in it.
-/

namespace MediaUpdater

open FileSystem CheckDownloadedContent

namespace Content

variable (env : Env) (c : Content)

/-- The staged file of an entry, as `copyToDestination` builds its path. -/
def sourcePath (entry : Entry) : Path :=
  match c.contentType with
  | .advert => c.sourceDir.child entry.fileName
  | _ => (c.sourceDir.child entry.dirName).child entry.fileName

/-- The file it is installed as. -/
def destinationPath (entry : Entry) : Path :=
  match c.contentType with
  | .music => (c.destination.child entry.dirName).child entry.fileName
  | _ => c.destination.child entry.fileName

/-- The tail of the loop body of `copyToDestination`: remove the old file, copy or
move the new one, drop its trust key. -/
def installFile (fs : FileSystem) (entry : Entry) : Bool × FileSystem :=
  let file := c.sourcePath entry
  let filePath := c.destinationPath entry
  let fs' := if fs.fileExists filePath then (fs.remove filePath).2 else fs
  let res := match c.contentType with
    | .revision => fs'.copy file filePath
    | _ => fs'.rename file filePath
  (res.1, if res.1 then remove env c.boxId res.2 entry else res.2)

/-- The loop body of `copyToDestination`.  A control file is installed only when
its status is `DOWNLOAD_OK` and its bytes differ from the installed ones. -/
def copyEntry (fs : FileSystem) (entry : Entry) : Bool × FileSystem :=
  match c.contentType with
  | .revision =>
      let opened := fs.openRead (c.sourcePath entry)
      match opened.1 with
      | some newData =>
          if checkRev env c.boxId fs ((c.sourcePath entry).getLast?.getD []) =
              CheckStatus.downloadOk.toInt then
            let current := opened.2.openRead (c.destinationPath entry)
            if newData = current.1.getD [] then (false, current.2)
            else installFile env c current.2 entry
          else (false, opened.2)
      | none => (false, opened.2)
  | _ => installFile env c fs entry

/-- The loop of `copyToDestination`. -/
def copyEntries : FileSystem → List Entry → Bool × FileSystem
  | fs, [] => (false, fs)
  | fs, entry :: rest =>
      let copied := copyEntry env c fs entry
      let others := copyEntries copied.2 rest
      (copied.1 || others.1, others.2)

/-- `Content::copyToDestination`. -/
def copyToDestination (fs : FileSystem) : Bool × FileSystem :=
  copyEntries env c fs c.sourceList

/-- The matching loop of `deleteExcessFiles`: each file of the source list consumes
one equal entry of the reference list; an unmatched file sets `destination` (MUSIC)
and, when it is there, joins the list. -/
def matchLoop (fs : FileSystem) :
    Path → List Entry → List Entry → List Entry → Path × List Entry
  | destination, _, list, [] => (destination, list)
  | destination, standart, list, source :: rest =>
      if source ∈ standart then
        matchLoop fs destination (standart.erase source) list rest
      else
        let destination' :=
          if c.contentType = .music then c.destination.child source.dirName else destination
        matchLoop fs destination' standart
          (if fs.fileExists (destination'.child source.fileName) then list ++ [source] else list)
          rest

/-- The deletion loop of `deleteExcessFiles`. -/
def removeLoop (destination : Path) : FileSystem → List Entry → FileSystem
  | fs, [] => fs
  | fs, info :: rest => removeLoop destination (fs.remove (destination.child info.fileName)).2 rest

/-- The branch of `deleteExcessFiles` for the control files: an installed file goes
when it is not staged and its status is `DEFAULT`. -/
def deleteControlFiles : FileSystem → List Entry → FileSystem
  | fs, [] => fs
  | fs, entry :: rest =>
      let source := (c.sourceDir.child entry.dirName).child entry.fileName
      let filePath := c.destination.child entry.fileName
      let fs' :=
        if !fs.fileExists source &&
            checkRev env c.boxId fs (source.getLast?.getD []) = CheckStatus.default.toInt &&
            fs.fileExists filePath then
          (fs.remove filePath).2
        else fs
      deleteControlFiles fs' rest

/-- `Content::deleteExcessFiles`, without its unused result. -/
def deleteExcessFiles (fs : FileSystem) : FileSystem :=
  let st := env.station
  if !fs.fileExists (st.commandFile c.boxId) then fs
  else
    match c.contentType with
    | .revision => deleteControlFiles env c fs c.sourceList
    | type =>
        let manifest := st.manifestFile c.boxId type
        if fs.fileExists manifest &&
            checkRev env c.boxId fs (manifest.getLast?.getD []) = CheckStatus.downloadOk.toInt then
          let collected :=
            collectContentFromFile env { c with standartSourceFiles := [] } fs manifest
          let scanned :=
            if type = .music then
              collectContentFromPath collected.1 collected.2 collected.1.destination
            else collectContentFromDir collected.1 collected.2 collected.1.destination
          let found := matchLoop scanned collected.2 scanned.destination
            scanned.standartSourceFiles [] scanned.sourceList
          removeLoop found.1 collected.2 found.2
        else fs

/-- `Content::sync`: whether a file was installed, and the disk. -/
def sync (fs : FileSystem) : Bool × FileSystem :=
  let copied := copyToDestination env c fs
  (copied.1, deleteExcessFiles env c copied.2)

end Content

end MediaUpdater
