import MergeRisk.CommandLine.Run
import MergeRisk.Storage.Basic
import Std.Time.DateTime.Timestamp

/-! The program: reads the files and the repository that a command needs, runs it, writes its file
and prints its text. -/

namespace MergeRisk.Main

open CommandLine

/-- What is at a path. -/
def fileState (path : String) : IO FileState := do
  try
    return .content (← IO.FS.readBinFile path).toList
  catch
    | .noFileOrDirectory .. => return .missing
    | _ => return .unreadable

def isDirectory (path : String) : IO Bool := do
  try return (← (← IO.FS.realPath path).isDir)
  catch _ => return false

/-- The seconds since the start of 1970. -/
def secondsNow : IO Int := do
  let now ← Std.Time.Timestamp.now
  return now.toSecondsSinceUnixEpoch.val

/-- The files below a directory, by their paths from it. -/
partial def filesBelow (directory start : String) : IO (List (String × ByteArray)) := do
  let entries ← (← IO.FS.realPath (directory ++ "/" ++ start)).readDir
  let found ← entries.toList.mapM fun entry => do
    let path := start ++ "/" ++ entry.fileName
    if ← entry.path.isDir then filesBelow directory path
    else return [(path, ← IO.FS.readBinFile entry.path)]
  return found.flatten

/-- A file, if it can be read. -/
def fileIn (directory path : String) : IO (List (String × ByteArray)) := do
  match ← fileState (directory ++ "/" ++ path) with
  | .content bytes => return [(path, ⟨bytes.toArray⟩)]
  | _ => return []

/-- A directory's files, none if there is no such directory. -/
def filesIn (directory path : String) : IO (List (String × ByteArray)) := do
  try filesBelow directory path
  catch _ => return []

/-- The directory that a repository shares with others, or its own one. -/
def sharedDirectory (own : String) : IO String := do
  match ← fileState (own ++ "/commondir") with
  | .content content =>
    let path := String.ofList (Reference.trimEnd (Repository.fileText content))
    return if path.startsWith "/" then path else own ++ "/" ++ path
  | _ => return own

/-- The stored repository with the given directories, of its own and of its data. -/
def storeIn (own shared : String) : IO (Option Storage.Store) := do
  let head ← fileIn own Revision.current
  let objects ← filesIn shared "objects"
  if head.isEmpty || !(← isDirectory (shared ++ "/refs")) then return none
  let listed ← fileIn shared Repository.listPath
  let references ← filesIn shared "refs"
  let logs ← filesIn shared "logs"
  return some (.ofFiles (head ++ listed ++ references ++ logs ++ objects))

/-- The configuration in a directory, if it can be used. -/
def configurationIn (shared : String) : IO (Option Configuration) := do
  match ← fileState (shared ++ "/" ++ Repository.settingsPath) with
  | .content content => return (Configuration.read? content).filter (·.isKnown)
  | _ => return some {}

/-- The directory that a file of links in a directory gives. -/
def linkedIn (directory : String) (content : Text.Bytes) : String :=
  match Repository.linkTarget? content with
  | some target => if target.startsWith "/" then target else directory ++ "/" ++ target
  | none => directory ++ "/" ++ Workspace.dataDirectory

/-- The own directory of the repository at a path, with the directory of its files. -/
def directoriesAt (path : String) : IO (String × String) := do
  let inner := path ++ "/" ++ Workspace.dataDirectory
  if ← isDirectory inner then return (inner, path)
  if let .content content ← fileState inner then return (linkedIn path content, path)
  let outer := path ++ "/.."
  if let .content content ← fileState path then
    let directory := ((Text.splitLast? '/' path.toList).map (·.1)).getD ['.']
    let directory := String.ofList directory
    if Text.endsWith Workspace.dataDirectory.toList path.toList then
      return (linkedIn directory content, directory)
  return (path, outer)

/-- The files of attributes below a directory, by the directories they are in. -/
partial def attributeFiles (home directory : String) : IO (List (String × Text.Bytes)) := do
  let entries ← (← IO.FS.realPath (home ++ "/" ++ directory)).readDir
  let found ← entries.toList.mapM fun entry => do
    if ← entry.path.isDir then
      if entry.fileName = Workspace.dataDirectory then return []
      attributeFiles home (directory ++ entry.fileName ++ "/")
    else if entry.fileName = Workspace.attributeName then
      return [(directory, (← IO.FS.readBinFile entry.path).toList)]
    else return []
  return found.flatten

/-- The attributes of the paths of a repository, by the directories of its data and of its files. -/
def attributesIn (shared home : String) : IO (List AttributeFile) := do
  let first ← match ← fileState (shared ++ "/info/attributes") with
    | .content content => pure (some content)
    | _ => pure none
  let files ← try attributeFiles home "" catch _ => pure []
  return AttributeFile.readAll first files

/-- The repository at a path, as far as some revisions need it. -/
def repositoryAt (path : String) (revisions : List String) : IO (Option RepositoryPlace) := do
  let (own, home) ← directoriesAt path
  let shared ← sharedDirectory own
  match ← storeIn own shared, ← configurationIn shared with
  | some store, some configuration =>
    let name := (← IO.FS.realPath path).fileName.getD "repository"
    let repository := store.repository (← secondsNow) revisions
    let attributes ← attributesIn shared home
    return some ⟨name, { repository with attributes, configuration }⟩
  | _, _ => return none

/-- What a command can read: its files, the settings, and its repository. -/
def sourcesFor (invocation : Invocation) : IO Sources := do
  let paths := settingsPath :: invocation.settings.toList ++ invocation.command.inputFiles
  let states ← paths.mapM fun path => return (path, ← fileState path)
  let place ← match invocation.command.repository? with
    | some (path, revisions) => repositoryAt path revisions
    | none => pure none
  return {
    file := fun path => (states.lookup path).getD .missing
    repository := fun _ => place }

/-- Write a file, making the directories on its way. -/
def writeText (path text : String) : IO Unit := do
  match Text.splitLast? '/' path.toList with
  | some (directory, _) =>
    if !directory.isEmpty then IO.FS.createDirAll (String.ofList directory)
  | none => pure ()
  IO.FS.writeFile path text

/-- Report why there is no result. -/
def fail (message : String) : IO UInt32 := do
  IO.eprintln ("Error: " ++ message)
  return 1

def run (invocation : Invocation) : IO UInt32 := do
  match invocation.run (← sourcesFor invocation) with
  | .error trouble => fail trouble.message
  | .ok response =>
    try
      if let some (path, text) := response.file then writeText path text
    catch error => return ← fail (Failure.io (toString error)).message
    IO.print response.output
    return 0

end MergeRisk.Main

def main (arguments : List String) : IO UInt32 := do
  match MergeRisk.CommandLine.Invocation.read arguments with
  | .ok invocation => MergeRisk.Main.run invocation
  | .error stop =>
    let ending := stop.ending
    if stop = .refused then IO.eprintln "error: unusable arguments; see --help"
    IO.print ending.output
    return ending.status.toUInt32
