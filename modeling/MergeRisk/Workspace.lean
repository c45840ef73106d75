import MergeRisk.Repository.Files
import MergeRisk.Sources

/-! A directory tree as a value, with the directory that paths start from. A path leads step by step
to a place; every step is taken from a directory. -/

namespace MergeRisk

open Text (Bytes)

/-- The names on the way to a file or directory. It leads from the working directory, first up by
steps `..` if need be, or from the root of all directories, `/`. -/
abbrev Place := List String

/-- The place that a step of a path leads to. There is nothing above the root. -/
def Place.step (place : Place) (name : String) : Place :=
  if name = "" ∨ name = "." then place
  else if name = ".." then
    match place.getLast? with
    | none => [".."]
    | some last =>
      if last = ".." then place ++ [".."]
      else if last = "/" then place
      else place.dropLast
  else place ++ [name]

/-- Files, the directories that were made without them, the objects of repositories by the directories
that these keep to themselves, and what was shown instead of stored. -/
structure Workspace where
  files : List (Place × Bytes) := []
  directories : List Place := []
  stores : List (Place × Repository) := []
  shown : Bytes := []

/-- Files that store nothing. -/
inductive Device where
  /-- Takes everything and stays empty. -/
  | sink
  /-- Takes nothing. -/
  | full
  /-- Shows what it takes. -/
  | screen
deriving DecidableEq, Repr

/-- The devices with numbers: input, the screen, and where errors are shown. -/
def Device.numbered? : String → Option Device
  | "0" => some sink
  | "1" => some screen
  | "2" => some sink
  | _ => none

def Device.at? : Place → Option Device
  | ["/", "dev", "null"] => some sink
  | ["/", "dev", "zero"] => some sink
  | ["/", "dev", "full"] => some full
  | ["/", "dev", "stdin"] => some sink
  | ["/", "dev", "stdout"] => some screen
  | ["/", "dev", "stderr"] => some sink
  | ["/", "dev", "fd", number] => numbered? number
  | ["/", "proc", "self", "fd", number] => numbered? number
  | _ => none

namespace Workspace

/-! ### Paths -/

/-- A path must be shorter than this many bytes. -/
def pathLimit : Nat := 4096

/-- How many bytes a name may have. -/
def nameLimit : Nat := 255

/-- The start of a path and its steps; `none` for a path that no file can have. -/
def steps? (path : String) : Option (Place × List String) := do
  guard (path != "" && !path.toList.contains '\x00' && path.utf8ByteSize < pathLimit)
  let start := if path.toList.head? = some '/' then ["/"] else []
  return (start, (path.toList.splitOn '/').map String.ofList)

def isName (step : String) : Bool :=
  step.utf8ByteSize ≤ nameLimit

/-! ### Looking -/

/-- The directories below the root that are always there. -/
def systemDirectories : List Place :=
  [["bin"], ["dev", "fd"], ["etc"], ["home"], ["lib"], ["mnt"], ["opt"], ["proc", "self", "fd"],
    ["root"], ["run"], ["sbin"], ["srv"], ["sys"], ["tmp"], ["usr"], ["var"]].map fun names =>
      "/" :: names

/-- The directories in which nothing can be made. -/
def closedDirectories : List Place :=
  [["/", "proc"], ["/", "sys"], ["/", "dev", "fd"]]

def fileAt? (workspace : Workspace) (place : Place) : Option Bytes :=
  if (Device.at? place).isSome then some [] else workspace.files.lookup place

/-- Whether a directory is at a place: one that is always there or was made, or one that holds
something. -/
def isDirectory (workspace : Workspace) (place : Place) : Bool :=
  place.all (· == "..") || systemDirectories.any place.isPrefixOf ||
    workspace.directories.any place.isPrefixOf ||
    workspace.files.any fun (inner, _) => place.isPrefixOf inner && inner != place

/-- Take the steps of a path from a place. -/
def follow? (workspace : Workspace) : Place → (steps : List String) → Option Place
  | place, [] => some place
  | place, step :: steps =>
    if workspace.isDirectory place then follow? workspace (place.step step) steps else none

/-- The place that a path leads to. -/
def place? (workspace : Workspace) (path : String) : Option Place := do
  let (start, steps) ← steps? path
  workspace.follow? start steps

def fileState (workspace : Workspace) (path : String) : FileState :=
  match workspace.place? path with
  | none => .missing
  | some place =>
    match workspace.fileAt? place with
    | some content => .content content
    | none => if workspace.isDirectory place then .unreadable else .missing

/-! ### Repositories -/

/-- The directory in which a repository keeps its data. -/
def dataDirectory : String := ".git"

/-- The files below a directory, by their paths from there. -/
def filesBelow (workspace : Workspace) (directory : Place) : List (String × Bytes) :=
  workspace.files.filterMap fun (place, content) =>
    if directory.isPrefixOf place then
      some (Text.joined "/" (place.drop directory.length), content)
    else none

/-- The place that a path leads to from a directory. -/
def placeFrom? (workspace : Workspace) (directory : Place) (path : String) : Option Place := do
  let (start, steps) ← steps? path
  workspace.follow? (if start.isEmpty then directory else start) steps

/-- The directory that a repository shares with others, if it does: a file in its own one gives it. -/
def sharedDirectory? (workspace : Workspace) (own : Place) : Option Place :=
  match workspace.fileAt? (own ++ ["commondir"]) with
  | none => some own
  | some content =>
    workspace.placeFrom? own (String.ofList (Reference.trimEnd (Repository.fileText content)))

/-- Whether a directory holds what every repository's own one does. -/
def isRepository (workspace : Workspace) (place : Place) : Bool :=
  (workspace.fileAt? (place ++ [Revision.current])).isSome &&
    (workspace.sharedDirectory? place).any fun shared =>
      workspace.isDirectory (shared ++ ["objects"]) && workspace.isDirectory (shared ++ ["refs"])

/-- The place that a file of links gives, from the directory it is in. -/
def linked? (workspace : Workspace) (directory : Place) (content : Bytes) : Option Place := do
  let place ← workspace.placeFrom? directory (← Repository.linkTarget? content)
  guard (workspace.isRepository place)
  return place

/-- The directories of the repository at a place: that of its own, which is in it, which a file in it
links to, or which is the place itself, and that of its files. -/
def repositoryDirectories? (workspace : Workspace) (place : Place) : Option (Place × Place) :=
  let inner := place ++ [dataDirectory]
  if workspace.isRepository inner then some (inner, place)
  else match workspace.fileAt? inner with
  | some content => (workspace.linked? place content).map (·, place)
  | none =>
    let outer := place.step ".."
    if workspace.isRepository place then some (place, outer)
    else if place.getLast? = some dataDirectory then
      ((workspace.fileAt? place).bind (workspace.linked? outer)).map (·, outer)
    else none

/-- The name of the files that give attributes to the paths in their directory. -/
def attributeName : String := ".gitattributes"

/-- The attributes of the paths in a repository, by the directories of its data and of its files. -/
def attributesIn (workspace : Workspace) (shared home : Place) : List AttributeFile :=
  AttributeFile.readAll (workspace.fileAt? (shared ++ ["info", "attributes"]))
    ((workspace.filesBelow home).filterMap fun (path, content) => do
      let directory ← Text.stripEnd? attributeName.toList path.toList
      guard (directory.getLast?.all (· == '/'))
      return (String.ofList directory, content))

/-- The files with which a repository names its objects. What it shares does not include the current
revision. -/
def nameFiles (workspace : Workspace) (own shared : Place) : List (String × Bytes) :=
  if own = shared then workspace.filesBelow own
  else
    let isOwn (path : String) : Bool :=
      !path.toList.contains '/' && path != Repository.listPath ||
        path == Repository.logDirectory ++ Revision.current
    (workspace.filesBelow own).filter (isOwn ·.1) ++
      (workspace.filesBelow shared).filter (!isOwn ·.1)

/-- The configuration of a repository, by the directory of its data. It must be readable, and of a
known version. -/
def configurationIn? (workspace : Workspace) (shared : Place) : Option Configuration :=
  match workspace.fileAt? (shared ++ [Repository.settingsPath]) with
  | none => some {}
  | some content => (Configuration.read? content).filter (·.isKnown)

/-- The repository with the given two directories. -/
def repositoryIn? (workspace : Workspace) (own home : Place) : Option Repository := do
  let shared := (workspace.sharedDirectory? own).getD own
  let configuration ← workspace.configurationIn? shared
  return { (Repository.ofFiles (workspace.nameFiles own shared)).withObjects
      ((workspace.stores.lookup shared).getD {}) with
    attributes := workspace.attributesIn shared home
    configuration }

def repositoryPlace? (workspace : Workspace) (path : String) : Option RepositoryPlace := do
  let place ← workspace.place? path
  let (own, home) ← workspace.repositoryDirectories? place
  return ⟨place.getLast?.getD "repository", ← workspace.repositoryIn? own home⟩

def sources (workspace : Workspace) : Sources where
  file := workspace.fileState
  repository := workspace.repositoryPlace?

/-! ### Writing -/

/-- Whether a new file can be at a place. -/
def isOpen (place : Place) : Bool :=
  !closedDirectories.any (·.isPrefixOf place)

/-- Put a file at a place, instead of one already there. -/
def setFile (workspace : Workspace) (place : Place) (content : Bytes) : Workspace :=
  { workspace with files := workspace.files.filter (·.1 != place) ++ [(place, content)] }

/-- Write at a place. -/
def put? (workspace : Workspace) (place : Place) (content : Bytes) : Option Workspace :=
  match Device.at? place with
  | none => if isOpen place then some (workspace.setFile place content) else none
  | some .sink => some workspace
  | some .full => none
  | some .screen => some { workspace with shown := workspace.shown ++ content }

/-- Put files at their paths. -/
def addFiles (workspace : Workspace) (files : List (String × Bytes)) : Workspace :=
  files.foldl (fun workspace (path, content) =>
    match steps? path with
    | some (start, steps) => workspace.setFile (steps.foldl Place.step start) content
    | none => workspace) workspace

/-- The workspace with the given files and nothing else. -/
def ofFiles (files : List (String × Bytes)) : Workspace :=
  ({} : Workspace).addFiles files

/-- Make a directory. Only the innermost of the made ones are recorded. -/
def addDirectory (workspace : Workspace) (place : Place) : Workspace :=
  if workspace.isDirectory place then workspace
  else { workspace with
    directories := place :: workspace.directories.filter (!·.isPrefixOf place) }

/-- Keep a repository in a directory. -/
def addRepository (workspace : Workspace) (home : Place) (repository : Repository) : Workspace :=
  let directory := home ++ [dataDirectory]
  let inner (path : String) : Place := directory ++ path.splitOn "/"
  let added := { workspace with
    files := workspace.files ++ repository.files.map fun (path, text) =>
      (inner path, Text.encode text)
    stores := (directory, repository) :: workspace.stores }
  Repository.standardDirectories.foldl (fun workspace path => workspace.addDirectory (inner path))
    added

/-- Make the directories on the way from a place, where they are missing. Fails where a file is in
the way. -/
def makeDirectories? : (workspace : Workspace) → Place → (steps : List String) → Option Workspace
  | workspace, _, [] => some workspace
  | workspace, place, step :: steps =>
    let next := place.step step
    if (workspace.fileAt? next).isSome then none
    else makeDirectories? (workspace.addDirectory next) next steps

/-- Write a file, making the directories on its way. Every name on it must be short enough. -/
def write (workspace : Workspace) (path : String) (content : Bytes) :
    Except Failure Workspace :=
  let written := do
    let (start, steps) ← steps? path
    let grown ← workspace.makeDirectories? start steps.dropLast
    let place ← grown.follow? start steps
    guard (steps.all isName && !grown.isDirectory place)
    grown.put? place content
  match written with
  | some workspace => .ok workspace
  | none => .error (.io (path ++ " cannot be written"))

end Workspace

end MergeRisk
