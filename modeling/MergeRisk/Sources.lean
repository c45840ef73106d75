import MergeRisk.Forms
import MergeRisk.Repository.Basic
import MergeRisk.SettingsFile

/-! What a run can read: files and repositories, each looked up by its path. -/

namespace MergeRisk

open Text (Bytes)

/-- What is found at a path. -/
inductive FileState where
  | missing
  /-- There is something, but not a readable file. -/
  | unreadable
  | content (bytes : Bytes)
deriving DecidableEq, Repr

/-- A repository and the name of its directory. -/
structure RepositoryPlace where
  name : String
  repository : Repository

structure Sources where
  file : (path : String) → FileState
  repository : (path : String) → Option RepositoryPlace

namespace Sources

def isPresent (sources : Sources) (path : String) : Bool :=
  sources.file path != .missing

/-- The text of a file. -/
def text (sources : Sources) (path : String) : Except Failure String :=
  match sources.file path with
  | .missing => .error (.fileNotFound path)
  | .unreadable => .error (.io (path ++ " cannot be read"))
  | .content bytes =>
    match Text.decode? bytes with
    | some text => .ok text
    | none => .error (.io (path ++ " is not text"))

def settings (sources : Sources) (path : String) : Except Failure Settings := do
  Settings.read (← sources.text path)

def program (sources : Sources) (path : String) : Except Failure Program := do
  Program.read (← sources.text path)

def spans (sources : Sources) (path : String) : Except Failure SpanFile := do
  SpanFile.read (← sources.text path)

def scenario (sources : Sources) (path : String) : Except Failure Scenario := do
  Scenario.read (← sources.text path)

/-- The scenarios of a file that holds one or a list of them. -/
def scenarios (sources : Sources) (path : String) : Except Failure (List Scenario) := do
  match (Json.readKept? (← sources.text path)).bind Scenario.listOfJson? with
  | some scenarios => return scenarios
  | none => throw (.format (path ++ ": expected a scenario or an array of scenarios"))

def openRepository (sources : Sources) (path : String) : Except Failure RepositoryPlace :=
  match sources.repository path with
  | some place => .ok place
  | none => .error Repository.Fault.notFound.failure

end Sources

end MergeRisk
