import MergeRisk.History
import MergeRisk.Path
import MergeRisk.Repository.Patch
import MergeRisk.SpanFile
import MergeRisk.TypeName

/-! The history of a repository: changed lines from its diffs, methods from recorded spans. -/

namespace MergeRisk.Repository

/-- The changes of one file between two revisions. -/
def fileDiff (repository : Repository) (path old new : String) :
    Except Failure (Option FileDiff) := do
  return (← repository.fileDiffs old new (some path)).find? fun file => Path.same file.path path

/-- The spans of a file at a revision; none where there is no such file. -/
def spansAt (repository : Repository) (spans : SpanFile) (path revision : String) :
    Except Failure (List MethodSpan) := do
  match ← (repository.fileAt path revision).mapError Fault.failure with
  | some content => return spans.locate path content
  | none => return []

def changedMethods (repository : Repository) (spans : SpanFile) (path old new : String) :
    Except Failure MethodSet := do
  match ← repository.fileDiff path old new with
  | none => return ∅
  | some file =>
    let oldSpans ← repository.spansAt spans path old
    let newSpans ← repository.spansAt spans path new
    return methodsTouched oldSpans newSpans file.changedLines

/-- The type that a file declares; the revision must be there, the file need not. -/
def typeName (repository : Repository) (path revision : String) : Except Failure String := do
  let _ ← (repository.fileAt path revision).mapError Fault.failure
  return TypeName.ofPath path

def history (repository : Repository) (spans : SpanFile) : History where
  changedFiles old new := (repository.changedFiles old new).mapError Fault.failure
  changedMethods := repository.changedMethods spans
  typeName := repository.typeName

end MergeRisk.Repository
