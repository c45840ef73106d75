import MergeRisk.Attribution

/-! What a history of revisions tells about a merge. A history answers three lookups, each of which
may fail; the merge-level answers are derived from them and fail with the first lookup that does. -/

namespace MergeRisk

structure History where
  /-- The files changed between two revisions. -/
  changedFiles : (old new : String) → Except Failure (SortedSet String)
  /-- The methods of a file changed between two revisions. -/
  changedMethods : (path old new : String) → Except Failure MethodSet
  /-- The name of the type that a file declares at a revision. -/
  typeName : (path revision : String) → Except Failure String

/-- A method with the versions of both parents. -/
structure MutualVersions where
  left : ChangedMethod
  right : ChangedMethod
deriving DecidableEq

namespace History

/-- The files that either parent changed. -/
def filesOfEither (history : History) (commit : MergeCommit) :
    Except Failure (SortedSet String) := do
  let left ← history.changedFiles commit.ancestor commit.left
  let right ← history.changedFiles commit.ancestor commit.right
  return left.union right

/-- The files that both parents changed. -/
def filesOfBoth (history : History) (commit : MergeCommit) :
    Except Failure (SortedSet String) := do
  let left ← history.changedFiles commit.ancestor commit.left
  let right ← history.changedFiles commit.ancestor commit.right
  return left.inter right

/-- The methods of a file that both parents changed, in signature order. -/
def mutualMethods (history : History) (commit : MergeCommit) (path : String) :
    Except Failure (List MutualVersions) := do
  let left ← history.changedMethods path commit.ancestor commit.left
  let right ← history.changedMethods path commit.ancestor commit.right
  return left.toList.filterMap fun method =>
    (right.find? method.signature).map fun other => ⟨method, other⟩

/-- The methods that each parent changed, over all files; of the versions of one method in several
files the first stays. -/
def changedSets (history : History) (commit : MergeCommit) :
    Except Failure (MethodSet × MethodSet) := do
  let files ← history.filesOfEither commit
  files.toList.foldlM (fun (left, right) path => do
    let fromLeft ← history.changedMethods path commit.ancestor commit.left
    let fromRight ← history.changedMethods path commit.ancestor commit.right
    return (left.union fromLeft, right.union fromRight)) (∅, ∅)

/-- The records of the methods of one file that both parents and the merge changed. -/
def fileRecords (history : History) (project : Project) (commit : MergeCommit) (path : String) :
    Except Failure (List MethodRecord) := do
  let versions ← history.mutualMethods commit path
  if versions.isEmpty then return []
  let className ← history.typeName path commit.ancestor
  let merged ← history.changedMethods path commit.ancestor commit.merge
  return merged.toList.filterMap fun method =>
    (versions.find? (·.left.signature == method.signature)).map fun version =>
      ⟨project, commit, className, method.signature, .ofVersions method version.left version.right⟩

/-- The records of a merge, file by file. -/
def records (history : History) (project : Project) (commit : MergeCommit) :
    Except Failure (List MethodRecord) := do
  let files ← history.filesOfBoth commit
  return (← files.toList.mapM (history.fileRecords project commit)).flatten

end History

end MergeRisk
