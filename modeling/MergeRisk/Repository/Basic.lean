import MergeRisk.Date.Reader
import MergeRisk.Failure
import MergeRisk.Merge
import MergeRisk.Repository.Attribute
import MergeRisk.Repository.Configuration
import MergeRisk.Repository.Reference
import MergeRisk.Search

/-! Repositories as values: objects, references to them, and what revisions mean there. -/

namespace MergeRisk

open Text (Bytes)

/-- Commits, the other objects by their identifiers, the references by their full names, the logs of
these, latest entry first, the attributes of paths, the configuration, and the time at which questions
are asked. -/
structure Repository where
  commits : List Commit := []
  others : List (String × Object) := []
  references : List (String × Reference) := []
  logs : List (String × List LogEntry) := []
  attributes : List AttributeFile := []
  configuration : Configuration := {}
  now : Int := 0
deriving DecidableEq

namespace Repository

/-- Why a repository has no answer. -/
inductive Fault where
  | notFound
  | unknownMerge
  /-- The revision is not a merge of two parents. -/
  | parentCount (revision : String) (count : Nat)
  | unrelatedParents
  | unknownRevision (revision : String)
  /-- The path does not start with the name of a file or directory. -/
  | badPath
  | notAFile
deriving DecidableEq, Repr

def Fault.reason : Fault → String
  | notFound => "failed to open repository"
  | unknownMerge => "failed to resolve merge revision"
  | parentCount revision count =>
    revision ++ " has " ++ toString count ++ " parents, expected a two-parent merge"
  | unrelatedParents => "failed to find merge base"
  | unknownRevision revision => "failed to resolve tree of " ++ revision
  | badPath => "failed to look up path"
  | notAFile => "failed to read blob"

def Fault.failure (fault : Fault) : Failure :=
  .repository fault.reason

/-! ### Objects -/

def commitWithId? (repository : Repository) (id : String) : Option Commit :=
  repository.commits.find? (·.id == id)

def objectWithId? (repository : Repository) (id : String) : Option Object :=
  if id = Tree.emptyId then some (.tree ∅)
  else ((repository.commitWithId? id).map .commit).orElse fun _ => repository.others.lookup id

/-- The identifiers of all objects. -/
def ids (repository : Repository) : List String :=
  repository.commits.map (·.id) ++ repository.others.map (·.1)

/-- How many digits of an identifier must be given at least. -/
def leastDigits : Nat := 4

/-- The one object whose identifier starts with some digits. -/
def abbreviated? (repository : Repository) (digits : String) : Option Object := do
  guard (leastDigits ≤ digits.length && digits.toList.all Text.isHexDigit)
  let start := digits.toLower.toList
  let [id] := (repository.ids.filter fun id => Text.startsWith start id.toList).eraseDups | none
  repository.objectWithId? id

/-! ### Names -/

/-- How often one reference may refer to another. -/
def referenceDepth : Nat := 5

/-- The last of the references that lead from a full name to an object, and that object. -/
def resolved? (repository : Repository) : (fuel : Nat) → (name : String) → Option (String × String)
  | 0, _ => none
  | fuel + 1, name =>
    match repository.references.lookup name with
    | some (.object id) => some (name, id)
    | some (.name other) => repository.resolved? fuel other
    | none => none

/-- The reference that a short name stands for, and what it means. No name is the current one. -/
def reference? (repository : Repository) (name : String) : Option (String × String) :=
  if name = "" then repository.resolved? (referenceDepth + 1) Revision.current
  else ((Reference.paths name).filter Reference.isName).findSome?
    (repository.resolved? (referenceDepth + 1))

/-- The digits at the end of a description: a name, how many commits lie between, and an identifier
after a `g`. -/
def describedDigits? (name : String) : Option String := do
  let described ← Pattern.read? ".+-[0-9]+-g[0-9a-fA-F]+"
  guard (described.occursIn name)
  let (_, digits) ← Text.cut? ['-', 'g'] name.toList
  return String.ofList digits

/-- The object with a name: an identifier, a reference, the start of an identifier, or a description
of a commit. -/
def objectNamed? (repository : Repository) (name : String) : Option Object :=
  let whole := if Reference.isId name.toList then repository.objectWithId? name.toLower else none
  whole.orElse fun _ =>
    match repository.reference? name with
    | some (_, id) => repository.objectWithId? id
    | none =>
      if (Reference.paths name).getLast?.all Reference.isName then
        (repository.abbreviated? name).orElse fun _ =>
          (describedDigits? name).bind repository.abbreviated?
      else none

/-! ### Logs -/

/-- The greatest number that counts entries of a log; a greater one is a time. -/
def entryLimit : Int := 100000000

/-- The entry of a log with a number, or the latest one at a time. Before the first entry, that one
counts. -/
def entryOf? (log : List LogEntry) (number : Int) : Option LogEntry :=
  if 0 ≤ number ∧ number ≤ entryLimit then log[number.toNat]?
  else (log.find? fun entry => entry.stamp.time ≤ number).orElse fun _ => log.getLast?

/-- What a reference meant by its log. The current revision has a log of its own. -/
def logged? (repository : Repository) (name : String) (number : Int) : Option Object := do
  let (full, id) ← repository.reference? name
  if number = 0 then repository.objectWithId? id
  else
    let full := if name = Revision.current then name else full
    let entry ← entryOf? ((repository.logs.lookup full).getD []) number
    repository.objectWithId? entry.id

/-- The branch that was left so many changes of branches ago. -/
def left? (repository : Repository) (count : Nat) : Option Object := do
  let branches := ((repository.logs.lookup Revision.current).getD []).filterMap LogEntry.left?
  let branch ← branches[count - 1]?
  match repository.reference? branch with
  | some (_, id) => repository.objectWithId? id
  | none => repository.abbreviated? branch

/-! ### Searching -/

def parentsOf (repository : Repository) (id : String) : List String :=
  ((repository.commitWithId? id).map (·.parents)).getD []

/-- A commit and all it descends from. -/
def lineage (repository : Repository) (id : String) : List String :=
  id :: (search repository.parentsOf repository.commits.length id).map (·.1)

/-- The youngest of some commits and those they descend from with a message in which a pattern
occurs. -/
def matching? (repository : Repository) (starts : List String) (pattern : Pattern) : Option Commit :=
  let reached := (starts.flatMap repository.lineage).eraseDups.filterMap repository.commitWithId?
  (reached.mergeSort fun first second => second.time ≤ first.time).find? fun commit =>
    pattern.occursIn commit.message

/-- What the references mean, but for those outside their common directory. -/
def referenced (repository : Repository) : List String :=
  repository.references.filterMap fun (name, _) => do
    guard (Text.startsWith "refs/".toList name.toList)
    return (← repository.resolved? (referenceDepth + 1) name).2

/-! ### Revisions -/

def startAt? (repository : Repository) : Revision.Start → Option Object
  | .named name => repository.objectNamed? name
  | .logged name number => repository.logged? name number
  | .dated name date => (Date.read? repository.now date).bind (repository.logged? name)
  | .left count => repository.left? count
  | .matching pattern => (repository.matching? repository.referenced pattern).map .commit

def parent? (repository : Repository) (commit : Commit) (index : Nat) : Option Commit :=
  commit.parents[index]?.bind repository.commitWithId?

/-- The commit so many first parents before another. -/
def back? (repository : Repository) : (count : Nat) → Commit → Option Commit
  | 0, commit => some commit
  | count + 1, commit => (repository.parent? commit 0).bind (repository.back? count)

/-- The object that a step leads to. -/
def stepFrom? (repository : Repository) (object : Object) : Revision.Step → Option Object
  | .parent 0 => object.commit?.map .commit
  | .parent (index + 1) => do
    return .commit (← repository.parent? (← object.commit?) index)
  | .back count => do
    return .commit (← repository.back? count (← object.commit?))
  | .kind kind => object.ofKind? kind
  | .untagged => some object
  | .matching pattern => do
    return .commit (← repository.matching? [(← object.commit?).id] pattern)
  | .path path => do
    let tree ← object.tree?
    if path = "" then return .tree tree else tree.objectAt? path

/-- The object that a revision means. -/
def object? (repository : Repository) (revision : String) : Option Object := do
  let revision ← Revision.read? revision
  revision.steps.foldlM repository.stepFrom? (← repository.startAt? revision.start)

/-- The commit that a revision means. -/
def commit? (repository : Repository) (revision : String) : Option Commit :=
  (repository.object? revision).bind Object.commit?

/-- A common ancestor of two commits from which no other common one descends. -/
def mergeBase? (repository : Repository) (first second : String) : Option String :=
  let other := repository.lineage second
  let shared := (repository.lineage first).filter other.contains
  shared.find? fun id => shared.all fun later =>
    later == id || !(repository.lineage later).contains id

/-- The four revisions of a merge of two parents. -/
def mergeCommit (repository : Repository) (revision : String) : Except Fault MergeCommit :=
  match repository.commit? revision with
  | none => .error .unknownMerge
  | some commit =>
    match commit.parents with
    | [left, right] =>
      match repository.mergeBase? left right with
      | some base => .ok ⟨base, left, right, commit.id⟩
      | none => .error .unrelatedParents
    | parents => .error (.parentCount revision parents.length)

def treeOf (repository : Repository) (revision : String) : Except Fault Tree :=
  match (repository.object? revision).bind Object.tree? with
  | some tree => .ok tree
  | none => .error (.unknownRevision revision)

/-- Whether a path starts with a name, as the paths of a tree do. -/
def isTreePath (path : List Char) : Bool :=
  let first := Text.before '/' path
  path != [] && path.head? != some '/' && first != ['.'] && first != ['.', '.'] &&
    !path.contains '\x00'

/-- The text of a file at a revision, if there is one at the path. -/
def fileAt (repository : Repository) (path revision : String) : Except Fault (Option String) := do
  let tree ← repository.treeOf revision
  if !isTreePath path.toList then throw .badPath
  match tree.objectAt? path with
  | some (.content content) => return some (Text.decodeLossy content)
  | some _ => throw .notAFile
  | none => return none

/-! ### Making -/

/-- Add the commit that a draft makes, with what its tree holds. -/
def record (repository : Repository) (draft : Draft) : Commit × Repository :=
  let (commit, objects) := draft.made
  let added := objects.filter fun (id, _) => !repository.others.any (·.1 == id)
  (commit, { repository with
    commits := repository.commits ++ [commit]
    others := repository.others ++ added })

/-- Let a reference mean something from now on. -/
def refer (repository : Repository) (name : String) (reference : Reference) : Repository :=
  { repository with
    references := repository.references.filter (·.1 != name) ++ [(name, reference)] }

/-- Write a change of a reference to its log. -/
def log (repository : Repository) (name : String) (entry : LogEntry) : Repository :=
  let earlier := (repository.logs.lookup name).getD []
  { repository with logs := (name, entry :: earlier) :: repository.logs.filter (·.1 != name) }

end Repository

end MergeRisk
