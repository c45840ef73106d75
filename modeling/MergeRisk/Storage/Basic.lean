import MergeRisk.Storage.Pack
import Std.Data.HashMap

/-! Repositories as they are stored: objects, alone or in packs, and the names that refer to them. -/

namespace MergeRisk.Storage

/-- The files of a repository's own directory, by their paths in it, and its packs. -/
structure Store where
  files : Std.HashMap String ByteArray
  packs : List Pack

namespace Store

def ofFiles (files : List (String × ByteArray)) : Store :=
  let table := Std.HashMap.ofList files
  let packs := files.filterMap fun (path, index) => do
    let stem ← Text.stripEnd? ".idx".toList path.toList
    return ⟨index, ← table[String.ofList (stem ++ ".pack".toList)]?⟩
  ⟨table, packs⟩

/-! ### Objects -/

/-- Where an object stored alone is kept. -/
def objectPath (id : String) : String :=
  "objects/" ++ String.ofList (id.toList.take 2) ++ "/" ++ String.ofList (id.toList.drop 2)

def object? (store : Store) (id : String) : Option StoredObject :=
  match store.files[objectPath id]? with
  | some bytes => (Inflate.zlib? bytes 0).bind StoredObject.ofBytes?
  | none => store.packs.findSome? (·.object? id)

/-- The identifiers of all objects. -/
def ids (store : Store) : List String :=
  let alone := store.files.keys.filterMap fun path => do
    let rest ← Text.stripStart? "objects/".toList path.toList
    let id := rest.filter (· != '/')
    guard (id.length = 2 * idSize)
    return String.ofList id
  alone ++ store.packs.flatMap fun pack => (List.range pack.size).map pack.idAt

/-- The object that tags lead to from one. -/
def untagged (store : Store) : (fuel : Nat) → (id : String) → String
  | 0, id => id
  | fuel + 1, id =>
    match (store.object? id).bind taggedId? with
    | some tagged => store.untagged fuel tagged
    | none => id

def commitHeader? (store : Store) (id : String) : Option CommitHeader :=
  (store.object? id).bind CommitHeader.ofObject?

/-- The files of a tree, below a path; trees nest at most as deep as the fuel. -/
def filesBelow (store : Store) : (fuel : Nat) → (path : String) → (id : String) → List SourceFile
  | 0, _, _ => []
  | fuel + 1, path, id =>
    match store.object? id with
    | none => []
    | some object =>
      (treeEntries object).flatMap fun entry =>
        if entry.isTree then store.filesBelow fuel (path ++ entry.name ++ "/") entry.id
        else ((store.object? entry.id).map fun content =>
          (⟨path ++ entry.name, content.payload.toList⟩ : SourceFile)).toList

/-- How deep trees, tags and references are followed. -/
def depthLimit : Nat := 1024

def treeWithId (store : Store) (id : String) : Tree :=
  .ofList (store.filesBelow depthLimit "" id)

def tree (store : Store) (id : String) : Tree :=
  match store.commitHeader? id with
  | some header => store.treeWithId header.tree
  | none => ∅

/-! ### Names -/

/-- The references and logs, without the objects. References to tags mean what the tags do. -/
def names (store : Store) : Repository :=
  let files := store.files.toList.filterMap fun (path, bytes) =>
    if Text.startsWith "objects/".toList path.toList then none else some (path, bytes.toList)
  let names := Repository.ofFiles files
  { names with references := names.references.map fun (name, reference) =>
      match reference with
      | .object id => (name, .object (store.untagged depthLimit id))
      | other => (name, other) }

/-- The identifiers that start with some digits, if these are enough. -/
def idsStarting (store : Store) (digits : String) : List String :=
  if Repository.leastDigits ≤ digits.length && digits.toList.all Text.isHexDigit then
    store.ids.filter fun id => Text.startsWith digits.toLower.toList id.toList
  else []

/-- All that a reference means and meant. -/
def meanings (names : Repository) (name : String) : List String :=
  match names.reference? name with
  | none => []
  | some (full, id) =>
    let logs := [full, Revision.current].flatMap fun name => (names.logs.lookup name).getD []
    id :: logs.map (·.id)

/-- The objects that must be known to tell where a revision starts. -/
def startIds (store : Store) (names : Repository) : Revision.Start → List String
  | .named name =>
    match names.reference? name with
    | some (_, id) => id :: if Reference.isId name.toList then [name.toLower] else []
    | none => (name :: (Repository.describedDigits? name).toList).flatMap store.idsStarting
  | .logged name _ => meanings names name
  | .dated name _ => meanings names name
  | .left _ => names.referenced
  | .matching _ => names.referenced

/-! ### Repositories -/

/-- The commits that some commits descend from, and these themselves, without their files. -/
def commitsFrom (store : Store) (starts : List String) : List Commit :=
  let parents (id : String) : List String := ((store.commitHeader? id).map (·.parents)).getD []
  let rounds := store.ids.length
  let found := starts.flatMap fun start => start :: (search parents rounds start).map (·.1)
  found.eraseDups.filterMap fun id => do
    let header ← store.commitHeader? id
    return ⟨id, header.parents, header.time, header.message, ∅⟩

/-- A tree or a content. -/
def other? (store : Store) (id : String) : Option Object := do
  let object ← store.object? id
  match object.kind with
  | .tree => return .tree (store.treeWithId id)
  | .content => return .content object.payload.toList
  | _ => none

/-- Whether a step ends at a commit if it can be taken from one. -/
def keepsCommit : Revision.Step → Bool
  | .kind .tree => false
  | .path _ => false
  | _ => true

/-- The commit that the files of a revision belong to. -/
def commitOf? (repository : Repository) (revision : String) : Option Commit := do
  let revision ← Revision.read? revision
  let start ← repository.startAt? revision.start
  (← (revision.steps.takeWhile keepsCommit).foldlM repository.stepFrom? start).commit?

/-- The commits whose files a question about a revision needs: its own and those of its merge. -/
def neededFor (repository : Repository) (revision : String) : List String :=
  match repository.mergeCommit revision with
  | .ok commit => [commit.ancestor, commit.left, commit.right, commit.merge]
  | .error _ => ((commitOf? repository revision).map (·.id)).toList

/-- The repository at some time, as far as the given revisions need it. -/
def repository (store : Store) (now : Int) (revisions : List String) : Repository :=
  let names := { store.names with now }
  let starts := ((revisions.filterMap Revision.read?).flatMap fun revision =>
    store.startIds names revision.start).eraseDups
  let bare := { names with
    commits := store.commitsFrom starts
    others := starts.filterMap fun id => (store.other? id).map fun object => (id, object) }
  let needed := revisions.flatMap (neededFor bare)
  { bare with commits := bare.commits.map fun commit =>
      if needed.contains commit.id then { commit with tree := store.tree commit.id } else commit }

end Store

end MergeRisk.Storage
