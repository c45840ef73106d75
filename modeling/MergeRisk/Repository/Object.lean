import MergeRisk.Ordered
import MergeRisk.Repository.Revision
import MergeRisk.Sha1
import MergeRisk.Text.Hex

/-! What a repository holds: commits, trees of files, and contents, each with an identifier that is
made from it. -/

namespace MergeRisk

open Text (Bytes)

structure SourceFile where
  path : String
  content : Bytes
deriving DecidableEq, Repr

/-- The files of a revision, in path order. -/
abbrev Tree := OrderedBy SourceFile.path

/-- The files below a directory, by their paths from there. -/
def Tree.below (tree : Tree) (directory : List Char) : Tree :=
  .ofList (tree.toList.filterMap fun file => do
    let rest ← Text.stripStart? (directory ++ ['/']) file.path.toList
    return ⟨String.ofList rest, file.content⟩)

structure Commit where
  id : String
  parents : List String
  /-- When it was made, in seconds. -/
  time : Nat
  message : String
  tree : Tree
deriving DecidableEq

/-- What a revision may mean. -/
inductive Object where
  | commit (commit : Commit)
  | tree (tree : Tree)
  | content (content : Bytes)
deriving DecidableEq

namespace Object

def commit? : Object → Option Commit
  | commit found => some found
  | _ => none

/-- The files of a commit or a tree. -/
def tree? : Object → Option Tree
  | commit found => some found.tree
  | tree found => some found
  | content _ => none

/-- The object of a kind that an object is or has. -/
def ofKind? (object : Object) : ObjectKind → Option Object
  | .commit => object.commit?.map commit
  | .tree => object.tree?.map tree
  | .content => match object with
    | content found => some (content found)
    | _ => none
  | .tag => none

end Object

/-- What is at a path of a tree: a file, or a directory, after which a slash may follow. -/
def Tree.objectAt? (tree : Tree) (path : String) : Option Object :=
  match tree.find? path with
  | some file => some (.content file.content)
  | none =>
    let below := tree.below ((Text.stripEnd? ['/'] path.toList).getD path.toList)
    if below.toList.isEmpty then none else some (.tree below)

/-! ### Identifiers -/

/-- How many digits an identifier has. -/
def idLength : Nat := 40

namespace Tree

/-- The identifier of the tree without files, which every repository has. -/
def emptyId : String := objectId "tree" []

def firstName (file : SourceFile) : List Char :=
  Text.before '/' file.path.toList

/-- An entry of a directory: its mode, a space, its name, a zero byte, and its identifier. -/
def entry (mode : String) (name : List Char) (id : String) : Bytes :=
  Text.encode (mode ++ " " ++ String.ofList name) ++ [0] ++ Text.hexBytes id.toList

/-- The identifier of a directory, given by its files in the order of their paths, and the objects in
it with theirs, itself among them. Paths in order are entries in order: a directory stands where its
name with a slash does. The paths have fewer characters than the fuel. -/
def numberedFrom : (fuel : Nat) → List SourceFile → String × List (String × Object)
  | 0, _ => (emptyId, [])
  | fuel + 1, files =>
    let part (files : List SourceFile) : Bytes × List (String × Object) :=
      match files with
      | [] => ([], [])
      | file :: _ =>
        let name := firstName file
        match (Tree.below (.ofList files) name).toList with
        | [] =>
          let id := contentId file.content
          (entry "100644" name id, [(id, .content file.content)])
        | inner =>
          let (id, objects) := numberedFrom fuel inner
          (entry "40000" name id, objects)
    let parts := (files.splitBy fun first second => firstName first == firstName second).map part
    let id := objectId "tree" (parts.flatMap (·.1))
    (id, (id, .tree (.ofList files)) :: parts.flatMap (·.2))

/-- The identifier of a tree, and the objects in it with theirs. -/
def numbered (tree : Tree) : String × List (String × Object) :=
  numberedFrom ((tree.toList.map (·.path.length)).foldl max 0 + 1) tree.toList

end Tree

/-- Who did something, and when. -/
structure Stamp where
  name : String
  email : String
  /-- In seconds. -/
  time : Nat
  zone : String := "+0000"
deriving DecidableEq, Repr

def Stamp.text (stamp : Stamp) : String :=
  stamp.name ++ " <" ++ stamp.email ++ "> " ++ toString stamp.time ++ " " ++ stamp.zone

/-- What a commit is made of. -/
structure Draft where
  parents : List String
  tree : Tree
  stamp : Stamp
  message : String

/-- The text that identifies a commit: its tree, its parents, who wrote and who made it, and its
message after an empty line. -/
def Draft.text (draft : Draft) (treeId : String) : String :=
  String.join (("tree " ++ treeId ++ "\n") ::
    draft.parents.map (fun parent => "parent " ++ parent ++ "\n") ++
    ["author " ++ draft.stamp.text ++ "\n", "committer " ++ draft.stamp.text ++ "\n", "\n",
      draft.message])

/-- The commit that a draft makes, and the objects of its tree. -/
def Draft.made (draft : Draft) : Commit × List (String × Object) :=
  let (treeId, objects) := draft.tree.numbered
  (⟨objectId "commit" (Text.encode (draft.text treeId)), draft.parents, draft.stamp.time,
    draft.message, draft.tree⟩, objects)

end MergeRisk
