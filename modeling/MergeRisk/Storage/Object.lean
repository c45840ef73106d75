import MergeRisk.Repository.Files

/-! The objects of a stored repository: contents, trees, commits and tags, each with the payload it
is stored as. -/

namespace MergeRisk.Storage

open Text (Bytes)

structure StoredObject where
  kind : ObjectKind
  payload : ByteArray

/-- An object with its header, as it is stored alone: kind, size and a zero byte come first. -/
def StoredObject.ofBytes? (bytes : ByteArray) : Option StoredObject := do
  let header := bytes.toList.takeWhile (· != 0)
  let text ← Text.decode? header
  let kind ← ObjectKind.ofName? (String.ofList (Text.before ' ' text.toList))
  return ⟨kind, bytes.extract (header.length + 1) bytes.size⟩

/-- How many bytes an identifier has. -/
def idSize : Nat := 20

/-! ### Commits and tags -/

/-- The values of the header lines with a name; an empty line ends the header. -/
def headerValues (name : String) (payload : ByteArray) : List String :=
  let header := (Text.lines (Text.decodeLossy payload.toList).toList).takeWhile (!·.isEmpty)
  header.filterMap fun line =>
    (Text.stripStart? (name ++ " ").toList line).map String.ofList

/-- The text after the header and the empty lines behind it. -/
def messageOf (payload : ByteArray) : String :=
  match Text.cut? ['\n', '\n'] (Text.decodeLossy payload.toList).toList with
  | some (_, message) => String.ofList (message.dropWhile (· == '\n'))
  | none => ""

/-- What a commit says of itself. -/
structure CommitHeader where
  tree : String
  parents : List String
  time : Nat
  message : String
deriving DecidableEq, Repr

def CommitHeader.ofObject? (object : StoredObject) : Option CommitHeader := do
  guard (object.kind = .commit)
  let values (name : String) := headerValues name object.payload
  let stamp := (values "committer").head?.bind fun text => LogEntry.readStamp? text.toList
  return ⟨← (values "tree").head?, values "parent", (stamp.map (·.time)).getD 0,
    messageOf object.payload⟩

/-- The identifier of the object that a tag names. -/
def taggedId? (object : StoredObject) : Option String := do
  guard (object.kind = .tag)
  (headerValues "object" object.payload).head?

/-! ### Trees -/

/-- An entry of a tree. -/
structure TreeEntry where
  name : String
  isTree : Bool
  id : String
deriving DecidableEq, Repr

/-- The entries of a tree: mode, space, name, zero byte and identifier, one after another. The fuel
is the number of bytes. -/
def treeEntriesFrom : (fuel : Nat) → Bytes → List TreeEntry
  | 0, _ => []
  | fuel + 1, bytes =>
    match bytes.span (· != 0) with
    | (header, _ :: rest) =>
      match Text.splitFirst? ' ' (Text.decodeLossy header).toList with
      | some (mode, name) =>
        ⟨String.ofList name, mode == "40000".toList, Text.hexText (rest.take idSize)⟩ ::
          treeEntriesFrom fuel (rest.drop idSize)
      | none => []
    | (_, []) => []

def treeEntries (object : StoredObject) : List TreeEntry :=
  if object.kind = .tree then treeEntriesFrom object.payload.size object.payload.toList else []

end MergeRisk.Storage
