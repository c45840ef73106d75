import MergeRisk.Diff.Reader
import MergeRisk.Diff.Script
import MergeRisk.Repository.Basic

/-! The changes between two trees, as the text of a unified diff. -/

namespace MergeRisk.Repository

open Text (Bytes)

/-- What stands before the paths of the two sides. -/
structure Sides where
  old : String := "a/"
  new : String := "b/"
deriving DecidableEq, Repr

/-- A path whose content differs between two trees, or which only one of them has. Whether it is text
may be given. -/
structure Delta where
  path : String
  old : Option Bytes
  new : Option Bytes
  isText : Option Bool := none
  sides : Sides := {}
deriving DecidableEq, Repr

/-- The deltas between two trees, in path order. -/
def deltas (old new : Tree) : List Delta :=
  let paths : SortedSet String := .ofList ((old.toList ++ new.toList).map (·.path))
  let both := paths.toList.map fun path =>
    ⟨path, (old.find? path).map (·.content), (new.find? path).map (·.content), none, {}⟩
  both.filter fun delta => delta.old != delta.new

/-- Whether a filter selects a path: the name of a file or directory selects it and all below it, and
with a slash at its end only what is below. -/
def selects (filter path : String) : Bool :=
  match Text.stripEnd? ['/'] filter.toList with
  | some directory => directory != [] && Text.startsWith (directory ++ ['/']) path.toList
  | none => path == filter || Text.startsWith (filter.toList ++ ['/']) path.toList

/-- The letters that stand for the control characters from bell to carriage return. -/
def escapeLetters : List Char := ['a', 'b', 't', 'n', 'v', 'f', 'r']

def octal (byte : Nat) : List Char :=
  [byte / 64, byte / 8 % 8, byte % 8].map fun digit => Char.ofNat ('0'.toNat + digit)

/-- A byte of a quoted path. -/
def quotedByte (byte : UInt8) : List Char :=
  let code := byte.toNat
  if 7 ≤ code && code ≤ 13 then ['\\', escapeLetters.getD (code - 7) 'a']
  else if code == 0x22 || code == 0x5C then ['\\', Char.ofNat code]
  else if code < 0x20 || 0x7E < code then '\\' :: octal code
  else [Char.ofNat code]

def isPlainByte (byte : UInt8) : Bool :=
  quotedByte byte == [Char.ofNat byte.toNat]

/-- A path as header lines show it: in quotes, with escapes, unless every byte is plain. -/
def quotedPath (path : String) : String :=
  let bytes := Text.encode path
  if bytes.all isPlainByte then path
  else String.ofList ('"' :: bytes.flatMap quotedByte ++ ['"'])

/-- The lines of a content, each with its line feed. -/
def byteLines : Bytes → List Bytes
  | [] => []
  | byte :: rest =>
    if byte = 0x0A then [byte] :: byteLines rest
    else match byteLines rest with
    | [] => [[byte]]
    | line :: lines => (byte :: line) :: lines

/-- The text of a line, without its line feed. -/
def lineText (line : Bytes) : String :=
  Text.decodeLossy (line.filter (· != 0x0A))

/-- Contents with a zero byte near their start are binary. -/
def isBinary (content : Bytes) : Bool :=
  (content.take 8000).contains 0

/-- How many kept rows are shown around a change. -/
def contextRows : Nat := 3

/-- Whether a delta is of binary contents. By itself it is if either side is. -/
def Delta.isBinary (delta : Delta) : Bool :=
  match delta.isText with
  | some isText => !isText
  | none => Repository.isBinary (delta.old.getD []) || Repository.isBinary (delta.new.getD [])

def Delta.hunks (delta : Delta) : List Hunk :=
  let script := shortestScript (byteLines (delta.old.getD [])) (byteLines (delta.new.getD []))
  hunksOf contextRows (script.map fun edit => ⟨edit.kind, lineText edit.line⟩)

/-- The path of one side in a header line. -/
def sidePath (side : String) (path : String) (content : Option Bytes) : String :=
  if content.isSome then quotedPath (side ++ path) else Diff.missingPath

/-- The two paths of a delta as header lines name them. -/
def Delta.oldSide (delta : Delta) : String :=
  sidePath delta.sides.old delta.path delta.old

def Delta.newSide (delta : Delta) : String :=
  sidePath delta.sides.new delta.path delta.new

/-- The header lines of a delta, which name the two sides of text files only. -/
def Delta.header (delta : Delta) : String :=
  "diff --git " ++ quotedPath (delta.sides.old ++ delta.path) ++ " " ++
    quotedPath (delta.sides.new ++ delta.path) ++ "\n" ++
    (if delta.old.isNone then "new file mode 100644\n" else "") ++
    (if delta.new.isNone then "deleted file mode 100644\n" else "") ++
    (if delta.isBinary then ""
    else "--- " ++ delta.oldSide ++ "\n+++ " ++ delta.newSide ++ "\n")

/-- The pieces of a patch. -/
inductive PatchPiece where
  /-- The lines that start a file. -/
  | fileHeader (text : String)
  | hunkHeader (text : String)
  | row (shown : Row)
  /-- The note that a last line has no line feed. -/
  | lastLine (text : String)
  /-- The note that binary contents differ. -/
  | binary (text : String)
deriving DecidableEq, Repr

namespace PatchPiece

/-- The text of a piece with a line feed at its end. -/
def ended (text : String) : String :=
  if Text.endsWith ['\n'] text.toList then text else text ++ "\n"

/-- What a diff shows of a piece: headers and rows, but no notes. -/
def render : PatchPiece → String
  | fileHeader text => ended text
  | hunkHeader text => ended text
  | row shown => ended shown.render
  | lastLine _ => ""
  | binary _ => ""

end PatchPiece

def renderPatch (pieces : List PatchPiece) : String :=
  String.join (pieces.map PatchPiece.render)

/-- The number of the last line of a content, if it lacks its line feed. -/
def openLine? (content : Bytes) : Option Nat :=
  if content.getLast?.all (· == 0x0A) then none else some (byteLines content).length

/-- Rows that start at the given line numbers, with a note after an open line of either side. -/
def rowPieces (oldOpen newOpen : Option Nat) : (old new : Nat) → List Row → List PatchPiece
  | _, _, [] => []
  | old, new, row :: rows =>
    let isOpen := (row.kind.inOld && oldOpen == some old) || (row.kind.inNew && newOpen == some new)
    .row row :: (if isOpen then [.lastLine "\\ No newline at end of file"] else []) ++
      rowPieces oldOpen newOpen (old + row.kind.inOld.toNat) (new + row.kind.inNew.toNat) rows

def Delta.hunkPieces (delta : Delta) (hunk : Hunk) : List PatchPiece :=
  .hunkHeader hunk.headerText ::
    rowPieces (openLine? (delta.old.getD [])) (openLine? (delta.new.getD [])) hunk.oldStart
      hunk.newStart hunk.rows

def Delta.pieces (delta : Delta) : List PatchPiece :=
  .fileHeader delta.header ::
    if delta.isBinary then
      [.binary ("Binary files " ++ delta.oldSide ++ " and " ++ delta.newSide ++ " differ")]
    else delta.hunks.flatMap delta.hunkPieces

/-- Whether a path is to be compared as text, as far as its attributes say so, which may name a way of
comparing that the configuration describes. -/
def isTextPath? (repository : Repository) (path : String) : Option Bool :=
  match repository.attributes.findSome? fun file => file.value? "diff" path with
  | some AttributeValue.set => some true
  | some AttributeValue.unset => some false
  | some (AttributeValue.text way) =>
    (repository.configuration.flag? ("diff." ++ way ++ ".binary")).map (!·)
  | _ => none

/-- What the configuration wants before the paths of the two sides. -/
def sides (repository : Repository) : Sides :=
  if repository.configuration.flag? "diff.noprefix" = some true then ⟨"", ""⟩
  else if repository.configuration.flag? "diff.mnemonicprefix" = some true then ⟨"c/", "c/"⟩
  else {}

/-- The deltas between two revisions, of all paths or of those that a filter selects. -/
def deltasBetween (repository : Repository) (old new : String) (filter : Option String) :
    Except Fault (List Delta) := do
  let oldTree ← repository.treeOf old
  let newTree ← repository.treeOf new
  let selected := (deltas oldTree newTree).filter fun delta => filter.all (selects · delta.path)
  return selected.map fun delta => { delta with
    isText := repository.isTextPath? delta.path
    sides := repository.sides }

/-- The paths that differ between two revisions. -/
def changedFiles (repository : Repository) (old new : String) :
    Except Fault (SortedSet String) := do
  return .ofList ((← repository.deltasBetween old new none).map (·.path))

/-- The changes between two revisions, read back from their diff. -/
def fileDiffs (repository : Repository) (old new : String) (filter : Option String) :
    Except Failure (List FileDiff) := do
  let deltas ← (repository.deltasBetween old new filter).mapError Fault.failure
  (Diff.read (renderPatch (deltas.flatMap Delta.pieces))).mapError Diff.Fault.failure

end MergeRisk.Repository
