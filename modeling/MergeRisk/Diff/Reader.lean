import MergeRisk.Diff.Basic
import MergeRisk.Text.Natural

/-! Reading unified diffs line by line. Inside a hunk the declared counts decide where it ends, so
rows that look like headers stay rows. -/

namespace MergeRisk.Diff

/-- Why a hunk header cannot be read; each cause names the line. -/
inductive Fault where
  | header (line : String)
  | oldRange (line : String)
  | newRange (line : String)
  | range (line : String)
  /-- A side that has lines starts at line 0. -/
  | start (line : String)
deriving DecidableEq, Repr

def Fault.reason : Fault → String
  | header line => "invalid hunk header: " ++ line
  | oldRange line => "invalid old range in hunk: " ++ line
  | newRange line => "invalid new range in hunk: " ++ line
  | range line => "invalid range in: " ++ line
  | start line => "hunk lines start at 1: " ++ line

def Fault.failure (fault : Fault) : Failure :=
  .format fault.reason

/-- The path that stands for a missing side. -/
def missingPath : String := "/dev/null"

/-- The path of a `---` or `+++` line: what follows a tab is a time, quotes at the ends are dropped,
and so is the side's directory. -/
def pathOf (raw : List Char) : String :=
  let name := Text.strip (· == '"') (Text.before '\t' raw)
  if name = missingPath.toList then missingPath
  else String.ofList <|
    match Text.stripStart? ['a', '/'] name with
    | some rest => rest
    | none => (Text.stripStart? ['b', '/'] name).getD name

/-- Read `start,count` or `start`, which counts one line. -/
def readRange? (range : List Char) : Option (Nat × Nat) :=
  match Text.splitFirst? ',' range with
  | some (start, count) => do
    return (← Text.natural? Text.limit32 start, ← Text.natural? Text.limit32 count)
  | none => do return (← Text.natural? Text.limit32 range, 1)

/-- Read `@@ -start,count +start,count @@`, whatever follows it. -/
def readHeader (line : List Char) : Except Fault Hunk :=
  let source := String.ofList line
  match (Text.stripStart? "@@ ".toList line).bind (Text.cut? " @@".toList) with
  | none => .error (.header source)
  | some (ranges, _) =>
    match ranges.splitOn ' ' with
    | [old, new] =>
      match Text.stripStart? ['-'] old, Text.stripStart? ['+'] new with
      | none, _ => .error (.oldRange source)
      | some _, none => .error (.newRange source)
      | some old, some new =>
        match readRange? old, readRange? new with
        | some (oldStart, oldCount), some (newStart, newCount) =>
          if (oldStart = 0 ∧ 0 < oldCount) ∨ (newStart = 0 ∧ 0 < newCount) then
            .error (.start source)
          else .ok ⟨oldStart, oldCount, newStart, newCount, []⟩
        | _, _ => .error (.range source)
    | _ => .error (.header source)

/-- Where the next line stands. -/
inductive Place where
  | outside
  | inFile (file : FileDiff)
  | inHunk (file : FileDiff) (hunk : Hunk)
deriving DecidableEq, Repr

/-- The file at a place, with the hunk closed. -/
def Place.file? : Place → Option FileDiff
  | outside => none
  | inFile file => some file
  | inHunk file hunk => some { file with hunks := file.hunks ++ [hunk] }

/-- What was read so far: the finished files, the place, and whether the current file was declared
binary. -/
structure Scan where
  files : List FileDiff := []
  place : Place := .outside
  binary : Bool := false
deriving DecidableEq, Repr

/-- The finished files together with the current one, unless that is binary. -/
def Scan.finished (scan : Scan) : List FileDiff :=
  if scan.binary then scan.files else scan.files ++ scan.place.file?.toList

/-- A `---` line outside hunks starts a file where none is open, and after the hunks of one. -/
def Scan.openFile (scan : Scan) : Scan :=
  match scan.place with
  | .outside => { scan with place := .inFile {} }
  | .inFile file =>
    if file.hunks.isEmpty then scan
    else { scan with files := scan.files ++ [file], place := .inFile {} }
  | .inHunk .. => scan

/-- What a header line before or between hunks says about its file. -/
def headerLine? (file : FileDiff) (line : List Char) : Option FileDiff :=
  if Text.startsWith "new file mode".toList line then some { file with isNew := true }
  else if Text.startsWith "deleted file mode".toList line then some { file with isDeleted := true }
  else if Text.startsWith "rename from ".toList line || Text.startsWith "rename to ".toList line then
    some { file with isRename := true }
  else if Text.startsWith "index ".toList line || Text.startsWith "similarity index".toList line then
    some file
  else match Text.stripStart? "--- ".toList line with
  | some raw =>
    some { file with oldPath := pathOf raw, isNew := file.isNew || raw = missingPath.toList }
  | none =>
    match Text.stripStart? "+++ ".toList line with
    | some raw =>
      some { file with newPath := pathOf raw, isDeleted := file.isDeleted || raw = missingPath.toList }
    | none => none

/-- A line of a hunk: a marked row, or an empty line for an empty kept one. -/
def rowOf? : List Char → Option Row
  | [] => some (Row.ofLine [' '])
  | c :: text => if c = '+' || c = '-' || c = ' ' then some (Row.ofLine (c :: text)) else none

/-- Take a line into an open hunk, closing the hunk once it is filled. -/
def fillHunk (file : FileDiff) (hunk : Hunk) (line : List Char) : Place :=
  let hunk := { hunk with rows := hunk.rows ++ (rowOf? line).toList }
  if hunk.isFilled then .inFile { file with hunks := file.hunks ++ [hunk] } else .inHunk file hunk

def isBinaryNote (line : List Char) : Bool :=
  Text.startsWith "Binary files ".toList line && Text.endsWith " differ".toList line

/-- A line of an open file that is no header line of it. -/
def Scan.bodyLine (scan : Scan) (line : List Char) : Except Fault Scan :=
  if Text.startsWith "@@ ".toList line then
    match scan.place.file? with
    | none => .ok scan
    | some file => return { scan with place := .inHunk file (← readHeader line) }
  else if line = "\\ No newline at end of file".toList then .ok scan
  else match scan.place with
  | .inHunk file hunk => .ok { scan with place := fillHunk file hunk line }
  | _ => .ok scan

/-- A line that does not start a `diff --git` section. -/
def Scan.fileLine (scan : Scan) (line : List Char) : Except Fault Scan :=
  match scan.place with
  | .outside => .ok scan
  | .inFile file =>
    if isBinaryNote line then .ok { scan with binary := true }
    else match headerLine? file line with
    | some file => .ok { scan with place := .inFile file }
    | none => scan.bodyLine line
  | .inHunk .. =>
    if isBinaryNote line then .ok { scan with binary := true } else scan.bodyLine line

def Scan.step (scan : Scan) (line : List Char) : Except Fault Scan :=
  if Text.startsWith "diff --git ".toList line then
    .ok { files := scan.finished, place := .inFile {}, binary := false }
  else if Text.startsWith "--- ".toList line then scan.openFile.fileLine line
  else scan.fileLine line

/-- Read the lines of a diff. -/
def ofLines (lines : List (List Char)) : Except Fault (List FileDiff) := do
  return (← lines.foldlM Scan.step {}).finished

/-- Read a unified diff. -/
def read (source : String) : Except Fault (List FileDiff) :=
  ofLines (Text.lines source.toList)

end MergeRisk.Diff
