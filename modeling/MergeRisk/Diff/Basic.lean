import MergeRisk.Change

/-! Unified diffs as data: files, their hunks, and the rows of a hunk. -/

namespace MergeRisk

/-- What a row says about its line. -/
inductive RowKind where
  | kept
  | removed
  | added
deriving DecidableEq, Repr

namespace RowKind

/-- The first character of a row. -/
def mark : RowKind → Char
  | kept => ' '
  | removed => '-'
  | added => '+'

/-- Whether the line stands in the old text. -/
def inOld : RowKind → Bool
  | added => false
  | _ => true

/-- Whether the line stands in the new text. -/
def inNew : RowKind → Bool
  | removed => false
  | _ => true

end RowKind

structure Row where
  kind : RowKind
  text : String
deriving DecidableEq, Repr

def Row.render (row : Row) : String :=
  String.ofList (row.kind.mark :: row.text.toList)

/-- Read a line of a hunk; one with neither mark of a change is kept. -/
def Row.ofLine : List Char → Row
  | '+' :: text => ⟨.added, String.ofList text⟩
  | '-' :: text => ⟨.removed, String.ofList text⟩
  | ' ' :: text => ⟨.kept, String.ofList text⟩
  | text => ⟨.kept, String.ofList text⟩

/-- The rows of the text of a hunk. -/
def Row.ofContent (content : String) : List Row :=
  (Text.lines content.toList).map Row.ofLine

/-- A run of rows, with the lines that its header declares for both sides. -/
structure Hunk where
  oldStart : Nat
  oldCount : Nat
  newStart : Nat
  newCount : Nat
  rows : List Row := []
deriving DecidableEq, Repr

namespace Hunk

def content (hunk : Hunk) : String :=
  String.join (hunk.rows.map fun row => row.render ++ "\n")

/-- The changed lines among rows that start at the given line numbers. -/
def changedLinesFrom : (old new : Nat) → List Row → List ChangedLine
  | _, _, [] => []
  | old, new, row :: rows =>
    match row.kind with
    | .added => .added new :: changedLinesFrom old (new + 1) rows
    | .removed => .removed old :: changedLinesFrom (old + 1) new rows
    | .kept => changedLinesFrom (old + 1) (new + 1) rows

/-- The changed lines of a hunk, in the order of its rows. -/
def changedLines (hunk : Hunk) : List ChangedLine :=
  changedLinesFrom hunk.oldStart hunk.newStart hunk.rows

/-- Whether both sides have at least the declared number of rows. Rows are counted without a bound; a
counter of 32 bits, as the declared numbers are, would differ only after 4294967295 rows of a side. -/
def isFilled (hunk : Hunk) : Bool :=
  hunk.oldCount ≤ hunk.rows.countP (·.kind.inOld) && hunk.newCount ≤ hunk.rows.countP (·.kind.inNew)

end Hunk

/-- The changes of one file. A path is empty where no header line names it. -/
structure FileDiff where
  oldPath : String := ""
  newPath : String := ""
  hunks : List Hunk := []
  isNew : Bool := false
  isDeleted : Bool := false
  isRename : Bool := false
deriving DecidableEq, Repr

namespace FileDiff

/-- The path after the change, or before it for a deleted file. -/
def path (file : FileDiff) : String :=
  if file.isDeleted then file.oldPath else file.newPath

def changedLines (file : FileDiff) : LineSet :=
  .ofList (file.hunks.flatMap Hunk.changedLines)

def text (file : FileDiff) : String :=
  file.path ++ " (" ++ toString file.hunks.length ++ " hunks)"

end FileDiff

/-- The changed lines of all files of a diff together. -/
def Diff.changedLines (files : List FileDiff) : LineSet :=
  .ofList (files.flatMap fun file => file.changedLines.toList)

end MergeRisk
