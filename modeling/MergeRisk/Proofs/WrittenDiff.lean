import MergeRisk.Proofs.HunkHeader
import MergeRisk.Proofs.Lines

/-! Unified diffs as they are written: sections that each start with a `diff --git` line, or bare
files that start with their two sides. -/

namespace MergeRisk.Diff

/-- The note that the line above it has no line feed. -/
def noteLine : List Char :=
  "\\ No newline at end of file".toList

/-- Rows with so many notes after each. -/
def bodyLines : (notes : Nat → Nat) → List Row → List (List Char)
  | _, [] => []
  | notes, row :: rows =>
    row.render.toList :: (List.replicate (notes 0) noteLine ++
      bodyLines (fun index => notes (index + 1)) rows)

/-- A hunk with its header line and the number of notes after each of its rows. -/
structure WrittenHunk where
  hunk : Hunk
  header : List Char
  notes : Nat → Nat

namespace WrittenHunk

def lines (written : WrittenHunk) : List (List Char) :=
  written.header :: bodyLines written.notes written.hunk.rows

/-- The header spells the numbers of the hunk, and its counts are those of the rows. -/
structure WellFormed (written : WrittenHunk) : Prop where
  spells : SpellsHeader written.header written.hunk
  numbered : Numbered written.hunk
  oldRows : written.hunk.rows.countP (·.kind.inOld) = written.hunk.oldCount
  newRows : written.hunk.rows.countP (·.kind.inNew) = written.hunk.newCount
  nonempty : 1 ≤ written.hunk.oldCount + written.hunk.newCount

end WrittenHunk

/-- The sides and hunks of a file. A side is what follows `--- ` or `+++ `. -/
structure WrittenFile where
  oldSide : List Char
  newSide : List Char
  hunks : List WrittenHunk

namespace WrittenFile

def lines (file : WrittenFile) : List (List Char) :=
  ("--- ".toList ++ file.oldSide) :: ("+++ ".toList ++ file.newSide) ::
    file.hunks.flatMap WrittenHunk.lines

structure WellFormed (file : WrittenFile) : Prop where
  nonempty : file.hunks ≠ []
  hunks : ∀ written ∈ file.hunks, written.WellFormed

/-- What a file says, below header lines that may mark it as new, deleted or renamed. -/
def content (headers : List (List Char)) (file : WrittenFile) : FileDiff where
  oldPath := pathOf file.oldSide
  newPath := pathOf file.newSide
  hunks := file.hunks.map WrittenHunk.hunk
  isNew := headers.any (Text.startsWith "new file mode".toList) ||
    file.oldSide = missingPath.toList
  isDeleted := headers.any (Text.startsWith "deleted file mode".toList) ||
    file.newSide = missingPath.toList
  isRename := headers.any fun line =>
    Text.startsWith "rename from ".toList line || Text.startsWith "rename to ".toList line

end WrittenFile

/-- A line that starts a section, names a side, starts a hunk or declares a file binary. -/
def isStructural (line : List Char) : Bool :=
  Text.startsWith "diff --git ".toList line || Text.startsWith "--- ".toList line ||
    Text.startsWith "+++ ".toList line || Text.startsWith "@@ ".toList line || isBinaryNote line

/-- A section below a `diff --git` line with some title and further header lines. -/
inductive GitSection where
  | text (title : List Char) (headers : List (List Char)) (file : WrittenFile)
  /-- What stands between `Binary files ` and ` differ` names the sides. -/
  | binary (title : List Char) (headers : List (List Char)) (sides : List Char)

namespace GitSection

def lines : GitSection → List (List Char)
  | text title headers file => ("diff --git ".toList ++ title) :: (headers ++ file.lines)
  | binary title headers sides => ("diff --git ".toList ++ title) ::
      (headers ++ ["Binary files ".toList ++ sides ++ " differ".toList])

def WellFormed : GitSection → Prop
  | text _ headers file => (∀ line ∈ headers, isStructural line = false) ∧ file.WellFormed
  | binary _ headers _ => ∀ line ∈ headers, isStructural line = false

/-- What a section says; a binary one says nothing. -/
def content? : GitSection → Option FileDiff
  | text _ headers file => some (file.content headers)
  | binary .. => none

end GitSection

inductive WrittenDiff where
  | git (sections : List GitSection)
  | bare (files : List WrittenFile)

namespace WrittenDiff

def lines : WrittenDiff → List (List Char)
  | git sections => sections.flatMap GitSection.lines
  | bare files => files.flatMap WrittenFile.lines

def text (diff : WrittenDiff) : String :=
  String.ofList (Text.terminated diff.lines)

/-- The parts are well formed, and each line is a line when it is read. -/
def WellFormed (diff : WrittenDiff) : Prop :=
  (∀ line ∈ diff.lines, Text.IsLine line) ∧
    match diff with
    | git sections => ∀ written ∈ sections, written.WellFormed
    | bare files => ∀ file ∈ files, file.WellFormed

/-- What a diff says about its text files, in order. -/
def content : WrittenDiff → List FileDiff
  | git sections => sections.filterMap GitSection.content?
  | bare files => files.map (WrittenFile.content [])

end WrittenDiff

end MergeRisk.Diff
