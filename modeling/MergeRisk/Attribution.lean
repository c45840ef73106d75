import MergeRisk.Merge

/-! Attribution of the changed lines of a merged method to the parents that changed them too. -/

namespace MergeRisk

/-- Line numbers of a merged method, by parent and kind of change. -/
structure AttributedLines where
  leftAdded : NumberSet := ∅
  leftDeleted : NumberSet := ∅
  rightAdded : NumberSet := ∅
  rightDeleted : NumberSet := ∅
deriving DecidableEq

namespace AttributedLines

def isEmpty (lines : AttributedLines) : Bool :=
  lines.leftAdded.isEmpty && lines.leftDeleted.isEmpty && lines.rightAdded.isEmpty &&
    lines.rightDeleted.isEmpty

/-- The numbers attributed to both parents with the same kind of change. -/
def overlapping (lines : AttributedLines) : NumberSet :=
  (lines.leftAdded.inter lines.rightAdded).union (lines.leftDeleted.inter lines.rightDeleted)

end AttributedLines

/-- The numbers of the lines of a kind that the merged method shares with a parent's version. -/
def sharedLines (merged parent : ChangedMethod) (kind : LineKind) : NumberSet :=
  LineSet.numbers (merged.lines.inter parent.lines) kind

/-- Attribute each changed line of the merged method to the parents that changed it alike. -/
def AttributedLines.ofVersions (merged left right : ChangedMethod) : AttributedLines where
  leftAdded := sharedLines merged left .added
  leftDeleted := sharedLines merged left .removed
  rightAdded := sharedLines merged right .added
  rightDeleted := sharedLines merged right .removed

namespace AttributedLines

/-- Note a line for the left parent. -/
def noteLeft (lines : AttributedLines) (line : ChangedLine) : AttributedLines :=
  match line.kind with
  | .added => { lines with leftAdded := lines.leftAdded.insert line.number }
  | .removed => { lines with leftDeleted := lines.leftDeleted.insert line.number }

/-- Note a line for the right parent. -/
def noteRight (lines : AttributedLines) (line : ChangedLine) : AttributedLines :=
  match line.kind with
  | .added => { lines with rightAdded := lines.rightAdded.insert line.number }
  | .removed => { lines with rightDeleted := lines.rightDeleted.insert line.number }

/-- Note a line of the merged method for each parent that changed it alike. -/
def note (left right : LineSet) (lines : AttributedLines) (line : ChangedLine) : AttributedLines :=
  let lines := if line ∈ left then lines.noteLeft line else lines
  if line ∈ right then lines.noteRight line else lines

/-- The attribution in one pass over the lines of the merged method. -/
def inOnePass (merged left right : ChangedMethod) : AttributedLines :=
  merged.lines.toList.foldl (note left.lines right.lines) {}

end AttributedLines

/-- Attribute the lines of a merged method that both parents changed; `none` if one of them did not
change it. -/
def AttributedLines.ofSets? (merged : ChangedMethod) (left right : MethodSet) :
    Option AttributedLines := do
  return .ofVersions merged (← left.find? merged.signature) (← right.find? merged.signature)

/-- What is reported about one method that both parents of a merge changed. -/
structure MethodRecord where
  project : Project
  commit : MergeCommit
  className : String
  signature : Signature
  lines : AttributedLines
deriving DecidableEq

end MergeRisk
