import MergeRisk.Diff.Basic
import MergeRisk.Text.Natural

/-! Numbering the changed lines of a hunk from its text. Each side has a counter of 32 bits, and lines
are counted from 1. -/

namespace MergeRisk.Hunk

/-- A counter after one more line, unless it passes 32 bits. -/
def raised? (counter : Nat) : Option Nat :=
  if counter < Text.limit32 then some (counter + 1) else none

/-- The changed lines among rows that start at the given counters. There is no answer where a counter
passes 32 bits or a changed line would have number 0. -/
def numbered? : (old new : Nat) → List Row → Option (List ChangedLine)
  | _, _, [] => some []
  | old, new, row :: rows =>
    match row.kind with
    | .added =>
      if new = 0 then none
      else do return .added new :: (← numbered? old (← raised? new) rows)
    | .removed =>
      if old = 0 then none
      else do return .removed old :: (← numbered? (← raised? old) new rows)
    | .kept => do numbered? (← raised? old) (← raised? new) rows

/-- The changed lines that the text of a hunk shows when it is split into rows again. -/
def numberText? (oldStart newStart : Nat) (content : String) : Option (List ChangedLine) :=
  numbered? oldStart newStart (Row.ofContent content)

end MergeRisk.Hunk
