import MergeRisk.Diff.Basic

/-! Edit scripts: turning one list of lines into another by keeping, deleting and inserting lines. -/

namespace MergeRisk

universe u

inductive Edit (α : Type u) where
  | keep (line : α)
  | delete (line : α)
  | insert (line : α)
deriving DecidableEq, Repr

namespace Edit
variable {α : Type u}

/-- What the edit says about its line. -/
def kind : Edit α → RowKind
  | keep _ => .kept
  | delete _ => .removed
  | insert _ => .added

def line : Edit α → α
  | keep line => line
  | delete line => line
  | insert line => line

end Edit

/-- An edit script and how many lines it deletes or inserts. -/
structure Plan (α : Type u) where
  cost : Nat := 0
  edits : List (Edit α) := []
deriving DecidableEq, Repr

namespace Plan
variable {α : Type u}

instance : Inhabited (Plan α) := ⟨{}⟩

def keep (line : α) (plan : Plan α) : Plan α := ⟨plan.cost, .keep line :: plan.edits⟩

def delete (line : α) (plan : Plan α) : Plan α := ⟨plan.cost + 1, .delete line :: plan.edits⟩

def insert (line : α) (plan : Plan α) : Plan α := ⟨plan.cost + 1, .insert line :: plan.edits⟩

/-- The plans from nothing to each end of a text, the whole text first. -/
def insertions : List α → List (Plan α)
  | [] => [{}]
  | line :: new =>
    let plans := insertions new
    (plans.headD default).insert line :: plans

variable [DecidableEq α]

/-- The plans from an old text to each end of the new one, given those for the old text without its
first line. Of two plans of one cost the one that deletes first is taken. -/
def further (line : α) : (new : List α) → (plans : List (Plan α)) → List (Plan α)
  | [], plans => [(plans.headD default).delete line]
  | other :: new, plans =>
    let right := further line new plans.tail
    let plan :=
      if line = other then (plans.tail.headD default).keep line
      else
        let deleting := (plans.headD default).delete line
        let inserting := (right.headD default).insert other
        if deleting.cost ≤ inserting.cost then deleting else inserting
    plan :: right

/-- The plans from an old text to each end of the new one. -/
def toEnds : (old new : List α) → List (Plan α)
  | [], new => insertions new
  | line :: old, new => further line new (toEnds old new)

end Plan

/-- A shortest script from one text to another. -/
def shortestScript {α : Type u} [DecidableEq α] (old new : List α) : List (Edit α) :=
  ((Plan.toEnds old new).headD default).edits

/-! ### Hunks -/

/-- For each row, whether it is a change or comes within `left` rows after one; further changes allow
`context` rows after them. -/
def followsChange (context : Nat) : (left : Nat) → List Row → List Bool
  | _, [] => []
  | left, row :: rows =>
    if row.kind = .kept then decide (0 < left) :: followsChange context (left - 1) rows
    else true :: followsChange context context rows

/-- For each row, whether it stands within `context` rows of a change. -/
def nearChange (context : Nat) (rows : List Row) : List Bool :=
  List.zipWith (· || ·) (followsChange context 0 rows)
    (followsChange context 0 rows.reverse).reverse

/-- The hunk of rows that come after so many lines of both sides. A side without lines starts at the
line before the hunk. -/
def Hunk.ofRows (oldBefore newBefore : Nat) (rows : List Row) : Hunk :=
  let oldCount := rows.countP (·.kind.inOld)
  let newCount := rows.countP (·.kind.inNew)
  { oldStart := if oldCount = 0 then oldBefore else oldBefore + 1
    oldCount := oldCount
    newStart := if newCount = 0 then newBefore else newBefore + 1
    newCount := newCount
    rows := rows }

/-- The hunk of pending rows, if there are any. -/
def closeHunk (oldBefore newBefore : Nat) (pending : List Row) : List Hunk :=
  if pending.isEmpty then [] else [.ofRows oldBefore newBefore pending]

/-- Cut rows into hunks of those that are to be shown; so many lines come before the pending ones. -/
def cutHunks : (oldBefore newBefore : Nat) → (pending : List Row) → List (Row × Bool) → List Hunk
  | oldBefore, newBefore, pending, [] => closeHunk oldBefore newBefore pending
  | oldBefore, newBefore, pending, (row, true) :: rest =>
    cutHunks oldBefore newBefore (pending ++ [row]) rest
  | oldBefore, newBefore, pending, (row, false) :: rest =>
    closeHunk oldBefore newBefore pending ++
      cutHunks (oldBefore + (pending ++ [row]).countP (·.kind.inOld))
        (newBefore + (pending ++ [row]).countP (·.kind.inNew)) [] rest

/-- The hunks of rows, with so many kept rows around each change. -/
def hunksOf (context : Nat) (rows : List Row) : List Hunk :=
  cutHunks 0 0 [] (rows.zip (nearChange context rows))

/-- A side of a hunk header; a count of one is left out. -/
def rangeText (start count : Nat) : String :=
  if count = 1 then toString start else toString start ++ "," ++ toString count

def Hunk.headerText (hunk : Hunk) : String :=
  "@@ -" ++ rangeText hunk.oldStart hunk.oldCount ++ " +" ++
    rangeText hunk.newStart hunk.newCount ++ " @@"

end MergeRisk
