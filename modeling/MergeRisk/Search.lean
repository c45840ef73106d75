/-! Searching level by level from a start, along a relation given by its neighbours. -/

namespace MergeRisk

universe u
variable {α : Type u} [DecidableEq α]

/-- What a search found, each with its distance in steps. -/
abbrev Distances (α : Type u) := List (α × Nat)

namespace Distances

def has (found : Distances α) (target : α) : Bool :=
  found.any (·.1 == target)

def find? (found : Distances α) (target : α) : Option Nat :=
  List.lookup target found

end Distances

/-- Each round adds the neighbours of the last level that were not found before, one step farther
away. -/
def searchLevels (neighbours : α → List α) :
    (rounds : Nat) → (level : List α) → (distance : Nat) → Distances α → Distances α
  | 0, _, _, found => found
  | rounds + 1, level, distance, found =>
    let next := ((level.flatMap neighbours).filter fun target => !found.has target).eraseDups
    if next.isEmpty then found
    else searchLevels neighbours rounds next (distance + 1)
      (found ++ next.map fun target => (target, distance + 1))

/-- What is reached from a start by one or more steps, with the fewest steps to each. The rounds must
be at least as many as there are things to find. -/
def search (neighbours : α → List α) (rounds : Nat) (start : α) : Distances α :=
  searchLevels neighbours rounds [start] 0 []

end MergeRisk
