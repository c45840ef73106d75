import MergeRisk.Ordered
import MergeRisk.Signature

/-! Changed lines and changed methods. A method is known by its signature; the lines it carries
say what changed in it relative to some baseline. -/

namespace MergeRisk

/-- How a line changed. -/
inductive LineKind where
  | added
  | removed
deriving DecidableEq, Repr

namespace LineKind

def name : LineKind → String
  | added => "added"
  | removed => "removed"

def ofName? : String → Option LineKind
  | "added" => some added
  | "removed" => some removed
  | _ => none

/-- Added lines come before removed ones. -/
def rank : LineKind → Nat
  | added => 0
  | removed => 1

theorem rank_injective {first second : LineKind} (same : first.rank = second.rank) :
    first = second := by
  revert same
  cases first <;> cases second <;> decide

end LineKind

/-- A changed line: an added one has its number in the new text, a removed one in the old. -/
@[ext] structure ChangedLine where
  number : Nat
  kind : LineKind
deriving DecidableEq, Repr

namespace ChangedLine

/-- By number, added before removed. -/
instance : Ord ChangedLine :=
  ⟨compareLex (compareOn number) (compareOn fun line => line.kind.rank)⟩

instance : Std.TransOrd ChangedLine :=
  inferInstanceAs (Std.TransCmp
    (compareLex (compareOn number) (compareOn fun line : ChangedLine => line.kind.rank)))

instance : Std.LawfulEqOrd ChangedLine where
  eq_of_compare {first second} same := by
    obtain ⟨sameNumber, sameRank⟩ :
        compare first.number second.number = .eq ∧
          compare first.kind.rank second.kind.rank = .eq := by
      exact Ordering.then_eq_eq.mp same
    exact ChangedLine.ext (Std.LawfulEqOrd.eq_of_compare sameNumber)
      (LineKind.rank_injective (Std.LawfulEqOrd.eq_of_compare sameRank))

def added (number : Nat) : ChangedLine := ⟨number, .added⟩

def removed (number : Nat) : ChangedLine := ⟨number, .removed⟩

/-- A changed line; lines are counted from 1. -/
def ofNumber (number : Nat) (kind : LineKind) : Except Failure ChangedLine :=
  if number = 0 then .error (.format (kind.name ++ " line number must be at least 1"))
  else .ok ⟨number, kind⟩

end ChangedLine

abbrev LineSet := SortedSet ChangedLine

/-- A set of line numbers of one side. -/
abbrev NumberSet := SortedSet Nat

/-- The numbers of the lines of one kind. -/
def LineSet.numbers (lines : LineSet) (kind : LineKind) : NumberSet :=
  .ofList ((lines.toList.filter (·.kind == kind)).map (·.number))

/-- A method and the lines changed in it. -/
structure ChangedMethod where
  signature : Signature
  lines : LineSet := ∅
deriving DecidableEq

/-- Changed methods, one for each signature, in signature order. -/
abbrev MethodSet := OrderedBy ChangedMethod.signature

end MergeRisk
