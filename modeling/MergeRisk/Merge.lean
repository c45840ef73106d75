import MergeRisk.Change

/-! Merges and what is recorded about them. -/

namespace MergeRisk

/-- The four revisions of a merge, as opaque identifiers. -/
structure MergeCommit where
  ancestor : String
  left : String
  right : String
  merge : String
deriving DecidableEq, Repr

namespace MergeCommit

/-- The first eight characters of an identifier. -/
def abbreviation (revision : String) : String :=
  String.ofList (revision.toList.take 8)

def text (commit : MergeCommit) : String :=
  abbreviation commit.merge ++ " (base " ++ abbreviation commit.ancestor ++ ", left " ++
    abbreviation commit.left ++ ", right " ++ abbreviation commit.right ++ ")"

end MergeCommit

/-- The project that a merge belongs to. -/
structure Project where
  name : String
  path : Option String := none
deriving DecidableEq, Repr

end MergeRisk
