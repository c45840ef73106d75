import MergeRisk.Text.Cut

/-! Paths of files: the steps they are made of. -/

namespace MergeRisk.Path

/-- The steps of a path. Empty steps do not count, nor does a dot unless it comes first; an absolute
path starts with the step `/`. -/
def steps (path : String) : List String :=
  let parts := path.toList.splitOn '/'
  let named := (parts.filter fun part => part != [] && part != ['.']).map String.ofList
  if path.toList.head? = some '/' then "/" :: named
  else if parts.head? = some ['.'] then "." :: named
  else named

/-- Whether two paths have the same steps. -/
def same (first second : String) : Bool :=
  steps first == steps second

end MergeRisk.Path
