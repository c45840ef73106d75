import MergeRisk.Failure
import MergeRisk.Text.Blank

/-! The settings of an analysis and of its report. -/

namespace MergeRisk

structure AnalysisSettings where
  /-- The class with the entry point, where a scenario names none. -/
  entryClass : Option String := none
  entryMethod : String := "main"
  /-- How many calls deep the call graph is grown. -/
  maxDepth : Nat := 5
deriving DecidableEq, Repr

structure ReportSettings where
  output : String := "data/results.csv"
  separator : String := ";"
  /-- Whether blanks and special characters are taken out of the columns. -/
  compact : Bool := false
deriving DecidableEq, Repr

structure Settings where
  analysis : AnalysisSettings := {}
  report : ReportSettings := {}
deriving DecidableEq, Repr

namespace Settings

/-- Refuse settings under which no report can be written or no entry point found. -/
def checked (settings : Settings) : Except Failure Settings :=
  if settings.report.separator = "" then
    .error (.settings "report.separator must not be empty")
  else if Text.trimmed settings.analysis.entryMethod = "" then
    .error (.settings "analysis.entry_method must not be empty")
  else .ok settings

end Settings

end MergeRisk
