import MergeRisk.Report.Separated

/-! Ancestors and attribution records as text for readers. -/

namespace MergeRisk.Report

def ancestorsText (ancestors : List ChangedMethod) : String :=
  if ancestors.isEmpty then "no common ancestors\n"
  else String.join (ancestors.map fun method =>
    method.signature.simplified ++ "  " ++ method.signature.text ++ "\n")

def sideText (side : String) (added deleted : NumberSet) : String :=
  "    " ++ side ++ "  added " ++ numbersText added ++ "  deleted " ++ numbersText deleted ++ "\n"

def recordText (record : MethodRecord) : String :=
  "  " ++ record.signature.simplified ++ "\n" ++
    sideText "left " record.lines.leftAdded record.lines.leftDeleted ++
    sideText "right" record.lines.rightAdded record.lines.rightDeleted

/-- The records in order; a class is named where it differs from that of the record before. -/
def recordsText : (className : Option String) → List MethodRecord → String
  | _, [] => ""
  | current, record :: records =>
    (if current = some record.className then "" else record.className ++ "\n") ++
      recordText record ++ recordsText (some record.className) records

def attributionText (records : List MethodRecord) : String :=
  if records.isEmpty then "no mutually modified methods\n" else recordsText none records

end MergeRisk.Report
