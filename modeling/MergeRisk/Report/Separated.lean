import MergeRisk.Analysis

/-! The report of attribution records as separated values, one record to a line. -/

namespace MergeRisk.Report

/-- A record together with the entry points of its merge. -/
structure ReportRow where
  record : MethodRecord
  entryPoints : List ChangedMethod

def header : List String :=
  ["project", "merge commit", "className", "method", "left modifications", "left deletions",
    "right modifications", "right deletions", "entrypoints"]

/-- Turn line breaks into spaces, a carriage return and its line feed into one. -/
def flattened : List Char → List Char
  | [] => []
  | '\r' :: '\n' :: text => ' ' :: flattened text
  | c :: text => (if c = '\n' || c = '\r' then ' ' else c) :: flattened text

/-- The characters that a compact report leaves out. -/
def isStripped (c : Char) : Bool :=
  c == ' ' || c == '+' || c == '^' || c == '?' || c == '<' || c == '>' || c == '|'

def compacted (field : List Char) : List Char :=
  field.filter (!isStripped ·)

/-- Whether a field has a quote of either kind or the separator. -/
def needsQuotes (separator field : List Char) : Bool :=
  field.contains '"' || field.contains '\x27' || Text.occurs separator field

/-- Double each double quote. -/
def doubled (field : List Char) : List Char :=
  field.flatMap fun c => if c = '"' then ['"', '"'] else [c]

def quoted (separator field : List Char) : List Char :=
  if needsQuotes separator field then '"' :: doubled field ++ ['"'] else field

/-- A field as it is written. -/
def escapeField (separator field : String) : String :=
  String.ofList (quoted separator.toList (flattened field.toList))

def compactField (field : String) : String :=
  String.ofList (compacted field.toList)

/-- Items between brackets, as in `[1, 2]`. -/
def bracketed (items : List String) : String :=
  "[" ++ Text.joined ", " items ++ "]"

def numbersText (numbers : NumberSet) : String :=
  bracketed (numbers.toList.map fun number => toString number)

/-- The columns that a compact report compacts. -/
def ReportRow.columns (row : ReportRow) : List String :=
  [row.record.project.name, row.record.commit.merge, row.record.className,
    row.record.signature.text, numbersText row.record.lines.leftAdded,
    numbersText row.record.lines.leftDeleted, numbersText row.record.lines.rightAdded,
    numbersText row.record.lines.rightDeleted]

def ReportRow.lastColumn (row : ReportRow) : String :=
  bracketed (row.entryPoints.map (·.signature.text))

/-- What the columns of a row hold, before quoting. -/
def ReportRow.fields (row : ReportRow) (compact : Bool) : List (List Char) :=
  (row.columns.map fun column =>
      if compact then compacted (flattened column.toList) else flattened column.toList) ++
    [flattened row.lastColumn.toList]

def ReportRow.render (row : ReportRow) (settings : ReportSettings) : String :=
  Text.joined settings.separator ((row.fields settings.compact).map fun field =>
    String.ofList (quoted settings.separator.toList field))

def headerLine (settings : ReportSettings) : String :=
  Text.joined settings.separator (header.map (escapeField settings.separator))

/-- The header and the rows, each on a line; rows that are blank are left out. -/
def render (rows : List ReportRow) (settings : ReportSettings) : String :=
  let lines := (rows.map (·.render settings)).filter fun line => Text.trimmed line != ""
  String.join ((headerLine settings :: lines).map (· ++ "\n"))

/-- The report of analyses: their records, each with the common ancestors of its merge. -/
def ofAnalyses (analyses : List Analysis) (settings : ReportSettings) : String :=
  render (analyses.flatMap fun analysis =>
    analysis.records.map fun record => ⟨record, analysis.ancestors⟩) settings

end MergeRisk.Report
