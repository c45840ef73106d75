import MergeRisk.Analysis
import MergeRisk.Json.Kept
import MergeRisk.OutputFormat
import MergeRisk.SpanFile

/-! The JSON forms of the library's values. Writing lists the fields of a record in a fixed order;
reading accepts them in any order, or as an array in that order. -/

namespace MergeRisk

open Json (required defaulted optional)

/-! ### Methods and lines -/

def Signature.toJson (signature : Signature) : Json :=
  .text signature.text

def Signature.ofJson? (json : Json) : Option Signature := do
  (read (← json.text?)).toOption

def LineKind.toJson (kind : LineKind) : Json :=
  .text kind.name

def LineKind.ofJson? (json : Json) : Option LineKind := do
  ofName? (← json.choice?)

def ChangedLine.toJson (line : ChangedLine) : Json :=
  .record [("number", .natural line.number), ("kind", line.kind.toJson)]

def ChangedLine.ofJson? (json : Json) : Option ChangedLine := do
  let [number, kind] ← json.fields? ["number", "kind"] | none
  (ofNumber (← required Json.natural32? number) (← required LineKind.ofJson? kind)).toOption

def LineSet.toJson (lines : LineSet) : Json :=
  .array (lines.toList.map (·.toJson))

def LineSet.ofJson? (json : Json) : Option LineSet := do
  return .ofList (← json.list? ChangedLine.ofJson?)

def NumberSet.toJson (numbers : NumberSet) : Json :=
  .array (numbers.toList.map .natural)

def NumberSet.ofJson? (json : Json) : Option NumberSet := do
  return .ofList (← json.list? Json.natural32?)

def ChangedMethod.toJson (method : ChangedMethod) : Json :=
  .record [("signature", method.signature.toJson), ("lines", method.lines.toJson)]

def ChangedMethod.ofJson? (json : Json) : Option ChangedMethod := do
  let [signature, lines] ← json.fields? ["signature", "lines"] | none
  return ⟨← required Signature.ofJson? signature, ← defaulted ∅ LineSet.ofJson? lines⟩

/-! ### Merges and records -/

def MergeCommit.toJson (commit : MergeCommit) : Json :=
  .record [("ancestorSha", .text commit.ancestor), ("leftSha", .text commit.left),
    ("rightSha", .text commit.right), ("mergeSha", .text commit.merge)]

def MergeCommit.ofJson? (json : Json) : Option MergeCommit := do
  let [ancestor, left, right, merge] ←
    json.fields? ["ancestorSha", "leftSha", "rightSha", "mergeSha"] | none
  return ⟨← required Json.text? ancestor, ← required Json.text? left, ← required Json.text? right,
    ← required Json.text? merge⟩

/-- The field of an optional text, left out where there is none. -/
def optionalText (name : String) (value : Option String) : List (String × Json) :=
  (value.map fun text => (name, .text text)).toList

def Project.toJson (project : Project) : Json :=
  .record (("name", .text project.name) :: optionalText "path" project.path)

def Project.ofJson? (json : Json) : Option Project := do
  let [name, path] ← json.fields? ["name", "path"] | none
  return ⟨← required Json.text? name, ← optional Json.text? path⟩

def AttributedLines.toJson (lines : AttributedLines) : Json :=
  .record [("leftAdded", NumberSet.toJson lines.leftAdded),
    ("leftDeleted", NumberSet.toJson lines.leftDeleted),
    ("rightAdded", NumberSet.toJson lines.rightAdded),
    ("rightDeleted", NumberSet.toJson lines.rightDeleted)]

def AttributedLines.ofJson? (json : Json) : Option AttributedLines := do
  let [leftAdded, leftDeleted, rightAdded, rightDeleted] ←
    json.fields? ["leftAdded", "leftDeleted", "rightAdded", "rightDeleted"] | none
  return ⟨← required NumberSet.ofJson? leftAdded, ← required NumberSet.ofJson? leftDeleted,
    ← required NumberSet.ofJson? rightAdded, ← required NumberSet.ofJson? rightDeleted⟩

def MethodRecord.toJson (record : MethodRecord) : Json :=
  .record [("project", record.project.toJson), ("mergeCommit", record.commit.toJson),
    ("className", .text record.className), ("methodSignature", record.signature.toJson),
    ("leftAddedLines", NumberSet.toJson record.lines.leftAdded),
    ("leftDeletedLines", NumberSet.toJson record.lines.leftDeleted),
    ("rightAddedLines", NumberSet.toJson record.lines.rightAdded),
    ("rightDeletedLines", NumberSet.toJson record.lines.rightDeleted)]

def MethodRecord.ofJson? (json : Json) : Option MethodRecord := do
  let [project, commit, className, signature, leftAdded, leftDeleted, rightAdded, rightDeleted] ←
    json.fields? ["project", "mergeCommit", "className", "methodSignature", "leftAddedLines",
      "leftDeletedLines", "rightAddedLines", "rightDeletedLines"] | none
  return {
    project := ← required Project.ofJson? project
    commit := ← required MergeCommit.ofJson? commit
    className := ← required Json.text? className
    signature := ← required Signature.ofJson? signature
    lines := ⟨← required NumberSet.ofJson? leftAdded, ← required NumberSet.ofJson? leftDeleted,
      ← required NumberSet.ofJson? rightAdded, ← required NumberSet.ofJson? rightDeleted⟩ }

/-! ### Programs and spans -/

def Call.toJson (call : Call) : Json :=
  .record [("caller", call.caller.toJson), ("callee", call.callee.toJson)]

def Call.ofJson? (json : Json) : Option Call := do
  let [caller, callee] ← json.fields? ["caller", "callee"] | none
  return ⟨← required Signature.ofJson? caller, ← required Signature.ofJson? callee⟩

def Program.toJson (program : Program) : Json :=
  .record [("methods", .array (program.methods.map (·.toJson))),
    ("edges", .array (program.calls.map (·.toJson)))]

def Program.ofJson? (json : Json) : Option Program := do
  let [methods, calls] ← json.fields? ["methods", "edges"] | none
  return .ofReport (← defaulted [] (Json.list? Signature.ofJson?) methods)
    (← defaulted [] (Json.list? Call.ofJson?) calls)

/-- Read a program model. -/
def Program.read (source : String) : Except Failure Program :=
  match (Json.read? source).bind ofJson? with
  | some program => .ok program
  | none => .error (.document "invalid program")

def MethodSpan.toJson (span : MethodSpan) : Json :=
  .record [("signature", span.signature.toJson), ("start", .natural span.start),
    ("end", .natural span.stop)]

def MethodSpan.ofJson? (json : Json) : Option MethodSpan := do
  let [signature, start, stop] ← json.fields? ["signature", "start", "end"] | none
  return ⟨← required Signature.ofJson? signature, ← required Json.natural32? start,
    ← required Json.natural32? stop⟩

/-- Recorded spans are objects, never arrays. -/
def RecordedSpan.ofJson? : Json → Option RecordedSpan
  | .object fields => do
    let [signature, start, stop, content] ←
      Json.fields? ["signature", "start", "end", "blob"] (.object fields) | none
    return ⟨⟨← required Signature.ofJson? signature, ← required Json.natural32? start,
      ← required Json.natural32? stop⟩, ← optional Json.text? content⟩
  | _ => none

def SpanFile.ofJson? : Json → Option SpanFile
  | .object fields => fields.foldlM (fun spans (path, recorded) => do
      return spans.set (← path) (← recorded.list? RecordedSpan.ofJson?)) {}
  | _ => none

/-- Read a span file. -/
def SpanFile.read (source : String) : Except Failure SpanFile :=
  match (Json.readKept? source).bind ofJson? with
  | some spans => .ok spans
  | none => .error (.format "invalid span file")

/-! ### Scenarios -/

def EntryPoint.toJson (entry : EntryPoint) : Json :=
  .record (("class", .text entry.owner) :: optionalText "method" entry.method)

def EntryPoint.ofJson? (json : Json) : Option EntryPoint := do
  let [owner, method] ← json.fields? ["class", "method"] | none
  return ⟨← required Json.text? owner, ← optional Json.text? method⟩

def MutualMethod.toJson (method : MutualMethod) : Json :=
  .record [("className", .text method.className), ("merged", method.merged.toJson),
    ("left", method.left.toJson), ("right", method.right.toJson)]

def MutualMethod.ofJson? (json : Json) : Option MutualMethod := do
  let [className, merged, left, right] ←
    json.fields? ["className", "merged", "left", "right"] | none
  return ⟨← required Json.text? className, ← required ChangedMethod.ofJson? merged,
    ← required ChangedMethod.ofJson? left, ← required ChangedMethod.ofJson? right⟩

def Scenario.toJson (scenario : Scenario) : Json :=
  .record ([("project", scenario.project.toJson), ("mergeCommit", scenario.commit.toJson)] ++
    (scenario.entryPoint.map fun entry => ("entryPoint", entry.toJson)).toList ++
    [("program", scenario.program.toJson),
      ("leftChanged", .array (scenario.leftChanged.map (·.toJson))),
      ("rightChanged", .array (scenario.rightChanged.map (·.toJson))),
      ("mutuallyModified", .array (scenario.mutuallyChanged.map (·.toJson)))])

def Scenario.ofJson? (json : Json) : Option Scenario := do
  let [project, commit, entryPoint, program, left, right, mutually] ←
    json.fields? ["project", "mergeCommit", "entryPoint", "program", "leftChanged", "rightChanged",
      "mutuallyModified"] | none
  return {
    project := ← required Project.ofJson? project
    commit := ← required MergeCommit.ofJson? commit
    entryPoint := ← optional EntryPoint.ofJson? entryPoint
    program := ← defaulted ∅ Program.ofJson? program
    leftChanged := ← defaulted [] (Json.list? ChangedMethod.ofJson?) left
    rightChanged := ← defaulted [] (Json.list? ChangedMethod.ofJson?) right
    mutuallyChanged := ← defaulted [] (Json.list? MutualMethod.ofJson?) mutually }

/-- Read one scenario. -/
def Scenario.read (source : String) : Except Failure Scenario :=
  match (Json.read? source).bind ofJson? with
  | some scenario => .ok scenario
  | none => .error (.document "invalid scenario")

/-- A list of scenarios, or one scenario alone; a document that can be both is a list. -/
def Scenario.listOfJson? (json : Json) : Option (List Scenario) :=
  match json.list? Scenario.ofJson? with
  | some scenarios => some scenarios
  | none => (Scenario.ofJson? json).map fun scenario => [scenario]

/-! ### Results and settings -/

def Analysis.toJson (analysis : Analysis) : Json :=
  .record [("project", analysis.project.toJson), ("commit", analysis.commit.toJson),
    ("entry", analysis.entry.toJson), ("graphNodes", .natural analysis.graphNodes),
    ("graphEdges", .natural analysis.graphEdges),
    ("ancestors", .array (analysis.ancestors.map (·.toJson))),
    ("records", .array (analysis.records.map (·.toJson)))]

def OutputFormat.toJson (format : OutputFormat) : Json :=
  .text format.name

def OutputFormat.ofJson? (json : Json) : Option OutputFormat := do
  ofName? (← json.choice?)

def Settings.toJson (settings : Settings) : Json :=
  .record [
    ("analysis", .record [
      ("entry_class", (settings.analysis.entryClass.map Json.text).getD .null),
      ("entry_method", .text settings.analysis.entryMethod),
      ("max_depth", .natural settings.analysis.maxDepth)]),
    ("report", .record [
      ("output", .text settings.report.output),
      ("separator", .text settings.report.separator),
      ("compact", .bool settings.report.compact)])]

end MergeRisk
