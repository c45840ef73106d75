import MergeRisk.CallGraph.Dot
import MergeRisk.CommandLine.Command
import MergeRisk.Json.Writer
import MergeRisk.Repository.Mining
import MergeRisk.Report.Summary
import MergeRisk.Workspace

/-! What the commands do: the text they print and the file they write. -/

namespace MergeRisk.CommandLine

/-- Why a command has no result. -/
inductive Trouble where
  | failure (reason : Failure)
  | noEntryClass
  | notInGraph (method : Signature)
  | settingsExist
deriving DecidableEq, Repr

/-- Where the settings are by default. -/
def settingsPath : String := ".mergescope.toml"

def Trouble.message : Trouble → String
  | failure reason => reason.message
  | noEntryClass => "no entry class: pass --entry-class or set [analysis] entry_class"
  | notInGraph method => method.text ++ " is not in the call graph"
  | settingsExist => settingsPath ++ " already exists"

instance : MonadLift (Except Failure) (Except Trouble) :=
  ⟨fun result => result.mapError .failure⟩

/-- A file to be written before anything is printed, and the text to print. -/
structure Response where
  file : Option (String × String) := none
  output : String := ""
deriving DecidableEq, Repr

def printed (output : String) : Response :=
  ⟨none, output⟩

def textLines (lines : List String) : String :=
  String.join (lines.map (· ++ "\n"))

/-- A document over several lines. -/
def document (json : Json) : String :=
  json.pretty 0 ++ "\n"

/-- The same with the fields of every record in the order of their names. -/
def sortedDocument (json : Json) : String :=
  document json.sorted

def signatureList (methods : List Signature) : Json :=
  .array (methods.map (·.toJson))

/-! ### Call graphs -/

def GraphChoice.settings (choice : GraphChoice) (settings : AnalysisSettings) :
    AnalysisSettings where
  entryClass := choice.entryClass.orElse fun _ => settings.entryClass
  entryMethod := choice.entryMethod.getD settings.entryMethod
  maxDepth := choice.maxDepth.getD settings.maxDepth

/-- The entry point and the call graph that a command works on. -/
def GraphChoice.enter (choice : GraphChoice) (sources : Sources) (settings : Settings) :
    Except Trouble (Signature × CallGraph) := do
  let settings := choice.settings settings.analysis
  if settings.entryClass.isNone then throw .noEntryClass
  let program ← sources.program choice.program
  program.enter settings none

def showGraph (format : OutputFormat) (entry : Signature) (graph : CallGraph) : String :=
  match format with
  | .text => graph.dot
  | .json => sortedDocument (.record [("entry", entry.toJson), ("nodes", signatureList graph.nodes),
      ("edges", .array (graph.calls.map (·.toJson)))])

def showAround (format : OutputFormat) (graph : CallGraph) (method : Signature) : String :=
  let callers := graph.callers method
  let callees := graph.callees method
  match format with
  | .text =>
    let listed (methods : List Signature) := methods.map fun method => "    " ++ method.text
    textLines ([method.text, "  callers"] ++ listed callers ++ ["  callees"] ++ listed callees)
  | .json => sortedDocument (.record [("method", method.toJson), ("callers", signatureList callers),
      ("callees", signatureList callees)])

/-! ### Methods and lines -/

def showAncestors (format : OutputFormat) (ancestors : List ChangedMethod) : String :=
  match format with
  | .text => Report.ancestorsText ancestors
  | .json => document (.array (ancestors.map (·.toJson)))

def showRecords (format : OutputFormat) (records : List MethodRecord) : String :=
  match format with
  | .text => Report.attributionText records
  | .json => document (.array (records.map (·.toJson)))

def numbersOf (file : FileDiff) (kind : LineKind) : String :=
  Text.joined ", " ((file.changedLines.toList.filter (·.kind == kind)).map fun line =>
    toString line.number)

def showLines (format : OutputFormat) (files : List FileDiff) : String :=
  match format with
  | .text => textLines (files.flatMap fun file =>
      [file.path, "  + " ++ numbersOf file .added, "  - " ++ numbersOf file .removed])
  | .json => sortedDocument (.array (files.map fun file =>
      .record [("path", .text file.path), ("lines", LineSet.toJson file.changedLines)]))

def showFiles (format : OutputFormat) (commit : MergeCommit) (files : SortedSet String) : String :=
  match format with
  | .text => textLines (("merge " ++ commit.text) :: files.toList.map ("  " ++ ·))
  | .json => sortedDocument (.record [("mergeCommit", commit.toJson),
      ("files", .array (files.toList.map .text))])

/-! ### Analyses -/

/-- Each line of a text two spaces further in. -/
def indented (text : String) : List String :=
  (Text.lines text.toList).map fun line => "  " ++ String.ofList line

def outcomeLines (outcome : Outcome) : List String :=
  match outcome.result with
  | .ok analysis =>
    ["merge " ++ analysis.commit.text, "  entry  " ++ analysis.entry.simplified,
      "  graph  " ++ toString analysis.graphNodes ++ " nodes, " ++ toString analysis.graphEdges ++
        " edges"] ++
      indented (Report.ancestorsText analysis.ancestors) ++
      indented (Report.attributionText analysis.records)
  | .error failure => ["merge " ++ outcome.commit.text, "  skipped: " ++ failure.message]

def outcomeJson (outcome : Outcome) : Json :=
  .record [("mergeCommit", outcome.commit.toJson),
    match outcome.result with
    | .ok analysis => ("analysis", analysis.toJson)
    | .error failure => ("error", .text failure.message)]

def showOutcomes (format : OutputFormat) (outcomes : List Outcome) (output : String) : String :=
  match format with
  | .text => textLines (outcomes.flatMap outcomeLines ++
      ["", toString (succeeded outcomes).length ++ " of " ++ toString outcomes.length ++
        " merges analysed; report written to " ++ output])
  | .json => sortedDocument (.array (outcomes.map outcomeJson))

/-- Analyse merges of a repository. A revision that is no merge ends the run; a failing analysis does
not. -/
def analyzeRepository (place : RepositoryPlace) (spans : SpanFile) (program : Program)
    (merges : List String) (project : Option String) (settings : Settings) :
    Except Failure (List Outcome) :=
  let project : Project := ⟨project.getD place.name, none⟩
  let merges := if merges.isEmpty then ["HEAD"] else merges
  merges.mapM fun revision => do
    let commit ← (place.repository.mergeCommit revision).mapError Repository.Fault.failure
    return ⟨commit, (place.repository.history spans).analyze program project commit settings⟩

def MergeSource.outcomes (source : MergeSource) (sources : Sources) (settings : Settings) :
    Except Failure (List Outcome) := do
  match source with
  | .scenarios path => return analyzeAll (← sources.scenarios path) settings
  | .repository path spans program merges project =>
    let spans ← sources.spans spans
    let program ← sources.program program
    let place ← sources.openRepository path
    analyzeRepository place spans program merges project settings

def ReportChoice.settings (choice : ReportChoice) (settings : ReportSettings) : ReportSettings :=
  { settings with
    output := choice.output.getD settings.output
    compact := settings.compact || choice.compact }

/-! ### Commands -/

/-- The settings file that `init` creates. -/
def settingsTemplate : String :=
  "# mergescope configuration\n" ++
  "\n" ++
  "[analysis]\n" ++
  "# Type holding the entry method; scenarios may override it\n" ++
  "# entry_class = \"com.example.Main\"\n" ++
  "# entry_method = \"main\"\n" ++
  "# max_depth = 5\n" ++
  "\n" ++
  "[report]\n" ++
  "# output = \"data/results.csv\"\n" ++
  "# separator = \";\"\n" ++
  "# compact = false\n"

def Command.run (command : Command) (sources : Sources) (settings : Settings)
    (format : OutputFormat) : Except Trouble Response := do
  match command with
  | .graph choice around =>
    let (entry, calls) ← choice.enter sources settings
    match around with
    | none => return printed (showGraph format entry calls)
    | some method =>
      if !calls.contains method then throw (.notInGraph method)
      return printed (showAround format calls method)
  | .ancestors choice left right =>
    let (_, calls) ← choice.enter sources settings
    let changed (methods : List Signature) : MethodSet := .ofList (methods.map (⟨·, ∅⟩))
    return printed (showAncestors format (← calls.commonAncestors (changed left) (changed right)))
  | .attribution path =>
    return printed (showRecords format ((← sources.scenarios path).flatMap Scenario.records))
  | .lines path old new file =>
    let place ← sources.openRepository path
    return printed (showLines format (← place.repository.fileDiffs old new file))
  | .files path merge =>
    let place ← sources.openRepository path
    let commit ← (place.repository.mergeCommit merge).mapError fun fault =>
      Trouble.failure fault.failure
    return printed (showFiles format commit
      (← (place.repository.history {}).filesOfBoth commit))
  | .analysis source report =>
    let settings := { settings with report := report.settings settings.report }
    let outcomes ← source.outcomes sources settings
    return ⟨some (settings.report.output, Report.ofAnalyses (succeeded outcomes) settings.report),
      showOutcomes format outcomes settings.report.output⟩
  | .init =>
    if sources.isPresent settingsPath then throw .settingsExist
    return ⟨some (settingsPath, settingsTemplate),
      textLines ["Created " ++ settingsPath ++ " with default configuration"]⟩
  | .completions _ => return {}

/-- The settings of a run: from the file that is named, else from the default one if it is there. -/
def Invocation.settingsFrom (invocation : Invocation) (sources : Sources) :
    Except Failure Settings :=
  match invocation.settings with
  | some path => sources.settings path
  | none => if sources.isPresent settingsPath then sources.settings settingsPath else .ok {}

def Invocation.run (invocation : Invocation) (sources : Sources) : Except Trouble Response := do
  let settings ← invocation.settingsFrom sources
  invocation.command.run sources settings invocation.format

/-! ### Running in a workspace -/

/-- How a run ends. -/
structure Ending where
  status : Nat
  output : String := ""
deriving DecidableEq, Repr

def version : String := "mergescope 0.1.0\n"

def usage : String :=
  textLines ["Usage: mergescope [OPTIONS] <COMMAND>", "", "Commands:",
    "  graph        Build the bounded call graph from an entry point",
    "  ancestors    Find the lowest common ancestors of left- and right-changed methods",
    "  attribute    Attribute the changed lines of mutually modified methods",
    "  lines        Show changed lines between two revisions",
    "  files        List files modified by both parents of a merge",
    "  analyze      Analyse merge scenarios and write the attribution report",
    "  init         Create a default .mergescope.toml in the current directory",
    "  completions  Generate shell completions"]

def Stop.ending : Stop → Ending
  | refused => ⟨2, ""⟩
  | version => ⟨0, CommandLine.version⟩
  | help => ⟨0, usage⟩

/-- Run the program on its arguments. A run that fails prints nothing. -/
def runIn (workspace : Workspace) (arguments : List String) : Ending × Workspace :=
  match Invocation.read arguments with
  | .error stop => (stop.ending, workspace)
  | .ok invocation =>
    match invocation.run workspace.sources with
    | .error _ => (⟨1, ""⟩, workspace)
    | .ok response =>
      match response.file with
      | none => (⟨0, response.output⟩, workspace)
      | some (path, text) =>
        match workspace.write path (Text.encode text) with
        | .error _ => (⟨1, ""⟩, workspace)
        | .ok written => (⟨0, Text.decodeLossy written.shown ++ response.output⟩, written)

end MergeRisk.CommandLine
