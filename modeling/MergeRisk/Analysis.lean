import MergeRisk.CallGraph.Ancestor
import MergeRisk.History
import MergeRisk.Program.Walk
import MergeRisk.Scenario
import MergeRisk.Settings

/-! The analysis of a merge: the call graph from its entry point, the common ancestors of what the
parents changed in it, and the attribution records. -/

namespace MergeRisk

structure Analysis where
  project : Project
  commit : MergeCommit
  entry : Signature
  graphNodes : Nat
  graphEdges : Nat
  ancestors : List ChangedMethod
  records : List MethodRecord
deriving DecidableEq

namespace AnalysisSettings

/-- The class and method to start from: as a scenario says, else as the settings do. -/
def start (settings : AnalysisSettings) (entryPoint : Option EntryPoint) :
    Except Failure (String × String) :=
  match entryPoint, settings.entryClass with
  | some entry, _ => .ok (entry.owner, entry.method.getD settings.entryMethod)
  | none, some owner => .ok (owner, settings.entryMethod)
  | none, none => .error (.settings "no entry class given and [analysis] entry_class is unset")

end AnalysisSettings

/-- A program's entry point and the call graph grown from it. -/
def Program.enter (program : Program) (settings : AnalysisSettings)
    (entryPoint : Option EntryPoint) : Except Failure (Signature × CallGraph) := do
  let (owner, method) ← settings.start entryPoint
  let entry ← program.entryPoint owner method
  return (entry, program.callGraph entry settings.maxDepth)

/-- Analyse a merge described by a scenario. -/
def Scenario.analyze (scenario : Scenario) (settings : Settings) : Except Failure Analysis := do
  let (entry, graph) ← scenario.program.enter settings.analysis scenario.entryPoint
  let ancestors ← graph.commonAncestors (.ofList scenario.leftChanged)
    (.ofList scenario.rightChanged)
  return {
    project := scenario.project
    commit := scenario.commit
    entry := entry
    graphNodes := graph.nodes.length
    graphEdges := graph.calls.length
    ancestors := ancestors
    records := scenario.records }

/-- Analyse a merge of a history. -/
def History.analyze (history : History) (program : Program) (project : Project)
    (commit : MergeCommit) (settings : Settings) : Except Failure Analysis := do
  let (entry, graph) ← program.enter settings.analysis none
  let (left, right) ← history.changedSets commit
  let ancestors ← graph.commonAncestors left right
  let records ← history.records project commit
  return {
    project := project
    commit := commit
    entry := entry
    graphNodes := graph.nodes.length
    graphEdges := graph.calls.length
    ancestors := ancestors
    records := records }

/-- What an analysis of one merge came to. -/
structure Outcome where
  commit : MergeCommit
  result : Except Failure Analysis

/-- Analyse each scenario on its own. -/
def analyzeAll (scenarios : List Scenario) (settings : Settings) : List Outcome :=
  scenarios.map fun scenario => ⟨scenario.commit, scenario.analyze settings⟩

/-- The analyses that succeeded. -/
def succeeded (outcomes : List Outcome) : List Analysis :=
  outcomes.filterMap (·.result.toOption)

end MergeRisk
