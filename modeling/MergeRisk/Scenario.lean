import MergeRisk.Attribution
import MergeRisk.Program.Basic

/-! Merge scenarios: a merge, the program it belongs to, and the methods that its parents
changed. -/

namespace MergeRisk

/-- Where a program starts; the method may be left to the settings. -/
structure EntryPoint where
  owner : String
  method : Option String := none
deriving DecidableEq, Repr

/-- A method that both parents changed, in its three versions. -/
structure MutualMethod where
  className : String
  merged : ChangedMethod
  left : ChangedMethod
  right : ChangedMethod
deriving DecidableEq

structure Scenario where
  project : Project
  commit : MergeCommit
  entryPoint : Option EntryPoint := none
  program : Program := ∅
  leftChanged : List ChangedMethod := []
  rightChanged : List ChangedMethod := []
  mutuallyChanged : List MutualMethod := []
deriving DecidableEq

/-- The attribution record of a method that both parents changed. -/
def MutualMethod.record (method : MutualMethod) (project : Project) (commit : MergeCommit) :
    MethodRecord where
  project := project
  commit := commit
  className := method.className
  signature := method.merged.signature
  lines := .ofVersions method.merged method.left method.right

/-- The attribution records of a scenario, one for each method that both parents changed. -/
def Scenario.records (scenario : Scenario) : List MethodRecord :=
  scenario.mutuallyChanged.map (·.record scenario.project scenario.commit)

end MergeRisk
