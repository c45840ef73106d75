import MergeRisk.Proofs.CommonAncestor

/-! A merge of a history is analysed as the scenario that tells what the history answers about it. -/

namespace MergeRisk

/-- What the lookups of a history answer where none fails. -/
structure Answers where
  changedFiles : (old new : String) → SortedSet String
  changedMethods : (path old new : String) → MethodSet
  typeName : (path revision : String) → String

/-- Every lookup of a history succeeds, with the given answers. -/
structure History.Gives (history : History) (answers : Answers) : Prop where
  changedFiles : ∀ old new, history.changedFiles old new = .ok (answers.changedFiles old new)
  changedMethods : ∀ path old new,
    history.changedMethods path old new = .ok (answers.changedMethods path old new)
  typeName : ∀ path revision, history.typeName path revision = .ok (answers.typeName path revision)

namespace Answers

/-- The history with the given answers. -/
def history (answers : Answers) : History where
  changedFiles old new := .ok (answers.changedFiles old new)
  changedMethods path old new := .ok (answers.changedMethods path old new)
  typeName path revision := .ok (answers.typeName path revision)

theorem gives (answers : Answers) : answers.history.Gives answers :=
  ⟨fun _ _ => rfl, fun _ _ _ => rfl, fun _ _ => rfl⟩

/-- The paths that both parents changed, in ascending order. -/
def sharedPaths (answers : Answers) (commit : MergeCommit) : List String :=
  (answers.changedFiles commit.ancestor commit.left).toList.filter
    (· ∈ answers.changedFiles commit.ancestor commit.right)

/-- The methods of a path that the merge and both parents changed, in signature order. -/
def mutualMethods (answers : Answers) (commit : MergeCommit) (path : String) : List MutualMethod :=
  (answers.changedMethods path commit.ancestor commit.merge).toList.filterMap fun merged => do
    let left ← (answers.changedMethods path commit.ancestor commit.left).find? merged.signature
    let right ← (answers.changedMethods path commit.ancestor commit.right).find? merged.signature
    return ⟨answers.typeName path commit.ancestor, merged, left, right⟩

/-- The scenario of a merge, given the changed methods of both parents. -/
def scenario (answers : Answers) (program : Program) (project : Project) (commit : MergeCommit)
    (leftChanged rightChanged : List ChangedMethod) : Scenario where
  project := project
  commit := commit
  program := program
  leftChanged := leftChanged
  rightChanged := rightChanged
  mutuallyChanged := (answers.sharedPaths commit).flatMap (answers.mutualMethods commit)

end Answers

/-! ### Records -/

/-- The methods of two sets that have one signature, in signature order. -/
def mutualVersions (left right : MethodSet) : List MutualVersions :=
  left.toList.filterMap fun method =>
    (right.find? method.signature).map fun other => ⟨method, other⟩

theorem mem_mutualVersions {left right : MethodSet} {versions : MutualVersions} :
    versions ∈ mutualVersions left right ↔
      versions.left ∈ left ∧ right.find? versions.left.signature = some versions.right := by
  simp only [mutualVersions, List.mem_filterMap, Option.map_eq_some_iff]
  constructor
  · rintro ⟨method, member, other, found, rfl⟩
    exact ⟨member, found⟩
  · rintro ⟨member, found⟩
    exact ⟨versions.left, member, versions.right, found, rfl⟩

/-- A method that both parents changed is found by its signature in both sets. -/
theorem find?_mutualVersions (left right : MethodSet) (signature : Signature) :
    (mutualVersions left right).find? (·.left.signature == signature) =
      (left.find? signature).bind fun method =>
        (right.find? signature).map fun other => ⟨method, other⟩ := by
  ext versions
  rw [find?_eq_some_of_unique]
  · simp only [mem_mutualVersions, beq_iff_eq, Option.bind_eq_some_iff, Option.map_eq_some_iff,
      OrderedBy.find?_eq_some_iff]
    constructor
    · rintro ⟨⟨inLeft, inRight, same⟩, rfl⟩
      exact ⟨versions.left, ⟨inLeft, rfl⟩, versions.right, ⟨inRight, same⟩, rfl⟩
    · rintro ⟨method, ⟨inLeft, rfl⟩, other, ⟨inRight, same⟩, rfl⟩
      exact ⟨⟨inLeft, inRight, same⟩, rfl⟩
  · intro first firstMember second secondMember isFirst isSecond
    rw [mem_mutualVersions] at firstMember secondMember
    simp only [beq_iff_eq] at isFirst isSecond
    have sameLeft : first.left = second.left :=
      List.inj_on_of_nodup_map left.nodup_keys firstMember.1 secondMember.1
        (isFirst.trans isSecond.symm)
    have sameRight : first.right = second.right := by
      have lookup := firstMember.2
      rw [sameLeft, secondMember.2] at lookup
      exact (Option.some.inj lookup).symm
    cases first
    cases second
    simp only [MutualVersions.mk.injEq]
    exact ⟨sameLeft, sameRight⟩

namespace History.Gives
variable {history : History} {answers : Answers} (gives : history.Gives answers)
include gives

theorem filesOfBoth (commit : MergeCommit) :
    ∃ files, history.filesOfBoth commit = .ok files ∧ files.toList = answers.sharedPaths commit := by
  refine ⟨(answers.changedFiles commit.ancestor commit.left).inter
    (answers.changedFiles commit.ancestor commit.right), ?_, ?_⟩
  · simp only [History.filesOfBoth, gives.changedFiles]
    rfl
  · exact SortedSet.toList_inter _ _

theorem mutualMethods (commit : MergeCommit) (path : String) :
    history.mutualMethods commit path =
      .ok (mutualVersions (answers.changedMethods path commit.ancestor commit.left)
        (answers.changedMethods path commit.ancestor commit.right)) := by
  simp only [History.mutualMethods, gives.changedMethods]
  rfl

theorem fileRecords (project : Project) (commit : MergeCommit) (path : String) :
    history.fileRecords project commit path =
      .ok ((answers.mutualMethods commit path).map (·.record project commit)) := by
  simp only [History.fileRecords, gives.mutualMethods, gives.changedMethods, gives.typeName, bind,
    Except.bind, pure, Except.pure]
  have records : (answers.mutualMethods commit path).map (·.record project commit) =
      (answers.changedMethods path commit.ancestor commit.merge).toList.filterMap fun method =>
        ((mutualVersions (answers.changedMethods path commit.ancestor commit.left)
          (answers.changedMethods path commit.ancestor commit.right)).find?
            (·.left.signature == method.signature)).map fun version =>
              ⟨project, commit, answers.typeName path commit.ancestor, method.signature,
                .ofVersions method version.left version.right⟩ := by
    rw [Answers.mutualMethods, List.map_filterMap]
    congr 1
    funext method
    rw [find?_mutualVersions]
    cases (answers.changedMethods path commit.ancestor commit.left).find? method.signature with
    | none => rfl
    | some left =>
      cases (answers.changedMethods path commit.ancestor commit.right).find? method.signature with
      | none => rfl
      | some right => rfl
  split
  · rename_i none
    rw [records, List.isEmpty_iff.mp none]
    simp
  · rw [records]

theorem records (project : Project) (commit : MergeCommit) :
    history.records project commit = .ok (((answers.sharedPaths commit).flatMap
      (answers.mutualMethods commit)).map (·.record project commit)) := by
  obtain ⟨files, found, paths⟩ := gives.filesOfBoth commit
  have each : history.fileRecords project commit = fun path =>
      .ok ((answers.mutualMethods commit path).map (·.record project commit)) :=
    funext (gives.fileRecords project commit)
  have mapped : files.toList.mapM (history.fileRecords project commit) =
      .ok ((answers.sharedPaths commit).map fun path =>
        (answers.mutualMethods commit path).map (·.record project commit)) := by
    rw [each, paths]
    exact List.mapM_pure
  simp only [History.records, found, mapped, bind, Except.bind, pure, Except.pure]
  rw [List.map_flatMap, List.flatMap_def]

theorem changedSets (commit : MergeCommit) :
    ∃ sets, history.changedSets commit = .ok sets := by
  simp only [History.changedSets, History.filesOfEither, gives.changedFiles, gives.changedMethods]
  exact ⟨_, List.foldlM_pure⟩

end History.Gives

/-! ### The two analyses -/

/-- Common ancestors depend on the signatures of the changed methods alone. -/
theorem CallGraph.commonAncestors_congr (graph : CallGraph)
    {left right otherLeft otherRight : MethodSet} (sameLeft : left.keys = otherLeft.keys)
    (sameRight : right.keys = otherRight.keys) :
    graph.commonAncestors left right = graph.commonAncestors otherLeft otherRight := by
  have isEmpty (methods : MethodSet) : methods.isEmpty = methods.keys.isEmpty := by
    simp [OrderedBy.isEmpty, OrderedBy.keys]
  simp only [CallGraph.commonAncestors, isEmpty, CallGraph.ancestries_eq, sameLeft, sameRight]

/-- A merge whose lookups all succeed is analysed as the scenario with its answers, in whatever order
this lists the changed methods of the parents. -/
theorem History.analyze_eq_scenario {history : History} {answers : Answers}
    (gives : history.Gives answers) (program : Program) (project : Project) (commit : MergeCommit)
    (settings : Settings) :
    ∃ left right, history.changedSets commit = .ok (left, right) ∧
      ∀ leftChanged rightChanged, leftChanged.Perm left.toList → rightChanged.Perm right.toList →
        history.analyze program project commit settings =
          (answers.scenario program project commit leftChanged rightChanged).analyze settings := by
  obtain ⟨⟨left, right⟩, sets⟩ := gives.changedSets commit
  refine ⟨left, right, sets, ?_⟩
  intro leftChanged rightChanged leftListed rightListed
  have ancestors (graph : CallGraph) :
      graph.commonAncestors (.ofList leftChanged) (.ofList rightChanged) =
        graph.commonAncestors left right :=
    graph.commonAncestors_congr (OrderedBy.keys_ofList_perm leftListed)
      (OrderedBy.keys_ofList_perm rightListed)
  simp only [History.analyze, Scenario.analyze, Answers.scenario, Scenario.records, sets,
    gives.records, ancestors, bind, Except.bind]

/-- Two files: both parents changed `load` in the first, and each its own method in the second. -/
def twoFiles : Answers where
  changedFiles _ _ := .ofList ["b", "a"]
  changedMethods path _ new :=
    if path = "a" then .ofList [⟨appMethod "load" (by decide), .ofList [.removed 3, .added 4]⟩]
    else if new = "left" then .ofList [⟨appMethod "save" (by decide), .ofList [.added 9]⟩]
    else .ofList [⟨appMethod "start" (by decide), .ofList [.added 7]⟩]
  typeName path _ := path

/-- A circle of calls from `start` over `load` and `save`. -/
def circleProgram : Program :=
  .ofReport [] [⟨appMethod "start" (by decide), appMethod "load" (by decide)⟩,
    ⟨appMethod "load" (by decide), appMethod "save" (by decide)⟩,
    ⟨appMethod "save" (by decide), appMethod "start" (by decide)⟩]

def twoFilesMerge : MergeCommit := ⟨"base", "left", "right", "merge"⟩

def appSettings : Settings where
  analysis := { entryClass := some "App", entryMethod := "start" }

theorem History.analyze_eq_scenario_twoFiles :
    twoFiles.history.Gives twoFiles ∧
    (∃ left right, twoFiles.history.changedSets twoFilesMerge = .ok (left, right) ∧
      twoFiles.history.analyze circleProgram ⟨"app", none⟩ twoFilesMerge appSettings =
        (twoFiles.scenario circleProgram ⟨"app", none⟩ twoFilesMerge left.toList.reverse
          right.toList.reverse).analyze appSettings) ∧
    (twoFiles.history.analyze circleProgram ⟨"app", none⟩ twoFilesMerge appSettings).toOption.map
      (fun analysis => (analysis.ancestors.length, analysis.records.length)) = some (4, 1) := by
  obtain ⟨left, right, sets, same⟩ := History.analyze_eq_scenario twoFiles.gives circleProgram
    ⟨"app", none⟩ twoFilesMerge appSettings
  refine ⟨twoFiles.gives, ⟨left, right, sets, ?_⟩, ?_⟩
  · exact same _ _ (List.reverse_perm _) (List.reverse_perm _)
  · decide +kernel

end MergeRisk
