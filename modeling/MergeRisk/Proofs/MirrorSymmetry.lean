import Mathlib.Data.List.Perm.Basic
import MergeRisk.Proofs.LowestAncestor

/-! Exchanging the parents of a merge exchanges the sides of its analysis and changes nothing
else. -/

namespace MergeRisk

/-! ### Exchanged sides -/

def MutualMethod.mirrored (method : MutualMethod) : MutualMethod :=
  { method with left := method.right, right := method.left }

/-- The scenario in which each parent has made the changes of the other. -/
def Scenario.mirrored (scenario : Scenario) : Scenario :=
  { scenario with
    leftChanged := scenario.rightChanged
    rightChanged := scenario.leftChanged
    mutuallyChanged := scenario.mutuallyChanged.map MutualMethod.mirrored }

def AttributedLines.mirrored (lines : AttributedLines) : AttributedLines where
  leftAdded := lines.rightAdded
  leftDeleted := lines.rightDeleted
  rightAdded := lines.leftAdded
  rightDeleted := lines.leftDeleted

def MethodRecord.mirrored (record : MethodRecord) : MethodRecord :=
  { record with lines := record.lines.mirrored }

/-- Two outcomes that say the same about a merge, each from the side of another parent. The common
ancestors may be listed in another order. -/
inductive MirrorImages : Except Failure Analysis → Except Failure Analysis → Prop where
  | failed (failure : Failure) : MirrorImages (.error failure) (.error failure)
  | analysed {first second : Analysis} (project : second.project = first.project)
      (commit : second.commit = first.commit) (entry : second.entry = first.entry)
      (graphNodes : second.graphNodes = first.graphNodes)
      (graphEdges : second.graphEdges = first.graphEdges)
      (ancestors : second.ancestors.Perm first.ancestors)
      (records : second.records = first.records.map MethodRecord.mirrored) :
      MirrorImages (.ok first) (.ok second)

/-! ### The lowest common ancestor of a pair -/

namespace CallGraph
variable {graph : CallGraph} {first second ancestor : Signature}

theorem CommonAncestor.symm (common : graph.CommonAncestor first second ancestor) :
    graph.CommonAncestor second first ancestor :=
  ⟨common.node, common.toSecond, common.toFirst⟩

theorem IsLowest.symm (lowest : graph.IsLowest first second ancestor) :
    graph.IsLowest second first ancestor where
  common := lowest.common.symm
  alone other common := lowest.alone other common.symm

theorem Candidate.symm (candidate : graph.Candidate first second ancestor) :
    graph.Candidate second first ancestor where
  common := candidate.common.symm
  lowest := by
    rintro ⟨other, lowest⟩
    exact (candidate.lowest ⟨other, lowest.symm⟩).symm

/-- The distances are summed, so their order does not matter. -/
theorem HasRank.symm {rank : Rank} (ranked : graph.HasRank first second ancestor rank) :
    graph.HasRank second first ancestor rank := by
  obtain ⟨near, far, toFirst, toSecond, rfl⟩ := ranked
  exact ⟨far, near, toSecond, toFirst, by rw [Nat.add_comm]⟩

theorem BestCandidate.symm (best : graph.BestCandidate first second ancestor) :
    graph.BestCandidate second first ancestor where
  candidate := best.candidate.symm
  best other candidate different := by
    obtain ⟨rank, otherRank, ranked, otherRanked, before⟩ :=
      best.best other candidate.symm different
    exact ⟨rank, otherRank, ranked.symm, otherRanked.symm, before⟩

theorem lowest?_comm (graph : CallGraph) (first second : Signature) :
    graph.lowest? graph.descent (graph.ancestry first) (graph.ancestry second) =
      graph.lowest? graph.descent (graph.ancestry second) (graph.ancestry first) := by
  ext ancestor
  rw [lowest?_eq_some_iff, lowest?_eq_some_iff]
  exact ⟨BestCandidate.symm, BestCandidate.symm⟩

/-! ### All pairs -/

/-- Pairs listed row by row are those listed column by column. -/
theorem flatMap_filterMap_perm {α β γ : Type} (choose : α → β → Option γ) (rows : List α)
    (columns : List β) :
    (rows.flatMap fun row => columns.filterMap (choose row)).Perm
      (columns.flatMap fun column => rows.filterMap (choose · column)) := by
  induction rows with
  | nil => simp
  | cons row rows ih =>
    have split (column : β) : (row :: rows).filterMap (choose · column) =
        (choose row column).toList ++ rows.filterMap (choose · column) := by
      cases found : choose row column with
      | none => simp [found]
      | some chosen => simp [found]
    simp only [split, List.flatMap_cons]
    rw [List.filterMap_eq_flatMap_toList]
    exact (List.Perm.append_left _ ih).trans (List.flatMap_append_perm ..)

/-- The lowest common ancestors of all pairs of a left and a right method. -/
def pairAncestors (graph : CallGraph) (left right : MethodSet) : List Signature :=
  (graph.ancestries left).flatMap fun first =>
    (graph.ancestries right).filterMap (graph.lowest? graph.descent first)

theorem pairAncestors_perm (graph : CallGraph) (left right : MethodSet) :
    (graph.pairAncestors left right).Perm (graph.pairAncestors right left) := by
  simp only [pairAncestors, ancestries_eq, List.flatMap_map, List.filterMap_map, Function.comp_def]
  have swapped := flatMap_filterMap_perm
    (fun first second => graph.lowest? graph.descent (graph.ancestry first) (graph.ancestry second))
    (left.keys.filter graph.contains) (right.keys.filter graph.contains)
  have same (second : Signature) :
      (fun first => graph.lowest? graph.descent (graph.ancestry first) (graph.ancestry second)) =
        fun first => graph.lowest? graph.descent (graph.ancestry second) (graph.ancestry first) :=
    funext fun first => graph.lowest?_comm first second
  simpa only [same] using swapped

theorem commonAncestors_eq_pairs (graph : CallGraph) (left right : MethodSet) :
    graph.commonAncestors left right =
      if left.isEmpty || right.isEmpty then .error .noChanges
      else if (graph.pairAncestors left right).isEmpty then .error .noCommonAncestor
      else .ok ((graph.pairAncestors left right).map fun signature => ⟨signature, ∅⟩) := by
  unfold commonAncestors
  rw [descentIn_descents]
  rfl

/-- Both orders of two sets fail alike, or find the same common ancestors equally often. -/
theorem commonAncestors_swap (graph : CallGraph) (left right : MethodSet) :
    (∃ failure, graph.commonAncestors left right = .error failure ∧
      graph.commonAncestors right left = .error failure) ∨
    ∃ found swapped, graph.commonAncestors left right = .ok found ∧
      graph.commonAncestors right left = .ok swapped ∧ swapped.Perm found := by
  have perm := graph.pairAncestors_perm left right
  rw [commonAncestors_eq_pairs, commonAncestors_eq_pairs, Bool.or_comm right.isEmpty,
    ← perm.isEmpty_eq]
  split
  · exact .inl ⟨.noChanges, rfl, rfl⟩
  · split
    · exact .inl ⟨.noCommonAncestor, rfl, rfl⟩
    · exact .inr ⟨_, _, rfl, rfl, perm.symm.map _⟩

end CallGraph

/-! ### Records and whole analyses -/

/-- Lines are attributed to either parent by the same rule. -/
theorem MutualMethod.record_mirrored (method : MutualMethod) (project : Project)
    (commit : MergeCommit) :
    method.mirrored.record project commit = (method.record project commit).mirrored :=
  rfl

theorem Scenario.records_mirrored (scenario : Scenario) :
    scenario.mirrored.records = scenario.records.map MethodRecord.mirrored := by
  simp only [Scenario.records, Scenario.mirrored, List.map_map]
  apply List.map_congr_left
  intro method _
  exact method.record_mirrored scenario.project scenario.commit

/-- A mirrored scenario fails as the scenario does, or its analysis is the mirror image. -/
theorem Scenario.analyze_mirrored (scenario : Scenario) (settings : Settings) :
    MirrorImages (scenario.analyze settings) (scenario.mirrored.analyze settings) := by
  have sameStart : scenario.mirrored.program.enter settings.analysis scenario.mirrored.entryPoint =
      scenario.program.enter settings.analysis scenario.entryPoint := rfl
  simp only [Scenario.analyze, sameStart]
  cases scenario.program.enter settings.analysis scenario.entryPoint with
  | error failure => exact .failed failure
  | ok entered =>
    obtain ⟨entry, graph⟩ := entered
    have swap := graph.commonAncestors_swap (.ofList scenario.leftChanged)
      (.ofList scenario.rightChanged)
    rcases swap with ⟨failure, failed, failedToo⟩ | ⟨found, swapped, analysed, analysedToo, perm⟩
    · simp only [Scenario.mirrored, failed, failedToo, bind, Except.bind]
      exact .failed failure
    · simp only [bind, Except.bind, analysed, Scenario.mirrored, analysedToo]
      exact .analysed rfl rfl rfl rfl rfl perm scenario.records_mirrored

end MergeRisk
