import Mathlib.Data.Finset.Card
import MergeRisk.Analysis
import MergeRisk.Proofs.Ordered
import MergeRisk.Proofs.Walk

/-! Common ancestors in a graph grown from one entry point. There the entry reaches whatever is
called, so two methods have a common ancestor exactly when both are called. -/

namespace MergeRisk

namespace CallGraph

/-! ### When two ancestries share a method -/

theorem candidates_isEmpty (reach : Signature → Distances Signature)
    (members : Distances Signature) : (candidates reach members).isEmpty = members.isEmpty := by
  unfold candidates
  extract_lets lowest
  split
  · rfl
  · rename_i nonempty
    cases members with
    | nil => simp [lowest] at nonempty
    | cons _ _ => simpa using nonempty

/-- There is a lowest common ancestor exactly when some method is shared. -/
theorem lowest?_isSome (graph : CallGraph) (reach : Signature → Distances Signature)
    (first second : Distances Signature) :
    (graph.lowest? reach first second).isSome = !(shared first second).isEmpty := by
  rw [lowest?, Option.isSome_map, least?_isSome, candidates_isEmpty]

theorem shared_ne_nil {first second : Distances Signature} {method : Signature} {near far : Nat}
    (inFirst : first.find? method = some near) (inSecond : second.find? method = some far) :
    shared first second ≠ [] := by
  have member : (method, near + far) ∈ shared first second := by
    apply List.mem_filterMap.mpr
    exact ⟨(method, near), Distances.mem_of_find? inFirst, by simp [inSecond]⟩
  exact List.ne_nil_of_mem member

theorem shared_nil_left (second : Distances Signature) : shared [] second = [] := rfl

theorem shared_nil_right (first : Distances Signature) : shared first [] = [] := by
  apply List.filterMap_eq_nil_iff.mpr
  intro entry _
  rfl

/-! ### Graphs with a root -/

/-- Whether a method has a caller in a graph. -/
def isCalled (graph : CallGraph) (method : Signature) : Bool :=
  !(graph.callers method).isEmpty

/-- Every caller is reached from the root along the calls of the graph. -/
def RootedAt (graph : CallGraph) (root : Signature) : Prop :=
  ∀ call ∈ graph.calls, ∃ steps, CallPath graph.calls root call.caller steps

variable {graph : CallGraph} {root : Signature}

theorem isCalled_iff_callers {method : Signature} :
    graph.isCalled method = true ↔ graph.callers method ≠ [] := by
  simp [isCalled]

theorem isCalled_iff {method : Signature} :
    graph.isCalled method = true ↔ ∃ caller, Calls graph.calls caller method := by
  rw [isCalled_iff_callers]
  constructor
  · intro nonempty
    obtain ⟨caller, member⟩ := List.exists_mem_of_ne_nil _ nonempty
    exact ⟨caller, mem_callers.mp member⟩
  · rintro ⟨caller, made⟩
    exact List.ne_nil_of_mem (mem_callers.mpr made)

theorem contains_of_isCalled {method : Signature} (called : graph.isCalled method = true) :
    graph.contains method = true := by
  obtain ⟨caller, made⟩ := isCalled_iff.mp called
  exact contains_iff.mpr (graph.callee_mem _ made)

/-- The root is an ancestor of whatever is called. -/
theorem RootedAt.find?_ancestry (rooted : graph.RootedAt root) {method : Signature}
    (called : graph.isCalled method = true) :
    ∃ distance, (graph.ancestry method).find? root = some distance := by
  obtain ⟨caller, made⟩ := isCalled_iff.mp called
  obtain ⟨steps, path⟩ := rooted _ made
  exact find?_ancestry_of_path (Nat.succ_pos steps) (path.snoc made)

theorem ancestry_of_not_isCalled {method : Signature}
    (uncalled : graph.isCalled method = false) : graph.ancestry method = [] := by
  apply ancestry_eq_nil
  simpa [isCalled] using uncalled

/-- In a rooted graph two methods have a common ancestor exactly when both are called. -/
theorem RootedAt.lowest?_isSome (rooted : graph.RootedAt root)
    (reach : Signature → Distances Signature) (first second : Signature) :
    (graph.lowest? reach (graph.ancestry first) (graph.ancestry second)).isSome =
      (graph.isCalled first && graph.isCalled second) := by
  rw [CallGraph.lowest?_isSome]
  cases calledFirst : graph.isCalled first with
  | false => simp [ancestry_of_not_isCalled calledFirst, shared_nil_left]
  | true =>
    cases calledSecond : graph.isCalled second with
    | false => simp [ancestry_of_not_isCalled calledSecond, shared_nil_right]
    | true =>
      obtain ⟨near, inFirst⟩ := rooted.find?_ancestry calledFirst
      obtain ⟨far, inSecond⟩ := rooted.find?_ancestry calledSecond
      simpa using shared_ne_nil inFirst inSecond

/-! ### All pairs of two sets -/

theorem ancestries_eq (graph : CallGraph) (methods : MethodSet) :
    graph.ancestries methods = (methods.keys.filter graph.contains).map graph.ancestry := by
  simp [ancestries, OrderedBy.keys, List.filter_map, Function.comp_def]

/-- The ancestors that one left method has in common with each right one. -/
theorem RootedAt.length_row (rooted : graph.RootedAt root)
    (reach : Signature → Distances Signature) (first : Signature) (rights : List Signature) :
    (((rights.filter graph.contains).map graph.ancestry).filterMap
      (graph.lowest? reach (graph.ancestry first))).length =
      if graph.isCalled first then rights.countP graph.isCalled else 0 := by
  rw [List.length_filterMap_eq_countP, List.countP_map, List.countP_filter]
  split
  · rename_i called
    apply List.countP_congr
    intro second _
    simp only [Function.comp_apply, rooted.lowest?_isSome, called, Bool.true_and, Bool.and_eq_true]
    exact ⟨And.left, fun called => ⟨called, contains_of_isCalled called⟩⟩
  · rename_i uncalled
    apply List.countP_eq_zero.mpr
    intro second _
    simp [rooted.lowest?_isSome, uncalled]

/-- The pairs with a common ancestor are the pairs of called methods. -/
theorem RootedAt.length_pairs (rooted : graph.RootedAt root)
    (reach : Signature → Distances Signature) (lefts rights : List Signature) :
    (((lefts.filter graph.contains).map graph.ancestry).flatMap fun first =>
      ((rights.filter graph.contains).map graph.ancestry).filterMap
        (graph.lowest? reach first)).length =
      lefts.countP graph.isCalled * rights.countP graph.isCalled := by
  induction lefts with
  | nil => simp
  | cons first lefts ih =>
    by_cases known : graph.contains first = true
    · rw [List.filter_cons_of_pos known, List.map_cons, List.flatMap_cons, List.length_append, ih,
        rooted.length_row, List.countP_cons, Nat.add_mul, Nat.add_comm]
      split <;> simp
    · have uncalled : ¬ graph.isCalled first = true :=
        fun called => known (contains_of_isCalled called)
      rw [List.filter_cons_of_neg known, ih, List.countP_cons_of_neg uncalled]

/-- How many of a set of methods have a caller in a graph. -/
def calledCount (graph : CallGraph) (methods : Finset Signature) : Nat :=
  (methods.filter fun method => graph.callers method ≠ []).card

theorem countP_keys (graph : CallGraph) (changed : List ChangedMethod) :
    (OrderedBy.ofList changed : MethodSet).keys.countP graph.isCalled =
      graph.calledCount (changed.map ChangedMethod.signature).toFinset := by
  have same : (changed.map ChangedMethod.signature).toFinset =
      (OrderedBy.ofList changed : MethodSet).keys.toFinset := by
    ext method
    rw [List.mem_toFinset, List.mem_toFinset, OrderedBy.mem_keys_ofList]
  rw [calledCount, same, List.countP_eq_length_filter,
    ← List.toFinset_card_of_nodup ((OrderedBy.nodup_keys _).filter _), List.toFinset_filter]
  simp only [isCalled_iff_callers]

/-- In a rooted graph two sets have as many common ancestors as there are pairs of called methods. -/
theorem RootedAt.commonAncestors_eq (rooted : graph.RootedAt root) {left right : MethodSet}
    (leftChanged : left.isEmpty = false) (rightChanged : right.isEmpty = false) :
    ∃ found : List ChangedMethod,
      found.length = left.keys.countP graph.isCalled * right.keys.countP graph.isCalled ∧
      graph.commonAncestors left right =
        if found.isEmpty then .error .noCommonAncestor else .ok found := by
  have length := rooted.length_pairs graph.descent left.keys right.keys
  simp only [← ancestries_eq] at length
  refine ⟨_, (List.length_map fun signature => (⟨signature, ∅⟩ : ChangedMethod)).trans length, ?_⟩
  simp only [commonAncestors, leftChanged, rightChanged, Bool.or_self, Bool.false_eq_true, if_false,
    descentIn_descents, List.isEmpty_map]

end CallGraph

/-! ### Graphs grown from an entry point -/

/-- A path of at most `depth` reported calls lies in the graph grown to that depth. -/
theorem Program.callPath_callGraph {program : Program} {entry method : Signature}
    {depth steps : Nat} (path : CallPath program.calls entry method steps) (within : steps ≤ depth) :
    CallPath (program.callGraph entry depth).calls entry method steps := by
  induction steps generalizing method with
  | zero =>
    cases path
    exact .here
  | succ steps ih =>
    obtain ⟨middle, earlier, made⟩ := path.last
    have kept : Calls (program.callGraph entry depth).calls middle method :=
      Program.mem_calls_callGraph.mpr ⟨made, steps, within, earlier⟩
    exact (ih earlier (Nat.le_of_succ_le within)).snoc kept

theorem Program.rootedAt_callGraph (program : Program) (entry : Signature) (depth : Nat) :
    (program.callGraph entry depth).RootedAt entry := by
  intro call member
  obtain ⟨_, steps, below, path⟩ := Program.mem_calls_callGraph.mp member
  exact ⟨steps, Program.callPath_callGraph path (Nat.le_of_lt below)⟩

theorem isEmpty_methods (changed : List ChangedMethod) :
    (OrderedBy.ofList changed : MethodSet).isEmpty = true ↔
      (changed.map ChangedMethod.signature).toFinset = ∅ := by
  rw [OrderedBy.isEmpty_ofList, List.toFinset_eq_empty_iff, List.map_eq_nil_iff]

/-- A scenario whose entry point is known has as many common ancestors as there are pairs of a left
and a right method that are both called in the graph; it fails where a side is empty or there is no
such pair. -/
theorem Scenario.analyze_ancestors (scenario : Scenario) (settings : Settings)
    {owner name : String} {entry : Signature}
    (started : settings.analysis.start scenario.entryPoint = .ok (owner, name))
    (resolved : scenario.program.entryPoint owner name = .ok entry) :
    let graph := scenario.program.callGraph entry settings.analysis.maxDepth
    let left := (scenario.leftChanged.map ChangedMethod.signature).toFinset
    let right := (scenario.rightChanged.map ChangedMethod.signature).toFinset
    let pairs := graph.calledCount left * graph.calledCount right
    (left = ∅ ∨ right = ∅ → scenario.analyze settings = .error .noChanges) ∧
    (left ≠ ∅ → right ≠ ∅ →
      (scenario.analyze settings = .error .noCommonAncestor ↔ pairs = 0) ∧
      (pairs ≠ 0 → ∃ analysis, scenario.analyze settings = .ok analysis ∧
        analysis.ancestors.length = pairs)) := by
  intro graph left right pairs
  have rooted : graph.RootedAt entry := Program.rootedAt_callGraph _ _ _
  have analyzed : scenario.analyze settings =
      (graph.commonAncestors (.ofList scenario.leftChanged) (.ofList scenario.rightChanged)).map
        fun ancestors => ⟨scenario.project, scenario.commit, entry, graph.nodes.length,
          graph.calls.length, ancestors, scenario.records⟩ := by
    simp only [Scenario.analyze, Program.enter, started, resolved, bind, Except.bind, pure,
      Except.pure]
    cases graph.commonAncestors (.ofList scenario.leftChanged)
      (.ofList scenario.rightChanged) <;> rfl
  constructor
  · intro empty
    have refused : graph.commonAncestors (.ofList scenario.leftChanged)
        (.ofList scenario.rightChanged) = .error .noChanges := by
      rw [CallGraph.commonAncestors, if_pos]
      rw [Bool.or_eq_true, isEmpty_methods, isEmpty_methods]
      exact empty
    rw [analyzed, refused]
    rfl
  · intro leftChanged rightChanged
    obtain ⟨found, length, outcome⟩ := rooted.commonAncestors_eq
      (Bool.eq_false_iff.mpr fun empty => leftChanged ((isEmpty_methods _).mp empty))
      (Bool.eq_false_iff.mpr fun empty => rightChanged ((isEmpty_methods _).mp empty))
    rw [CallGraph.countP_keys, CallGraph.countP_keys] at length
    rw [analyzed, outcome]
    cases found with
    | nil =>
      have none : pairs = 0 := length.symm
      exact ⟨⟨fun _ => none, fun _ => rfl⟩, fun some => absurd none some⟩
    | cons first others =>
      have some : pairs ≠ 0 := by
        intro none
        exact absurd (length.trans none) (by simp)
      refine ⟨⟨fun failed => ?_, fun none => absurd none some⟩, fun _ => ⟨_, rfl, length⟩⟩
      cases failed

/-- A method of the class `App` without parameters. -/
def appMethod (name : String) (identifier : Signature.isIdentifier name = true) : Signature :=
  ⟨"App", name, [], by decide, identifier, by decide⟩

/-- A merge in a program whose three methods call each other in a circle. The left parent changed
two methods of the circle, the right one a third and one that nobody calls. -/
def circleScenario : Scenario where
  project := ⟨"app", none⟩
  commit := ⟨"base", "left", "right", "merge"⟩
  entryPoint := some ⟨"App", none⟩
  program := .ofReport []
    [⟨appMethod "main" (by decide), appMethod "open" (by decide)⟩,
      ⟨appMethod "open" (by decide), appMethod "close" (by decide)⟩,
      ⟨appMethod "close" (by decide), appMethod "main" (by decide)⟩]
  leftChanged := [⟨appMethod "open" (by decide), ∅⟩, ⟨appMethod "main" (by decide), ∅⟩,
    ⟨appMethod "open" (by decide), ∅⟩]
  rightChanged := [⟨appMethod "close" (by decide), ∅⟩, ⟨appMethod "idle" (by decide), ∅⟩]

theorem Scenario.analyze_ancestors_circle :
    ({} : AnalysisSettings).start circleScenario.entryPoint = .ok ("App", "main") ∧
    circleScenario.program.entryPoint "App" "main" = .ok (appMethod "main" (by decide)) ∧
    ∃ analysis, circleScenario.analyze {} = .ok analysis ∧ analysis.ancestors.length = 2 := by
  have started : ({} : AnalysisSettings).start circleScenario.entryPoint = .ok ("App", "main") := by
    decide
  have resolved : circleScenario.program.entryPoint "App" "main" =
      .ok (appMethod "main" (by decide)) := by
    decide
  have outcome := circleScenario.analyze_ancestors {} started resolved
  have leftCalled : (circleScenario.program.callGraph (appMethod "main" (by decide)) 5).calledCount
      (circleScenario.leftChanged.map ChangedMethod.signature).toFinset = 2 := by
    cbv
  have rightCalled : (circleScenario.program.callGraph (appMethod "main" (by decide)) 5).calledCount
      (circleScenario.rightChanged.map ChangedMethod.signature).toFinset = 1 := by
    cbv
  simp only [leftCalled, rightCalled] at outcome
  exact ⟨started, resolved, (outcome.2 (by decide) (by decide)).2 (by decide)⟩

end MergeRisk
