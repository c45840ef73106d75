import MergeRisk.Proofs.HistoryAnalysis
import MergeRisk.Proofs.MirrorSymmetry

/-! The common ancestors of two sets of changed methods are those of their pairs, asked one by one in
the order of the signatures. How the sets were filled and which lines changed does not matter. -/

namespace MergeRisk

/-- The signatures of methods, each once and in ascending order. -/
structure ListsInOrder (signatures : List Signature) (methods : List ChangedMethod) : Prop where
  ascending : signatures.Pairwise fun first second => compare first second = .lt
  listed : ∀ signature, signature ∈ signatures ↔ signature ∈ methods.map ChangedMethod.signature

namespace ListsInOrder
variable {signatures : List Signature} {methods : List ChangedMethod}

/-- The keys of a set, in whatever order its methods were added. -/
theorem eq_keys (inOrder : ListsInOrder signatures methods) :
    signatures = (OrderedBy.ofList methods : MethodSet).keys := by
  apply eq_of_ascending inOrder.ascending (OrderedBy.keys_ascending _)
  intro signature
  rw [inOrder.listed, OrderedBy.mem_keys_ofList]

theorem congr {others : List ChangedMethod} (inOrder : ListsInOrder signatures methods)
    (same : ∀ signature, signature ∈ others.map ChangedMethod.signature ↔
      signature ∈ methods.map ChangedMethod.signature) : ListsInOrder signatures others where
  ascending := inOrder.ascending
  listed signature := (inOrder.listed signature).trans (same signature).symm

end ListsInOrder

namespace CallGraph
variable {graph : CallGraph}

/-! ### Pairs asked one by one -/

/-- The ancestors that a node has in common with each of several methods. -/
theorem filterMap_lowestCommonAncestor {first : Signature} (known : graph.contains first = true)
    (others : List Signature) :
    others.filterMap (graph.lowestCommonAncestor first) =
      ((others.filter graph.contains).map graph.ancestry).filterMap
        (graph.lowest? graph.descent (graph.ancestry first)) := by
  rw [List.filterMap_map, List.filterMap_filter]
  apply List.filterMap_congr
  intro second _
  simp only [lowestCommonAncestor, known, Bool.true_and, Function.comp_apply]

theorem filterMap_lowestCommonAncestor_unknown {first : Signature}
    (unknown : ¬ graph.contains first = true) (others : List Signature) :
    others.filterMap (graph.lowestCommonAncestor first) = [] := by
  apply List.filterMap_eq_nil_iff.mpr
  intro second _
  simp only [lowestCommonAncestor, unknown, Bool.false_and, Bool.false_eq_true, if_false]

/-- Searches made once for each method answer as those made afresh for each pair. -/
theorem flatMap_lowestCommonAncestor (graph : CallGraph) (lefts rights : List Signature) :
    lefts.flatMap (fun first => rights.filterMap (graph.lowestCommonAncestor first)) =
      ((lefts.filter graph.contains).map graph.ancestry).flatMap fun first =>
        ((rights.filter graph.contains).map graph.ancestry).filterMap
          (graph.lowest? graph.descent first) := by
  induction lefts with
  | nil => rfl
  | cons first lefts ih =>
    by_cases known : graph.contains first = true
    · rw [List.flatMap_cons, ih, filterMap_lowestCommonAncestor known,
        List.filter_cons_of_pos known, List.map_cons, List.flatMap_cons]
    · rw [List.flatMap_cons, ih, filterMap_lowestCommonAncestor_unknown known,
        List.filter_cons_of_neg known, List.nil_append]

theorem pairAncestors_eq (graph : CallGraph) (left right : MethodSet) :
    graph.pairAncestors left right =
      left.keys.flatMap fun first => right.keys.filterMap (graph.lowestCommonAncestor first) := by
  rw [flatMap_lowestCommonAncestor, pairAncestors, ancestries_eq, ancestries_eq]

/-! ### Outcomes -/

section
variable {left right : MethodSet}

theorem commonAncestors_eq_noChanges_iff :
    graph.commonAncestors left right = .error .noChanges ↔
      left.isEmpty = true ∨ right.isEmpty = true := by
  rw [commonAncestors_eq_pairs]
  grind

theorem commonAncestors_eq_noCommonAncestor_iff :
    graph.commonAncestors left right = .error .noCommonAncestor ↔
      left.isEmpty = false ∧ right.isEmpty = false ∧ graph.pairAncestors left right = [] := by
  rw [commonAncestors_eq_pairs]
  grind

theorem commonAncestors_eq_ok_iff {methods : List ChangedMethod} :
    graph.commonAncestors left right = .ok methods ↔
      left.isEmpty = false ∧ right.isEmpty = false ∧ graph.pairAncestors left right ≠ [] ∧
        methods = (graph.pairAncestors left right).map fun signature => ⟨signature, ∅⟩ := by
  rw [commonAncestors_eq_pairs]
  grind

end

/-- Two sets of changed methods, filled from any lists: they have no common ancestors for want of
changes exactly when one is empty, and for want of an ancestor exactly when no pair has one. Otherwise
these are the lowest common ancestors of the pairs, without lines, in the order of the left and then of
the right signatures. Sets of the same signatures have the same outcome. -/
theorem commonAncestors_pairwise (graph : CallGraph) {left right : List ChangedMethod}
    {lefts rights : List Signature} (leftsListed : ListsInOrder lefts left)
    (rightsListed : ListsInOrder rights right) :
    let outcome := graph.commonAncestors (.ofList left) (.ofList right)
    let found := lefts.flatMap fun first => rights.filterMap (graph.lowestCommonAncestor first)
    (outcome = .error .noChanges ↔ left = [] ∨ right = []) ∧
    (outcome = .error .noCommonAncestor ↔ left ≠ [] ∧ right ≠ [] ∧
      ∀ first ∈ lefts, ∀ second ∈ rights, graph.lowestCommonAncestor first second = none) ∧
    (∀ methods, outcome = .ok methods ↔ left ≠ [] ∧ right ≠ [] ∧ found ≠ [] ∧
      methods = found.map fun signature => ⟨signature, ∅⟩) ∧
    ∀ otherLeft otherRight : List ChangedMethod,
      (∀ signature, signature ∈ otherLeft.map ChangedMethod.signature ↔
        signature ∈ left.map ChangedMethod.signature) →
      (∀ signature, signature ∈ otherRight.map ChangedMethod.signature ↔
        signature ∈ right.map ChangedMethod.signature) →
      graph.commonAncestors (.ofList otherLeft) (.ofList otherRight) = outcome := by
  intro outcome found
  have isFound : graph.pairAncestors (.ofList left) (.ofList right) = found := by
    rw [pairAncestors_eq, ← leftsListed.eq_keys, ← rightsListed.eq_keys]
  have noPair : found = [] ↔ ∀ first ∈ lefts, ∀ second ∈ rights,
      graph.lowestCommonAncestor first second = none := by
    simp only [found, List.flatMap_eq_nil_iff, List.filterMap_eq_nil_iff]
  have changed (methods : List ChangedMethod) :
      (OrderedBy.ofList methods : MethodSet).isEmpty = false ↔ methods ≠ [] := by
    rw [← Bool.not_eq_true, OrderedBy.isEmpty_ofList]
  refine ⟨?_, ?_, ?_, ?_⟩
  · rw [commonAncestors_eq_noChanges_iff, OrderedBy.isEmpty_ofList, OrderedBy.isEmpty_ofList]
  · rw [commonAncestors_eq_noCommonAncestor_iff, changed, changed, isFound, noPair]
  · intro methods
    rw [commonAncestors_eq_ok_iff, changed, changed, isFound]
  · intro otherLeft otherRight sameLeft sameRight
    have lefts := (leftsListed.congr sameLeft).eq_keys
    have rights := (rightsListed.congr sameRight).eq_keys
    exact graph.commonAncestors_congr (lefts.symm.trans leftsListed.eq_keys)
      (rights.symm.trans rightsListed.eq_keys)

/-- A method of the class `Shelf` for one book. -/
def shelfMethod (name : String) (identifier : Signature.isIdentifier name = true) : Signature :=
  ⟨"Shelf", name, ["Book"], by decide, identifier, by decide⟩

def shelfSort : Signature := shelfMethod "sort" (by decide)

def shelfFind : Signature := shelfMethod "find" (by decide)

def shelfPut : Signature := shelfMethod "put" (by decide)

def shelfTake : Signature := shelfMethod "take" (by decide)

/-- A method that is not in the graph. -/
def shelfLost : Signature := shelfMethod "lost" (by decide)

def shelfGraph : CallGraph :=
  addCalls ∅ [⟨shelfSort, shelfPut⟩, ⟨shelfSort, shelfFind⟩, ⟨shelfFind, shelfTake⟩,
    ⟨shelfFind, shelfPut⟩]

/-- One method is listed twice, with different lines. -/
def shelfLeft : List ChangedMethod :=
  [⟨shelfTake, ∅⟩, ⟨shelfFind, .ofList [.added 3]⟩, ⟨shelfLost, ∅⟩, ⟨shelfFind, ∅⟩]

def shelfRight : List ChangedMethod :=
  [⟨shelfPut, ∅⟩, ⟨shelfFind, .ofList [.removed 8]⟩]

theorem shelfLeft_inOrder : ListsInOrder [shelfFind, shelfLost, shelfTake] shelfLeft where
  ascending := by decide
  listed signature := by
    simp only [shelfLeft, List.map_cons, List.map_nil, List.mem_cons, List.not_mem_nil, or_false]
    grind

theorem shelfRight_inOrder : ListsInOrder [shelfFind, shelfPut] shelfRight where
  ascending := by decide
  listed signature := by
    simp only [shelfRight, List.map_cons, List.map_nil, List.mem_cons, List.not_mem_nil, or_false]
    exact or_comm

theorem commonAncestors_pairwise_shelf :
    ListsInOrder [shelfFind, shelfLost, shelfTake] shelfLeft ∧
    ListsInOrder [shelfFind, shelfPut] shelfRight ∧
    shelfGraph.commonAncestors (.ofList shelfLeft) (.ofList shelfRight) =
      .ok [⟨shelfSort, ∅⟩, ⟨shelfSort, ∅⟩, ⟨shelfSort, ∅⟩, ⟨shelfFind, ∅⟩] ∧
    shelfGraph.commonAncestors (.ofList shelfLeft.reverse) (.ofList shelfRight) =
      .ok [⟨shelfSort, ∅⟩, ⟨shelfSort, ∅⟩, ⟨shelfSort, ∅⟩, ⟨shelfFind, ∅⟩] := by
  have outcome := shelfGraph.commonAncestors_pairwise shelfLeft_inOrder shelfRight_inOrder
  have found := (outcome.2.2.1 [⟨shelfSort, ∅⟩, ⟨shelfSort, ∅⟩, ⟨shelfSort, ∅⟩, ⟨shelfFind, ∅⟩]).mpr
    ⟨by decide, by decide, by decide +kernel, by decide +kernel⟩
  have reversed := outcome.2.2.2 shelfLeft.reverse shelfRight
    (fun signature => by rw [List.map_reverse, List.mem_reverse]) (fun _ => Iff.rfl)
  exact ⟨shelfLeft_inOrder, shelfRight_inOrder, found, reversed.trans found⟩

end CallGraph

end MergeRisk
