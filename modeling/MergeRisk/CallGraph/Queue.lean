import MergeRisk.CallGraph.Ancestor
import MergeRisk.CallGraph.Indexed

/-! Ancestors in a stored graph, found with a queue. Nodes are known by their numbers. -/

namespace MergeRisk

/-- A search under way: the distances of the nodes that were found, and the nodes whose neighbours
are still to be met, in the order in which they were found. The start waits without being found. -/
structure QueueSearch (size : Nat) where
  found : Std.HashMap (Fin size) Nat
  waiting : List (Fin size × Nat)

namespace QueueSearch
variable {size : Nat}

/-- Meet a node at a distance; only the first time counts. -/
def meet (distance : Nat) (search : QueueSearch size) (node : Fin size) : QueueSearch size :=
  if search.found.contains node then search
  else ⟨search.found.insert node distance, search.waiting ++ [(node, distance)]⟩

/-- Meet the neighbours of a node that is taken from the queue. -/
def expand (neighbours : Fin size → List (Fin size)) (node : Fin size) (distance : Nat)
    (search : QueueSearch size) : QueueSearch size :=
  (neighbours node).foldl (meet (distance + 1)) search

/-- The nodes that were not found. -/
def unfound (search : QueueSearch size) : List (Fin size) :=
  (List.finRange size).filter fun node => !search.found.contains node

/-- How often a node can still be taken from the queue. -/
def remaining (search : QueueSearch size) : Nat :=
  search.unfound.length + search.waiting.length

theorem remaining_meet_le (distance : Nat) (search : QueueSearch size) (node : Fin size) :
    (search.meet distance node).remaining ≤ search.remaining := by
  unfold meet
  split
  · exact Nat.le_refl _
  · rename_i fresh
    have kept : unfound ⟨search.found.insert node distance, search.waiting ++ [(node, distance)]⟩ =
        search.unfound.filter fun other => !(node == other) := by
      simp only [unfound, List.filter_filter, Std.HashMap.contains_insert, Bool.not_or]
    have fewer : (search.unfound.filter fun other => !(node == other)).length <
        search.unfound.length := by
      apply List.length_filter_lt_length_iff_exists.mpr
      exact ⟨node, List.mem_filter.mpr ⟨List.mem_finRange node, by simpa using fresh⟩, by simp⟩
    rw [remaining, kept, remaining, List.length_append, List.length_singleton]
    omega

theorem remaining_expand_le (neighbours : Fin size → List (Fin size)) (node : Fin size)
    (distance : Nat) (search : QueueSearch size) :
    (search.expand neighbours node distance).remaining ≤ search.remaining := by
  unfold expand
  induction neighbours node generalizing search with
  | nil => exact Nat.le_refl _
  | cons first others ih => exact Nat.le_trans (ih _) (remaining_meet_le _ _ _)

/-- Take nodes from the queue until it is empty. -/
def finish (neighbours : Fin size → List (Fin size)) :
    QueueSearch size → Std.HashMap (Fin size) Nat
  | ⟨found, []⟩ => found
  | ⟨found, (node, distance) :: waiting⟩ =>
    finish neighbours (expand neighbours node distance ⟨found, waiting⟩)
termination_by search => search.remaining
decreasing_by exact Nat.lt_of_le_of_lt (remaining_expand_le ..) (Nat.lt_succ_self _)

/-- The nodes reached from a start by one or more steps, with the fewest steps to each. -/
def distances (neighbours : Fin size → List (Fin size)) (start : Fin size) :
    Std.HashMap (Fin size) Nat :=
  finish neighbours ⟨∅, [(start, 0)]⟩

end QueueSearch

namespace IndexedGraph
variable {store : GraphStore Signature}

/-- A number that a node has. -/
def node? (graph : IndexedGraph store) (number : Nat) : Option (Fin graph.nodes.length) :=
  if inside : number < graph.nodes.length then some ⟨number, inside⟩ else none

/-- The nodes from which an edge leads to a node. -/
def sources (graph : IndexedGraph store) (node : Fin graph.nodes.length) :
    List (Fin graph.nodes.length) :=
  (store.neighbours graph.graph .incoming node).filterMap graph.node?

/-- The ancestors of a node, with their shortest distances. -/
def ancestry (graph : IndexedGraph store) (node : Fin graph.nodes.length) :
    Std.HashMap (Fin graph.nodes.length) Nat :=
  QueueSearch.distances graph.sources node

/-- The ancestors of a node by their methods. -/
def ancestors (graph : IndexedGraph store) (node : Fin graph.nodes.length) : Distances Signature :=
  (graph.ancestry node).toList.map fun (other, distance) => (graph.nodes.get other, distance)

/-- The lowest common ancestor of two nodes. -/
def lowestCommonAncestor (graph : IndexedGraph store) (first second : Signature) :
    Option Signature := do
  let first ← graph.index[first]? >>= graph.node?
  let second ← graph.index[second]? >>= graph.node?
  graph.listed.lowest? graph.listed.descent (graph.ancestors first) (graph.ancestors second)

end IndexedGraph

end MergeRisk
