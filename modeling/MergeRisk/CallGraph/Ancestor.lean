import MergeRisk.CallGraph.Basic
import MergeRisk.Search

/-! Common ancestors in a call graph. An ancestor of a method reaches it by one or more calls, so a
method is its own ancestor exactly when it lies on a cycle. -/

namespace MergeRisk.CallGraph

/-- The ancestors of a method, with their shortest distances. -/
def ancestry (graph : CallGraph) (method : Signature) : Distances Signature :=
  search graph.callers graph.nodes.length method

/-- The methods reached from a method by one or more calls, with their shortest distances. -/
def descent (graph : CallGraph) (method : Signature) : Distances Signature :=
  search graph.callees graph.nodes.length method

/-- How a common ancestor ranks: by its summed distance, then by its position. -/
structure Rank where
  distance : Nat
  position : Nat
deriving DecidableEq, Repr

instance : Ord Rank := ⟨compareLex (compareOn Rank.distance) (compareOn Rank.position)⟩

instance : Std.TransOrd Rank :=
  inferInstanceAs (Std.TransCmp (compareLex (compareOn Rank.distance) (compareOn Rank.position)))

/-- The methods of both searches, with summed distances. -/
def shared (first second : Distances Signature) : Distances Signature :=
  first.filterMap fun (method, distance) =>
    (second.find? method).map fun other => (method, distance + other)

/-- What each node reaches, kept for many questions. -/
def descents (graph : CallGraph) : List (Signature × Distances Signature) :=
  graph.nodes.map fun method => (method, graph.descent method)

/-- What a method reaches, looked up where it is kept. -/
def descentIn (graph : CallGraph) (kept : List (Signature × Distances Signature))
    (method : Signature) : Distances Signature :=
  (kept.lookup method).getD (graph.descent method)

private theorem lookup_map_getD (reach : Signature → Distances Signature) (method : Signature)
    (nodes : List Signature) :
    ((nodes.map fun node => (node, reach node)).lookup method).getD (reach method) =
      reach method := by
  induction nodes with
  | nil => rfl
  | cons node nodes ih =>
    rw [List.map_cons, List.lookup_cons]
    by_cases same : method = node
    · simp [same]
    · simpa [beq_eq_false_iff_ne.mpr same] using ih

/-- Looking up gives what a search would. -/
theorem descentIn_descents (graph : CallGraph) : graph.descentIn graph.descents = graph.descent :=
  funext fun method => lookup_map_getD graph.descent method graph.nodes

/-- Whether a method reaches some other member. -/
def reachesOther (reach : Signature → Distances Signature) (members : Distances Signature)
    (method : Signature) : Bool :=
  (reach method).any fun (reached, _) => reached != method && members.has reached

/-- Of the shared ancestors, those that reach no other; all of them if there are none such. -/
def candidates (reach : Signature → Distances Signature) (members : Distances Signature) :
    Distances Signature :=
  let lowest := members.filter fun (method, _) => !reachesOther reach members method
  if lowest.isEmpty then members else lowest

/-- The best-ranked candidate among the ancestors that two searches share. -/
def lowest? (graph : CallGraph) (reach : Signature → Distances Signature)
    (first second : Distances Signature) : Option Signature :=
  (least? (fun (method, distance) => (⟨distance, graph.position method⟩ : Rank))
    (candidates reach (shared first second))).map (·.1)

/-- The lowest common ancestor of two nodes. -/
def lowestCommonAncestor (graph : CallGraph) (first second : Signature) : Option Signature :=
  if graph.contains first && graph.contains second then
    graph.lowest? graph.descent (graph.ancestry first) (graph.ancestry second)
  else none

/-- The ancestries of the methods of a set that are nodes, in signature order. -/
def ancestries (graph : CallGraph) (methods : MethodSet) : List (Distances Signature) :=
  (methods.toList.filter fun method => graph.contains method.signature).map fun method =>
    graph.ancestry method.signature

/-- The lowest common ancestors of all pairs of a left and a right method, without lines. -/
def commonAncestors (graph : CallGraph) (left right : MethodSet) :
    Except Failure (List ChangedMethod) :=
  if left.isEmpty || right.isEmpty then .error .noChanges
  else
    let reach := graph.descentIn graph.descents
    let rights := graph.ancestries right
    let found := (graph.ancestries left).flatMap fun first =>
      rights.filterMap (graph.lowest? reach first)
    if found.isEmpty then .error .noCommonAncestor
    else .ok (found.map fun signature => ⟨signature, ∅⟩)

end MergeRisk.CallGraph
