import Mathlib.Data.List.Basic
import MergeRisk.CallGraph.Indexed
import MergeRisk.Proofs.Ordered

/-! A graph of numbered nodes with an index of its methods answers as the lists of what was added to
it tell: methods and calls in the order of their first mention, on both sides of every node. -/

namespace MergeRisk

/-! ### Stores -/

namespace Direction
variable {β : Type}

/-- The end of an edge at which it is followed. -/
def near : Direction → β × β → β
  | outgoing, edge => edge.1
  | incoming, edge => edge.2

/-- The end of an edge that is reached by following it. -/
def far : Direction → β × β → β
  | outgoing, edge => edge.2
  | incoming, edge => edge.1

end Direction

/-- How a store grows: it appends nodes and edges, and a new edge comes before the older ones of its
two ends. -/
structure GraphStore.Lawful {α : Type} (store : GraphStore α) : Prop where
  nodes_empty : store.nodes store.empty = []
  edges_empty : store.edges store.empty = []
  neighbours_empty : ∀ direction node, store.neighbours store.empty direction node = []
  nodes_addNode : ∀ graph value, store.nodes (store.addNode graph value).1 =
    store.nodes graph ++ [value]
  number_addNode : ∀ graph value, (store.addNode graph value).2 = (store.nodes graph).length
  edges_addNode : ∀ graph value, store.edges (store.addNode graph value).1 = store.edges graph
  neighbours_addNode : ∀ graph value direction node,
    store.neighbours (store.addNode graph value).1 direction node =
      store.neighbours graph direction node
  nodes_addEdge : ∀ graph source target, source < (store.nodes graph).length →
    target < (store.nodes graph).length →
    store.nodes (store.addEdge graph source target) = store.nodes graph
  edges_addEdge : ∀ graph source target, source < (store.nodes graph).length →
    target < (store.nodes graph).length →
    store.edges (store.addEdge graph source target) = store.edges graph ++ [(source, target)]
  neighbours_addEdge : ∀ graph source target direction node,
    source < (store.nodes graph).length → target < (store.nodes graph).length →
    store.neighbours (store.addEdge graph source target) direction node =
      if direction.near (source, target) = node then
        direction.far (source, target) :: store.neighbours graph direction node
      else store.neighbours graph direction node
  hasEdge_iff : ∀ graph source target, store.hasEdge graph source target = true ↔
    target ∈ store.neighbours graph .outgoing source

namespace LinkedGraph
variable {α : Type}

theorem neighbours_addNode (graph : LinkedGraph α) (value : α) (direction : Direction)
    (node : Nat) :
    (graph.addNode value).neighbours direction node = graph.neighbours direction node := by
  unfold neighbours addNode
  rcases Nat.lt_trichotomy node graph.nodes.length with inside | same | outside
  · rw [List.getElem?_append_left inside]
  · -- The new node has no edges, as if it were not there.
    subst same
    cases direction <;> simp [LinkedNode.others]
  · rw [List.getElem?_eq_none (by simp; omega), List.getElem?_eq_none (by omega)]

theorem neighbours_addEdge (graph : LinkedGraph α) {source target : Nat}
    (hasSource : source < graph.nodes.length) (hasTarget : target < graph.nodes.length)
    (direction : Direction) (node : Nat) :
    (graph.addEdge source target).neighbours direction node =
      if direction.near (source, target) = node then
        direction.far (source, target) :: graph.neighbours direction node
      else graph.neighbours direction node := by
  simp only [neighbours, addEdge, List.getElem?_modify]
  by_cases inside : node < graph.nodes.length
  · rw [List.getElem?_eq_getElem inside]
    cases direction with
    | outgoing =>
      by_cases atSource : source = node <;> by_cases atTarget : target = node <;>
        simp [LinkedNode.others, Direction.near, Direction.far, atSource, atTarget]
    | incoming =>
      by_cases atSource : source = node <;> by_cases atTarget : target = node <;>
        simp [LinkedNode.others, Direction.near, Direction.far, atSource, atTarget]
  · have elsewhere : direction.near (source, target) ≠ node := by
      cases direction <;> simp only [Direction.near] <;> omega
    rw [List.getElem?_eq_none (by omega), if_neg elsewhere]
    rfl

theorem store_lawful (α : Type) : (store α).Lawful where
  nodes_empty := rfl
  edges_empty := rfl
  neighbours_empty _ _ := rfl
  nodes_addNode graph value := by simp [store, addNode]
  number_addNode graph value := by simp [store]
  edges_addNode _ _ := rfl
  neighbours_addNode := neighbours_addNode
  nodes_addEdge graph source target _ _ := by
    apply List.ext_getElem?
    intro node
    simp only [store, addEdge, List.getElem?_map, List.getElem?_modify]
    cases graph.nodes[node]? with
    | none => rfl
    | some found => by_cases atSource : source = node <;> by_cases atTarget : target = node <;>
        simp [atSource, atTarget]
  edges_addEdge _ _ _ _ _ := rfl
  neighbours_addEdge graph source target direction node hasSource hasTarget :=
    neighbours_addEdge graph (by simpa [store] using hasSource) (by simpa [store] using hasTarget)
      direction node
  hasEdge_iff graph source target := by simp [store]

end LinkedGraph

/-- The caller and the callee of a call. -/
def Call.ends (call : Call) : Signature × Signature :=
  (call.caller, call.callee)

/-! ### The index and the links -/

namespace IndexedGraph
variable {store : GraphStore Signature} {graph : IndexedGraph store}

/-- The index tells where each method is listed, edges join listed nodes, and each node links to the
other ends of its edges, the latest first. -/
structure Consistent (graph : IndexedGraph store) : Prop where
  index_iff : ∀ (method : Signature) (number : Nat),
    graph.index[method]? = some number ↔ graph.nodes[number]? = some method
  inside : ∀ edge ∈ store.edges graph.graph,
    edge.1 < graph.nodes.length ∧ edge.2 < graph.nodes.length
  linked : ∀ direction node, store.neighbours graph.graph direction node =
    (((store.edges graph.graph).filter (direction.near · = node)).map direction.far).reverse

theorem Consistent.empty (lawful : store.Lawful) : Consistent ({} : IndexedGraph store) where
  index_iff method number := by
    simp [nodes, lawful.nodes_empty]
  inside edge member := by
    simp [lawful.edges_empty] at member
  linked direction node := by
    simp [lawful.neighbours_empty, lawful.edges_empty]

theorem callOf?_eq_some {edge : Nat × Nat} {call : Call} :
    graph.callOf? edge = some call ↔
      graph.nodes[edge.1]? = some call.caller ∧ graph.nodes[edge.2]? = some call.callee := by
  cases call
  simp only [callOf?, bind, pure, Option.bind_eq_some_iff, Option.some.injEq, Call.mk.injEq]
  constructor
  · rintro ⟨caller, foundCaller, callee, foundCallee, rfl, rfl⟩
    exact ⟨foundCaller, foundCallee⟩
  · rintro ⟨foundCaller, foundCallee⟩
    exact ⟨_, foundCaller, _, foundCallee, rfl, rfl⟩

/-- The methods at either end of a listed call are listed. -/
theorem ends_mem {call : Call} (member : call ∈ graph.calls) (direction : Direction) :
    direction.near call.ends ∈ graph.nodes := by
  obtain ⟨edge, _, found⟩ := List.mem_filterMap.mp member
  obtain ⟨atCaller, atCallee⟩ := callOf?_eq_some.mp found
  cases direction with
  | outgoing => exact List.mem_of_getElem? atCaller
  | incoming => exact List.mem_of_getElem? atCallee

namespace Consistent
variable (consistent : graph.Consistent)
include consistent

theorem mem_nodes_iff {method : Signature} :
    method ∈ graph.nodes ↔ ∃ number, graph.index[method]? = some number := by
  simp only [consistent.index_iff]
  exact List.mem_iff_getElem?

/-- A method is listed at one place only. -/
theorem number_unique {method : Signature} {first second : Nat}
    (atFirst : graph.nodes[first]? = some method) (atSecond : graph.nodes[second]? = some method) :
    first = second := by
  have found := (consistent.index_iff method first).mpr atFirst
  rw [(consistent.index_iff method second).mpr atSecond] at found
  exact (Option.some.inj found).symm

theorem idxOf_eq {method : Signature} {number : Nat}
    (listed : graph.nodes[number]? = some method) : graph.nodes.idxOf method = number :=
  consistent.number_unique (List.getElem?_idxOf (List.mem_of_getElem? listed)) listed

theorem contains_iff {method : Signature} :
    graph.contains method = true ↔ method ∈ graph.nodes := by
  rw [consistent.mem_nodes_iff, contains, Std.HashMap.contains_eq_isSome_getElem?,
    Option.isSome_iff_exists]

/-- Every edge stands for a call. -/
theorem exists_callOf? {edge : Nat × Nat} (member : edge ∈ store.edges graph.graph) :
    ∃ call, graph.callOf? edge = some call := by
  obtain ⟨hasSource, hasTarget⟩ := consistent.inside edge member
  refine ⟨⟨graph.nodes[edge.1], graph.nodes[edge.2]⟩, ?_⟩
  exact callOf?_eq_some.mpr ⟨List.getElem?_eq_getElem hasSource, List.getElem?_eq_getElem hasTarget⟩

/-- A call is listed exactly when there is an edge between the numbers of its ends. -/
theorem mem_calls_iff {call : Call} {source target : Nat}
    (atSource : graph.nodes[source]? = some call.caller)
    (atTarget : graph.nodes[target]? = some call.callee) :
    call ∈ graph.calls ↔ (source, target) ∈ store.edges graph.graph := by
  rw [calls, List.mem_filterMap]
  constructor
  · rintro ⟨⟨first, second⟩, member, found⟩
    obtain ⟨atFirst, atSecond⟩ := callOf?_eq_some.mp found
    rwa [consistent.number_unique atSource atFirst, consistent.number_unique atTarget atSecond]
  · intro member
    exact ⟨(source, target), member, callOf?_eq_some.mpr ⟨atSource, atTarget⟩⟩

/-- Following some edges of a node finds the far ends of the calls they stand for. -/
theorem filterMap_far {direction : Direction} {method : Signature} {number : Nat}
    (listed : graph.nodes[number]? = some method) {edges : List (Nat × Nat)}
    (stored : ∀ edge ∈ edges, edge ∈ store.edges graph.graph) :
    ((edges.filter (direction.near · = number)).map direction.far).filterMap (graph.nodes[·]?) =
      ((edges.filterMap graph.callOf?).filter (direction.near ·.ends = method)).map
        (direction.far ·.ends) := by
  induction edges with
  | nil => rfl
  | cons edge edges ih =>
    obtain ⟨first, rest⟩ := List.forall_mem_cons.mp stored
    obtain ⟨call, found⟩ := consistent.exists_callOf? first
    have atNear : graph.nodes[direction.near edge]? = some (direction.near call.ends) := by
      cases direction with
      | outgoing => exact (callOf?_eq_some.mp found).1
      | incoming => exact (callOf?_eq_some.mp found).2
    have atFar : graph.nodes[direction.far edge]? = some (direction.far call.ends) := by
      cases direction with
      | outgoing => exact (callOf?_eq_some.mp found).2
      | incoming => exact (callOf?_eq_some.mp found).1
    have same : direction.near edge = number ↔ direction.near call.ends = method := by
      constructor
      · intro atNumber
        rw [atNumber, listed] at atNear
        exact (Option.some.inj atNear).symm
      · intro isMethod
        rw [isMethod] at atNear
        exact consistent.number_unique atNear listed
    rw [List.filterMap_cons_some found]
    by_cases here : direction.near edge = number
    · rw [List.filter_cons_of_pos (by simpa using here),
        List.filter_cons_of_pos (by simpa using same.mp here), List.map_cons, List.map_cons,
        List.filterMap_cons_some atFar, ih rest]
    · have elsewhere := fun isMethod => here (same.mpr isMethod)
      rw [List.filter_cons_of_neg (by simpa using here),
        List.filter_cons_of_neg (by simpa using elsewhere), ih rest]

/-- The neighbours of a method on one side are the far ends of its listed calls there, in their
order. -/
theorem neighbours_eq (direction : Direction) (method : Signature) :
    graph.neighbours direction method =
      (graph.calls.filter (direction.near ·.ends = method)).map (direction.far ·.ends) := by
  unfold neighbours
  split
  · rename_i unknown
    have none : graph.calls.filter (direction.near ·.ends = method) = [] := by
      apply List.filter_eq_nil_iff.mpr
      intro call member isMethod
      have listed := ends_mem member direction
      rw [of_decide_eq_true isMethod, consistent.mem_nodes_iff] at listed
      obtain ⟨number, found⟩ := listed
      rw [unknown] at found
      cases found
    rw [none, List.map_nil]
  · rename_i number found
    have listed := (consistent.index_iff method number).mp found
    -- The store gives the latest edge first, so its answer is turned around.
    rw [consistent.linked, List.filterMap_reverse, List.reverse_reverse]
    exact consistent.filterMap_far listed fun _ member => member

/-- A node links to the far ends of its edges and to nothing else. -/
theorem mem_neighbours_iff (direction : Direction) (edge : Nat × Nat) :
    direction.far edge ∈ store.neighbours graph.graph direction (direction.near edge) ↔
      edge ∈ store.edges graph.graph := by
  rw [consistent.linked, List.mem_reverse, List.mem_map]
  constructor
  · intro found
    obtain ⟨other, member, sameFar⟩ := found
    obtain ⟨member, isNear⟩ := List.mem_filter.mp member
    have sameNear : direction.near other = direction.near edge := of_decide_eq_true isNear
    have same : other = edge := by
      cases direction with
      | outgoing => exact Prod.ext sameNear sameFar
      | incoming => exact Prod.ext sameFar sameNear
    exact same ▸ member
  · intro member
    exact ⟨edge, List.mem_filter.mpr ⟨member, decide_eq_true rfl⟩, rfl⟩

theorem hasEdge_iff (lawful : store.Lawful) {source target : Nat} :
    store.hasEdge graph.graph source target = true ↔
      (source, target) ∈ store.edges graph.graph := by
  rw [lawful.hasEdge_iff]
  exact consistent.mem_neighbours_iff .outgoing (source, target)

end Consistent

/-! ### One addition -/

theorem getElem?_concat_eq_some {α : Type} {elements : List α} {last found : α} {number : Nat} :
    (elements ++ [last])[number]? = some found ↔
      elements[number]? = some found ∨ number = elements.length ∧ last = found := by
  rcases Nat.lt_trichotomy number elements.length with inside | same | outside
  · simp [List.getElem?_append_left inside, Nat.ne_of_lt inside]
  · simp [same]
  · have beyond : (elements ++ [last]).length ≤ number := by
      rw [List.length_append]
      exact outside
    rw [List.getElem?_eq_none beyond, List.getElem?_eq_none (Nat.le_of_lt outside)]
    simp [Nat.ne_of_gt outside]

/-- What adding a method comes to: it is listed once, at the number that is returned. -/
structure NodeAdded (graph : IndexedGraph store) (method : Signature)
    (added : Nat × IndexedGraph store) : Prop where
  consistent : added.2.Consistent
  nodes : added.2.nodes = appendNew graph.nodes method
  calls : added.2.calls = graph.calls
  listed : added.2.nodes[added.1]? = some method

/-- What adding a call comes to: its ends and then the call are listed once, and it is told whether
the call is new. -/
structure CallAdded (graph : IndexedGraph store) (call : Call)
    (added : Bool × IndexedGraph store) : Prop where
  consistent : added.2.Consistent
  nodes : added.2.nodes = appendNew (appendNew graph.nodes call.caller) call.callee
  calls : added.2.calls = appendNew graph.calls call
  isNew : added.1 = true ↔ call ∉ graph.calls

namespace Consistent
variable (consistent : graph.Consistent) (lawful : store.Lawful)
include consistent lawful

/-- A method without a number gets the next one. -/
theorem addNode_unknown {method : Signature} (unknown : graph.index[method]? = none) :
    NodeAdded graph method ((store.nodes graph.graph).length,
      ⟨(store.addNode graph.graph method).1,
        graph.index.insert method (store.nodes graph.graph).length⟩) := by
  have absent : method ∉ graph.nodes := by
    rw [consistent.mem_nodes_iff, unknown]
    simp
  have grown := lawful.nodes_addNode graph.graph method
  have edges := lawful.edges_addNode graph.graph method
  constructor
  case nodes => rw [appendNew, if_neg absent]; exact grown
  case listed =>
    rw [nodes, grown]
    simp
  case calls =>
    rw [calls, calls, edges]
    apply List.filterMap_congr
    intro edge member
    obtain ⟨hasSource, hasTarget⟩ := consistent.inside edge member
    simp only [callOf?, nodes, grown] at hasSource hasTarget ⊢
    rw [List.getElem?_append_left hasSource, List.getElem?_append_left hasTarget]
  case consistent =>
    constructor
    · intro other number
      rw [Std.HashMap.getElem?_insert, nodes, grown, getElem?_concat_eq_some]
      by_cases same : method = other
      · subst same
        have nowhere : (store.nodes graph.graph)[number]? ≠ some method :=
          fun listed => absent (List.mem_of_getElem? listed)
        simp only [beq_self_eq_true, if_true, Option.some.injEq, nowhere, false_or, and_true]
        exact eq_comm
      · have old := consistent.index_iff other number
        simpa [same, nodes] using old
    · intro edge member
      rw [edges] at member
      obtain ⟨hasSource, hasTarget⟩ := consistent.inside edge member
      simp only [nodes, grown, List.length_append] at hasSource hasTarget ⊢
      omega
    · intro direction node
      rw [lawful.neighbours_addNode, edges]
      exact consistent.linked direction node

theorem addNode (method : Signature) : NodeAdded graph method (graph.addNode method) := by
  unfold IndexedGraph.addNode
  split
  · rename_i number found
    have listed := (consistent.index_iff method number).mp found
    exact ⟨consistent, (if_pos (List.mem_of_getElem? listed)).symm, rfl, listed⟩
  · rename_i unknown
    have added := consistent.addNode_unknown lawful unknown
    rw [← lawful.number_addNode graph.graph method] at added
    exact added

/-- An edge between two numbers that has not been there lists one more call. -/
theorem addEdge_new {call : Call} {source target : Nat}
    (atSource : graph.nodes[source]? = some call.caller)
    (atTarget : graph.nodes[target]? = some call.callee) :
    let grown : IndexedGraph store := { graph with
      graph := store.addEdge graph.graph source target }
    grown.Consistent ∧ grown.nodes = graph.nodes ∧ grown.calls = graph.calls ++ [call] := by
  intro grown
  obtain ⟨hasSource, _⟩ := List.getElem?_eq_some_iff.mp atSource
  obtain ⟨hasTarget, _⟩ := List.getElem?_eq_some_iff.mp atTarget
  have sameNodes : grown.nodes = graph.nodes :=
    lawful.nodes_addEdge graph.graph source target hasSource hasTarget
  have edges : store.edges grown.graph = store.edges graph.graph ++ [(source, target)] :=
    lawful.edges_addEdge graph.graph source target hasSource hasTarget
  refine ⟨⟨?_, ?_, ?_⟩, sameNodes, ?_⟩
  · intro method number
    rw [sameNodes]
    exact consistent.index_iff method number
  · intro edge member
    rw [edges, List.mem_append, List.mem_singleton] at member
    rw [sameNodes]
    rcases member with old | rfl
    · exact consistent.inside edge old
    · exact ⟨hasSource, hasTarget⟩
  · intro direction node
    have links := lawful.neighbours_addEdge graph.graph source target direction node hasSource
      hasTarget
    rw [links, edges, List.filter_append, List.map_append, List.reverse_append,
      consistent.linked direction node]
    by_cases here : direction.near (source, target) = node
    · simp [here]
    · simp [here]
  · have single : graph.callOf? (source, target) = some call :=
      callOf?_eq_some.mpr ⟨atSource, atTarget⟩
    have sameCallOf : grown.callOf? = graph.callOf? := by
      funext edge
      rw [callOf?, callOf?, sameNodes]
    rw [calls, sameCallOf, edges, List.filterMap_append, List.filterMap_cons_some single]
    rfl

theorem addCall (call : Call) : CallAdded graph call (graph.addCall call) := by
  have withCaller := consistent.addNode lawful call.caller
  have withBoth := withCaller.consistent.addNode lawful call.callee
  unfold IndexedGraph.addCall
  generalize graph.addNode call.caller = first at withCaller withBoth ⊢
  obtain ⟨source, middle⟩ := first
  simp only at withCaller withBoth ⊢
  generalize middle.addNode call.callee = second at withBoth ⊢
  obtain ⟨target, grown⟩ := second
  simp only at withBoth ⊢
  have sameNodes : grown.nodes = appendNew (appendNew graph.nodes call.caller) call.callee := by
    rw [withBoth.nodes, withCaller.nodes]
  have sameCalls : grown.calls = graph.calls := withBoth.calls.trans withCaller.calls
  -- Adding the callee leaves the caller where it was.
  have atSource : grown.nodes[source]? = some call.caller := by
    have longer : middle.nodes <+: grown.nodes := withBoth.nodes ▸ prefix_appendNew ..
    obtain ⟨inside, same⟩ := List.getElem?_eq_some_iff.mp withCaller.listed
    rw [List.prefix_iff_getElem?.mp longer source inside, same]
  have hasEdge : store.hasEdge grown.graph source target = true ↔ call ∈ graph.calls := by
    rw [withBoth.consistent.hasEdge_iff lawful, ← sameCalls]
    exact (withBoth.consistent.mem_calls_iff atSource withBoth.listed).symm
  split
  · rename_i present
    have old := hasEdge.mp present
    exact ⟨withBoth.consistent, sameNodes, sameCalls.trans (if_pos old).symm, by simp [old]⟩
  · rename_i missing
    have isNew : call ∉ graph.calls := fun old => missing (hasEdge.mpr old)
    obtain ⟨stays, nodes, calls⟩ := withBoth.consistent.addEdge_new lawful atSource withBoth.listed
    refine ⟨stays, nodes.trans sameNodes, ?_, by simp [isNew]⟩
    rw [calls, sameCalls, appendNew, if_neg isNew]

end Consistent

end IndexedGraph

/-! ### All additions -/

/-- One addition to a call graph or a program. -/
inductive Addition where
  | method (added : Signature)
  | call (added : Call)

namespace Addition

/-- The methods that an addition mentions, a caller before its callee. -/
def methods : Addition → List Signature
  | method added => [added]
  | call added => [added.caller, added.callee]

def call? : Addition → Option Call
  | method _ => none
  | call added => some added

/-- Methods and then calls, as a report lists them. -/
def report (methods : List Signature) (calls : List Call) : List Addition :=
  methods.map method ++ calls.map call

variable {methods : List Signature} {calls : List Call}

theorem filterMap_report : (report methods calls).filterMap call? = calls := by
  simp [report, List.filterMap_map, Function.comp_def, call?]

/-- A report of distinct methods and of calls between them mentions no others. -/
theorem foldl_appendNew_report (nodup : methods.Nodup)
    (caller : ∀ call ∈ calls, call.caller ∈ methods)
    (callee : ∀ call ∈ calls, call.callee ∈ methods) :
    ((report methods calls).flatMap Addition.methods).foldl appendNew [] = methods := by
  have first : (methods.map method).flatMap Addition.methods = methods := by
    simp [List.flatMap_map, Addition.methods]
  have ends : ∀ mentioned ∈ (calls.map call).flatMap Addition.methods, mentioned ∈ methods := by
    intro mentioned member
    obtain ⟨call, inCalls, isEnd⟩ : ∃ call ∈ calls, mentioned ∈ [call.caller, call.callee] := by
      simpa [List.flatMap_map, Addition.methods] using member
    rcases List.mem_pair.mp isEnd with rfl | rfl
    · exact caller call inCalls
    · exact callee call inCalls
  have listed : methods.foldl appendNew [] = methods := foldl_appendNew_of_nodup nodup
  rw [report, List.flatMap_append, List.foldl_append, first, listed]
  exact foldl_appendNew_of_subset ends

end Addition

namespace CallGraph

def add (graph : CallGraph) : Addition → CallGraph
  | .method added => graph.addNode added
  | .call added => graph.addCall added

/-- The graph that additions lead to. -/
def ofAdditions (additions : List Addition) : CallGraph :=
  additions.foldl add ∅

theorem nodes_foldl_add (additions : List Addition) (graph : CallGraph) :
    (additions.foldl add graph).nodes =
      (additions.flatMap Addition.methods).foldl appendNew graph.nodes := by
  induction additions generalizing graph with
  | nil => rfl
  | cons addition additions ih =>
    rw [List.foldl_cons, ih, List.flatMap_cons, List.foldl_append]
    cases addition <;> rfl

theorem calls_foldl_add (additions : List Addition) (graph : CallGraph) :
    (additions.foldl add graph).calls =
      (additions.filterMap Addition.call?).foldl appendNew graph.calls := by
  induction additions generalizing graph with
  | nil => rfl
  | cons addition additions ih =>
    rw [List.foldl_cons, ih]
    cases addition <;> rfl

/-- Adding the nodes and then the calls of a graph leads to it again. -/
theorem addCalls_self (graph : CallGraph) :
    (graph.nodes.foldl addNode ∅).addCalls graph.calls = graph := by
  have same : (graph.nodes.foldl addNode ∅).addCalls graph.calls =
      ofAdditions (Addition.report graph.nodes graph.calls) := by
    rw [ofAdditions, Addition.report, List.foldl_append, List.foldl_map, List.foldl_map]
    rfl
  rw [same, ofAdditions]
  apply CallGraph.ext
  · rw [nodes_foldl_add]
    exact Addition.foldl_appendNew_report graph.nodes_nodup graph.caller_mem graph.callee_mem
  · rw [calls_foldl_add, Addition.filterMap_report]
    exact foldl_appendNew_of_nodup graph.calls_nodup

end CallGraph

namespace IndexedGraph
variable {store : GraphStore Signature} {graph : IndexedGraph store}

def add (graph : IndexedGraph store) : Addition → IndexedGraph store
  | .method added => (graph.addNode added).2
  | .call added => (graph.addCall added).2

/-- The graph that additions lead to, in a store. -/
def ofAdditions (store : GraphStore Signature) (additions : List Addition) : IndexedGraph store :=
  additions.foldl add {}

/-- What a graph answers after some additions: methods and calls are listed in the order of their
first mention, and everything else follows from these two lists. -/
structure Reflects (graph : IndexedGraph store) (additions : List Addition) : Prop where
  nodes : graph.nodes = (additions.flatMap Addition.methods).eraseDups
  calls : graph.calls = (additions.filterMap Addition.call?).eraseDups
  /-- Adding a method returns its position. -/
  number : ∀ method, method ∈ (graph.addNode method).2.nodes ∧
    (graph.addNode method).1 = (graph.addNode method).2.nodes.idxOf method
  /-- No addition moves a method that is there. -/
  position : ∀ addition, ∀ method ∈ graph.nodes,
    (graph.add addition).nodes.idxOf method = graph.nodes.idxOf method
  /-- Adding a call tells whether it was not there. -/
  isNew : ∀ call, (graph.addCall call).1 = true ↔ call ∉ graph.calls
  contains : ∀ method, graph.contains method = true ↔ method ∈ graph.nodes
  callees : ∀ method, graph.callees method =
    (graph.calls.filter (·.caller = method)).map Call.callee
  callers : ∀ method, graph.callers method =
    (graph.calls.filter (·.callee = method)).map Call.caller
  /-- The call graph of the same additions has the same lists. -/
  listed : graph.listed = CallGraph.ofAdditions additions ∧ graph.listed.nodes = graph.nodes ∧
    graph.listed.calls = graph.calls

theorem Consistent.add (consistent : graph.Consistent) (lawful : store.Lawful)
    (addition : Addition) :
    (graph.add addition).Consistent ∧
    (graph.add addition).nodes = addition.methods.foldl appendNew graph.nodes ∧
    (graph.add addition).calls = addition.call?.toList.foldl appendNew graph.calls := by
  cases addition with
  | method added =>
    have grown := consistent.addNode lawful added
    exact ⟨grown.consistent, grown.nodes, grown.calls⟩
  | call added =>
    have grown := consistent.addCall lawful added
    exact ⟨grown.consistent, grown.nodes, grown.calls⟩

theorem Consistent.foldl_add (consistent : graph.Consistent) (lawful : store.Lawful)
    (additions : List Addition) :
    (additions.foldl IndexedGraph.add graph).Consistent ∧
    (additions.foldl IndexedGraph.add graph).nodes =
      (additions.flatMap Addition.methods).foldl appendNew graph.nodes ∧
    (additions.foldl IndexedGraph.add graph).calls =
      (additions.filterMap Addition.call?).foldl appendNew graph.calls := by
  induction additions generalizing graph with
  | nil => exact ⟨consistent, rfl, rfl⟩
  | cons addition additions ih =>
    obtain ⟨stays, nodes, calls⟩ := consistent.add lawful addition
    obtain ⟨all, allNodes, allCalls⟩ := ih stays
    refine ⟨all, ?_, ?_⟩
    · rw [List.foldl_cons, allNodes, nodes, List.flatMap_cons, List.foldl_append]
    · rw [List.foldl_cons, allCalls, calls]
      cases addition <;> rfl

theorem listed_eq {plain : CallGraph} (nodes : graph.nodes = plain.nodes)
    (calls : graph.calls = plain.calls) : graph.listed = plain := by
  rw [listed, nodes, calls, plain.addCalls_self]

/-- The same additions lead to the same lists in a store and without one. -/
theorem lists_ofAdditions (lawful : store.Lawful) (additions : List Addition) :
    (ofAdditions store additions).Consistent ∧
    (ofAdditions store additions).nodes = (CallGraph.ofAdditions additions).nodes ∧
    (ofAdditions store additions).calls = (CallGraph.ofAdditions additions).calls := by
  obtain ⟨consistent, nodes, calls⟩ := (Consistent.empty lawful).foldl_add lawful additions
  have noNodes : ({} : IndexedGraph store).nodes = [] := lawful.nodes_empty
  have noCalls : ({} : IndexedGraph store).calls = [] := by
    rw [IndexedGraph.calls, lawful.edges_empty]
    rfl
  rw [noNodes] at nodes
  rw [noCalls] at calls
  exact ⟨consistent, nodes.trans (CallGraph.nodes_foldl_add additions ∅).symm,
    calls.trans (CallGraph.calls_foldl_add additions ∅).symm⟩

/-- Whatever is added to an empty graph, in whatever order, it answers as the lists of first
mentions tell. -/
theorem reflects_ofAdditions (lawful : store.Lawful) (additions : List Addition) :
    (ofAdditions store additions).Reflects additions := by
  obtain ⟨consistent, sameNodes, sameCalls⟩ := lists_ofAdditions lawful additions
  have nodes := sameNodes.trans (CallGraph.nodes_foldl_add additions ∅)
  have calls := sameCalls.trans (CallGraph.calls_foldl_add additions ∅)
  have listed := listed_eq sameNodes sameCalls
  generalize ofAdditions store additions = graph at *
  constructor
  case nodes => exact nodes.trans (foldl_appendNew [] _)
  case calls => exact calls.trans (foldl_appendNew [] _)
  case number =>
    intro method
    have added := consistent.addNode lawful method
    exact ⟨List.mem_of_getElem? added.listed, (added.consistent.idxOf_eq added.listed).symm⟩
  case position =>
    intro addition method member
    obtain ⟨_, grown, _⟩ := consistent.add lawful addition
    obtain ⟨rest, longer⟩ := prefix_foldl_appendNew graph.nodes addition.methods
    rw [grown, ← longer, List.idxOf_append_of_mem member]
  case isNew => exact fun call => (consistent.addCall lawful call).isNew
  case contains => exact fun method => consistent.contains_iff
  case callees => exact consistent.neighbours_eq .outgoing
  case callers => exact consistent.neighbours_eq .incoming
  case listed => exact ⟨listed, by rw [listed, sameNodes], by rw [listed, sameCalls]⟩

/-- A method of the class `Loom` without parameters. -/
def loomMethod (name : String) (identifier : Signature.isIdentifier name = true) : Signature :=
  ⟨"Loom", name, [], by decide, identifier, rfl⟩

def weave : Signature := loomMethod "weave" (by decide)

def spin : Signature := loomMethod "spin" (by decide)

def rest : Signature := loomMethod "rest" (by decide)

/-- A call of a method by itself, a cycle, a repeated call and a repeated method. -/
def loomAdditions : List Addition :=
  [.call ⟨weave, weave⟩, .call ⟨weave, spin⟩, .method rest, .call ⟨spin, weave⟩,
    .call ⟨weave, spin⟩, .method weave]

theorem reflects_ofAdditions_loom :
    let graph := ofAdditions (LinkedGraph.store Signature) loomAdditions
    (LinkedGraph.store Signature).Lawful ∧ graph.Reflects loomAdditions ∧
    graph.nodes = [weave, spin, rest] ∧ graph.callees weave = [weave, spin] ∧
    graph.callers weave = [weave, spin] := by
  intro graph
  have lawful := LinkedGraph.store_lawful Signature
  have reflects : graph.Reflects loomAdditions := reflects_ofAdditions lawful loomAdditions
  have calls : graph.calls = [⟨weave, weave⟩, ⟨weave, spin⟩, ⟨spin, weave⟩] :=
    reflects.calls.trans (by decide)
  refine ⟨lawful, reflects, reflects.nodes.trans (by decide), ?_, ?_⟩
  · rw [reflects.callees, calls]
    decide
  · rw [reflects.callers, calls]
    decide

end IndexedGraph

end MergeRisk
