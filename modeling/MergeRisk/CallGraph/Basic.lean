import MergeRisk.Change

/-! Call graphs. Nodes and calls are listed in the order in which they were first added; adding
one again changes nothing. -/

namespace MergeRisk

/-- One method calls another. -/
structure Call where
  caller : Signature
  callee : Signature
deriving DecidableEq, Repr

/-- Methods and the calls between them, each listed once. -/
@[ext] structure CallGraph where
  nodes : List Signature
  calls : List Call
  nodes_nodup : nodes.Nodup
  calls_nodup : calls.Nodup
  caller_mem : ∀ call ∈ calls, call.caller ∈ nodes
  callee_mem : ∀ call ∈ calls, call.callee ∈ nodes
deriving DecidableEq

namespace CallGraph

instance : EmptyCollection CallGraph :=
  ⟨⟨[], [], .nil, .nil, by simp, by simp⟩⟩

instance : Inhabited CallGraph := ⟨∅⟩

def addNode (graph : CallGraph) (method : Signature) : CallGraph where
  nodes := appendNew graph.nodes method
  calls := graph.calls
  nodes_nodup := nodup_appendNew graph.nodes_nodup method
  calls_nodup := graph.calls_nodup
  caller_mem call member := mem_appendNew.mpr (.inl (graph.caller_mem call member))
  callee_mem call member := mem_appendNew.mpr (.inl (graph.callee_mem call member))

theorem mem_addNode {graph : CallGraph} {method found : Signature} :
    found ∈ (graph.addNode method).nodes ↔ found ∈ graph.nodes ∨ found = method :=
  mem_appendNew

/-- Add a call, with its caller and then its callee as nodes. -/
def addCall (graph : CallGraph) (call : Call) : CallGraph :=
  let grown := (graph.addNode call.caller).addNode call.callee
  { grown with
    calls := appendNew grown.calls call
    calls_nodup := nodup_appendNew grown.calls_nodup call
    caller_mem := by
      intro added member
      rcases mem_appendNew.mp member with old | rfl
      · exact grown.caller_mem added old
      · exact mem_addNode.mpr (.inl (mem_addNode.mpr (.inr rfl)))
    callee_mem := by
      intro added member
      rcases mem_appendNew.mp member with old | rfl
      · exact grown.callee_mem added old
      · exact mem_addNode.mpr (.inr rfl) }

def addCalls (graph : CallGraph) (calls : List Call) : CallGraph :=
  calls.foldl addCall graph

/-- The position of a node. -/
def position (graph : CallGraph) (method : Signature) : Nat :=
  graph.nodes.idxOf method

def contains (graph : CallGraph) (method : Signature) : Bool :=
  graph.nodes.contains method

/-- The methods that a method calls, in the order in which the calls were added. -/
def callees (graph : CallGraph) (method : Signature) : List Signature :=
  (graph.calls.filter (·.caller == method)).map (·.callee)

/-- The methods that call a method, in the order in which the calls were added. -/
def callers (graph : CallGraph) (method : Signature) : List Signature :=
  (graph.calls.filter (·.callee == method)).map (·.caller)

end CallGraph

end MergeRisk
