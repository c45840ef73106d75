import MergeRisk.CallGraph.Basic
import Std.Data.HashMap

/-! Call graphs over a store of numbered nodes. The store knows nodes by their numbers only; an
index tells the number of each method. -/

namespace MergeRisk

/-- The side on which the edges of a node are followed. -/
inductive Direction where
  | outgoing
  | incoming
deriving DecidableEq, Repr

/-- A store of directed graphs. Nodes carry values and are numbered from 0; an edge is the numbers
of its source and its target. -/
structure GraphStore (α : Type) where
  Graph : Type
  empty : Graph
  nodes : Graph → List α
  edges : Graph → List (Nat × Nat)
  /-- The grown graph and the number of the new node. -/
  addNode : Graph → α → Graph × Nat
  addEdge : Graph → (source target : Nat) → Graph
  hasEdge : Graph → (source target : Nat) → Bool
  /-- The other ends of the edges of a node; none where there is no such node. -/
  neighbours : Graph → Direction → (node : Nat) → List Nat

/-! ### A store with linked nodes -/

/-- A node with the other ends of its edges on either side, the latest first. -/
structure LinkedNode (α : Type) where
  value : α
  targets : List Nat := []
  sources : List Nat := []
deriving Repr

def LinkedNode.others {α : Type} (node : LinkedNode α) : Direction → List Nat
  | .outgoing => node.targets
  | .incoming => node.sources

structure LinkedGraph (α : Type) where
  nodes : List (LinkedNode α) := []
  edges : List (Nat × Nat) := []
deriving Repr

namespace LinkedGraph
variable {α : Type}

def addNode (graph : LinkedGraph α) (value : α) : LinkedGraph α :=
  { graph with nodes := graph.nodes ++ [{ value }] }

/-- Add an edge and put its ends before the other links of both nodes. -/
def addEdge (graph : LinkedGraph α) (source target : Nat) : LinkedGraph α where
  nodes := (graph.nodes.modify source fun node =>
      { node with targets := target :: node.targets }).modify target fun node =>
    { node with sources := source :: node.sources }
  edges := graph.edges ++ [(source, target)]

def neighbours (graph : LinkedGraph α) (direction : Direction) (node : Nat) : List Nat :=
  (graph.nodes[node]?.map (·.others direction)).getD []

/-- The store of linked graphs. -/
def store (α : Type) : GraphStore α where
  Graph := LinkedGraph α
  empty := {}
  nodes graph := graph.nodes.map (·.value)
  edges graph := graph.edges
  addNode graph value := (graph.addNode value, graph.nodes.length)
  addEdge := addEdge
  hasEdge graph source target := (graph.neighbours .outgoing source).contains target
  neighbours := neighbours

end LinkedGraph

/-! ### The index of methods -/

instance : Hashable Signature :=
  ⟨fun signature => hash (signature.owner, signature.name, signature.params)⟩

/-- A stored graph of methods with the number of each. -/
structure IndexedGraph (store : GraphStore Signature) where
  graph : store.Graph := store.empty
  index : Std.HashMap Signature Nat := ∅

namespace IndexedGraph
variable {store : GraphStore Signature}

/-- Add a method unless it is there already; its number and the grown graph. -/
def addNode (graph : IndexedGraph store) (method : Signature) : Nat × IndexedGraph store :=
  match graph.index[method]? with
  | some number => (number, graph)
  | none =>
    let (grown, number) := store.addNode graph.graph method
    (number, ⟨grown, graph.index.insert method number⟩)

/-- Add a call, with its caller and then its callee as nodes; whether it is a new one. -/
def addCall (graph : IndexedGraph store) (call : Call) : Bool × IndexedGraph store :=
  let (source, withCaller) := graph.addNode call.caller
  let (target, grown) := withCaller.addNode call.callee
  if store.hasEdge grown.graph source target then (false, grown)
  else (true, { grown with graph := store.addEdge grown.graph source target })

def contains (graph : IndexedGraph store) (method : Signature) : Bool :=
  graph.index.contains method

def nodes (graph : IndexedGraph store) : List Signature :=
  store.nodes graph.graph

/-- The call that an edge stands for. -/
def callOf? (graph : IndexedGraph store) (edge : Nat × Nat) : Option Call := do
  return ⟨← graph.nodes[edge.1]?, ← graph.nodes[edge.2]?⟩

def calls (graph : IndexedGraph store) : List Call :=
  (store.edges graph.graph).filterMap graph.callOf?

/-- The methods at the other ends of the edges of a method, the oldest first. -/
def neighbours (graph : IndexedGraph store) (direction : Direction) (method : Signature) :
    List Signature :=
  match graph.index[method]? with
  | none => []
  | some number =>
    ((store.neighbours graph.graph direction number).filterMap (graph.nodes[·]?)).reverse

def callees (graph : IndexedGraph store) (method : Signature) : List Signature :=
  graph.neighbours .outgoing method

def callers (graph : IndexedGraph store) (method : Signature) : List Signature :=
  graph.neighbours .incoming method

/-- The listed nodes and calls as a call graph of their own. -/
def listed (graph : IndexedGraph store) : CallGraph :=
  (graph.nodes.foldl CallGraph.addNode ∅).addCalls graph.calls

end IndexedGraph

end MergeRisk
