import MergeRisk.Proofs.Walk

/-! The walk over the reported calls as a loop with a stack and as a recursive visit: the loop ends,
and the graph it leaves is the one that the visit grows, nodes and calls in the same order. -/

namespace MergeRisk.Program

/-! ### The recursive visit -/

/-- Visit a method: with depth left, add all of its calls, then visit each callee in turn with one
less depth. -/
def visit (program : Program) : Signature → Nat → CallGraph → CallGraph
  | _, 0, graph => graph
  | method, depth + 1, graph =>
    let calls := program.callsFrom method
    calls.foldl (fun graph call => program.visit call.callee depth graph) (graph.addCalls calls)

variable (program : Program)

theorem visit_zero (method : Signature) (graph : CallGraph) :
    program.visit method 0 graph = graph :=
  rfl

theorem visit_succ (method : Signature) (depth : Nat) (graph : CallGraph) :
    program.visit method (depth + 1) graph =
      (program.callsFrom method).foldl (fun graph call => program.visit call.callee depth graph)
        (graph.addCalls (program.callsFrom method)) :=
  rfl

/-- Expanding an agenda is visiting its entries one after another. -/
theorem expand_eq_visits (agenda : Agenda) (graph : CallGraph) :
    program.expand agenda graph =
      agenda.foldl (fun graph entry => program.visit entry.1 entry.2 graph) graph := by
  fun_induction expand program agenda graph with
  | case1 graph => rfl
  | case2 method agenda graph ih => rw [ih, List.foldl_cons, visit_zero]
  | case3 method depth agenda graph calls ih =>
    -- The callees that were put on the agenda are those that the visit goes on to.
    rw [ih, List.foldl_append, List.foldl_map, List.foldl_cons, visit_succ]

theorem expand_single (method : Signature) (depth : Nat) (graph : CallGraph) :
    program.expand [(method, depth)] graph = program.visit method depth graph :=
  program.expand_eq_visits [(method, depth)] graph

/-! ### The loop -/

/-- Where the loop stands: the stack of methods still to expand, its top at the end, and the graph
grown so far. -/
structure Loop where
  stack : List (Signature × Nat)
  graph : CallGraph

namespace Loop

/-- One round: the top is taken off the stack. With depth left, its calls are added to the graph and
its callees are pushed, the last one first. -/
def next? (loop : Loop) : Option Loop :=
  match loop.stack.getLast? with
  | none => none
  | some (_, 0) => some { loop with stack := loop.stack.dropLast }
  | some (method, depth + 1) =>
    let calls := program.callsFrom method
    some {
      stack := loop.stack.dropLast ++ calls.reverse.map fun call => (call.callee, depth)
      graph := loop.graph.addCalls calls }

/-- The loop at its start. -/
def start (entry : Signature) (depth : Nat) : Loop := ⟨[(entry, depth)], ∅⟩

/-- One round of the loop leads from one state to the next. -/
def Round (loop next : Loop) : Prop :=
  loop.next? program = some next

/-- An agenda, its first entry on top of the stack. -/
def ofAgenda (agenda : Agenda) (graph : CallGraph) : Loop := ⟨agenda.reverse, graph⟩

theorem next?_nil (graph : CallGraph) : (ofAgenda [] graph).next? program = none :=
  rfl

theorem next?_zero (method : Signature) (agenda : Agenda) (graph : CallGraph) :
    (ofAgenda ((method, 0) :: agenda) graph).next? program = some (ofAgenda agenda graph) := by
  simp [ofAgenda, next?]

theorem next?_succ (method : Signature) (depth : Nat) (agenda : Agenda) (graph : CallGraph) :
    (ofAgenda ((method, depth + 1) :: agenda) graph).next? program =
      some (ofAgenda ((program.callsFrom method).map (fun call => (call.callee, depth)) ++ agenda)
        (graph.addCalls (program.callsFrom method))) := by
  simp [ofAgenda, next?]

/-- From any stack the loop empties it, in no more rounds than the weight of the stack, and leaves
the graph that expanding the agenda gives. -/
theorem steps_expand (agenda : Agenda) (graph : CallGraph) :
    ∃ rounds ≤ agenda.weight program.calls.length,
      Steps (Round program) (ofAgenda agenda graph) (ofAgenda [] (program.expand agenda graph))
        rounds := by
  fun_induction expand program agenda graph with
  | case1 graph => exact ⟨0, Nat.le_refl _, .here⟩
  | case2 method agenda graph ih =>
    obtain ⟨rounds, bound, walk⟩ := ih
    refine ⟨rounds + 1, ?_, .step (next?_zero program method agenda graph) walk⟩
    exact Nat.lt_of_le_of_lt bound (program.weight_dropped_lt method agenda)
  | case3 method depth agenda graph calls ih =>
    obtain ⟨rounds, bound, walk⟩ := ih
    refine ⟨rounds + 1, ?_, .step (next?_succ program method depth agenda graph) walk⟩
    exact Nat.lt_of_le_of_lt bound (program.weight_expanded_lt method depth agenda)

end Loop

/-- The loop started at an entry point ends, after at most `(calls + 1) ^ depth` rounds, and leaves
the graph of the recursive visit; so does the walk along the agenda. -/
theorem callGraph_eq_visit (entry : Signature) (depth : Nat) :
    (∃ rounds ≤ Nat.pow (program.calls.length + 1) depth, ∃ last,
      Steps (Loop.Round program) (.start entry depth) last rounds ∧
      last.next? program = none ∧
      last.graph = program.visit entry depth ∅) ∧
    program.callGraph entry depth = program.visit entry depth ∅ := by
  have same : program.callGraph entry depth = program.visit entry depth ∅ :=
    program.expand_single entry depth ∅
  obtain ⟨rounds, bound, walk⟩ := Loop.steps_expand program [(entry, depth)] ∅
  exact ⟨⟨rounds, bound, _, walk, Loop.next?_nil program _, same⟩, same⟩

end MergeRisk.Program
