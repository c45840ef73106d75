import MergeRisk.CallGraph.Ancestor
import MergeRisk.Proofs.Search

/-! What call graphs hold after calls were added, and the paths along their calls. -/

namespace MergeRisk

/-- One method calls another, by one of the listed calls. -/
def Calls (calls : List Call) (caller callee : Signature) : Prop :=
  ⟨caller, callee⟩ ∈ calls

/-- A path of so many listed calls from one method to another. -/
abbrev CallPath (calls : List Call) : Signature → Signature → Nat → Prop :=
  Steps (Calls calls)

namespace CallGraph
variable {graph : CallGraph} {method : Signature}

@[simp] theorem calls_empty : (∅ : CallGraph).calls = [] := rfl

@[simp] theorem nodes_empty : (∅ : CallGraph).nodes = [] := rfl

theorem mem_calls_addCall {call added : Call} :
    call ∈ (graph.addCall added).calls ↔ call ∈ graph.calls ∨ call = added :=
  mem_appendNew

theorem mem_calls_addCalls {call : Call} {added : List Call} :
    call ∈ (graph.addCalls added).calls ↔ call ∈ graph.calls ∨ call ∈ added := by
  induction added generalizing graph with
  | nil => simp [addCalls]
  | cons first rest ih =>
    rw [addCalls, List.foldl_cons, ← addCalls, ih, mem_calls_addCall, List.mem_cons, or_assoc]

/-- Every node is the caller or the callee of some call. -/
def Spanned (graph : CallGraph) : Prop :=
  ∀ node ∈ graph.nodes, ∃ call ∈ graph.calls, node = call.caller ∨ node = call.callee

theorem Spanned.empty : Spanned ∅ := by
  intro node member
  simp at member

theorem Spanned.addCall (spanned : graph.Spanned) (added : Call) :
    (graph.addCall added).Spanned := by
  intro node member
  have cases : (node ∈ graph.nodes ∨ node = added.caller) ∨ node = added.callee := by
    simpa [CallGraph.addCall, mem_addNode] using member
  rcases cases with (old | caller) | callee
  · obtain ⟨call, present, endpoint⟩ := spanned node old
    exact ⟨call, mem_calls_addCall.mpr (.inl present), endpoint⟩
  · exact ⟨added, mem_calls_addCall.mpr (.inr rfl), .inl caller⟩
  · exact ⟨added, mem_calls_addCall.mpr (.inr rfl), .inr callee⟩

theorem Spanned.addCalls (spanned : graph.Spanned) (added : List Call) :
    (graph.addCalls added).Spanned := by
  induction added generalizing graph with
  | nil => exact spanned
  | cons first rest ih => exact ih (spanned.addCall first)

/-- In a spanned graph the nodes are exactly the ends of its calls. -/
theorem Spanned.mem_nodes_iff (spanned : graph.Spanned) :
    method ∈ graph.nodes ↔
      ∃ call ∈ graph.calls, method = call.caller ∨ method = call.callee := by
  constructor
  · exact spanned method
  · rintro ⟨call, member, rfl | rfl⟩
    · exact graph.caller_mem call member
    · exact graph.callee_mem call member

theorem mem_callers {caller : Signature} :
    caller ∈ graph.callers method ↔ Calls graph.calls caller method := by
  simp only [callers, Calls, List.mem_map, List.mem_filter, beq_iff_eq]
  constructor
  · rintro ⟨call, ⟨member, rfl⟩, rfl⟩
    exact member
  · intro member
    exact ⟨_, ⟨member, rfl⟩, rfl⟩

theorem mem_callees {callee : Signature} :
    callee ∈ graph.callees method ↔ Calls graph.calls method callee := by
  simp only [callees, Calls, List.mem_map, List.mem_filter, beq_iff_eq]
  constructor
  · rintro ⟨call, ⟨member, rfl⟩, rfl⟩
    exact member
  · intro member
    exact ⟨_, ⟨member, rfl⟩, rfl⟩

theorem contains_iff : graph.contains method = true ↔ method ∈ graph.nodes := by
  simp [contains]

theorem mem_nodes_of_mem_callers {caller : Signature} (member : caller ∈ graph.callers method) :
    caller ∈ graph.nodes ∧ method ∈ graph.nodes := by
  have made : (⟨caller, method⟩ : Call) ∈ graph.calls := mem_callers.mp member
  exact ⟨graph.caller_mem _ made, graph.callee_mem _ made⟩

/-- The ancestors found are those with a call path to the method, at the least distance. -/
theorem find?_ancestry_iff {ancestor : Signature} {distance : Nat} :
    (graph.ancestry method).find? ancestor = some distance ↔
      Nearest (Adjacent graph.callers) method ancestor distance :=
  search_find?_iff (fun _ _ member => (mem_nodes_of_mem_callers member).1) method ancestor distance

/-- Only a method that is called has ancestors. -/
theorem ancestry_eq_nil (uncalled : graph.callers method = []) : graph.ancestry method = [] := by
  apply List.eq_nil_iff_forall_not_mem.mpr
  rintro ⟨ancestor, distance⟩ member
  have nearest := (mem_search_iff (fun _ _ member => (mem_nodes_of_mem_callers member).1)
    method ancestor distance).mp member
  have positive := nearest.positive
  cases nearest.walk with
  | here => omega
  | step made rest => simp [Adjacent, uncalled] at made

/-- A walk from callee to caller is a call path the other way. -/
theorem steps_callers_iff {ancestor : Signature} {count : Nat} :
    Steps (Adjacent graph.callers) method ancestor count ↔
      CallPath graph.calls ancestor method count := by
  constructor
  · intro walk
    exact walk.reverse.imp fun _ _ made => mem_callers.mp made
  · intro path
    exact path.reverse.imp fun _ _ made => mem_callers.mpr made

/-- Whoever has a call path of at least one call to a method is found among its ancestors. -/
theorem find?_ancestry_of_path {ancestor : Signature} {count : Nat} (positive : 0 < count)
    (path : CallPath graph.calls ancestor method count) :
    ∃ distance, (graph.ancestry method).find? ancestor = some distance := by
  obtain ⟨distance, _, nearest⟩ := Nearest.of_steps positive (steps_callers_iff.mpr path)
  exact ⟨distance, find?_ancestry_iff.mpr nearest⟩

end CallGraph

end MergeRisk
