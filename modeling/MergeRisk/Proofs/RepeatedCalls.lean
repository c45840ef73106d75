import Mathlib.Data.List.Induction
import MergeRisk.Proofs.Ordered
import MergeRisk.Proofs.Visit

/-! Calls that are reported more than once change nothing in a call graph: what is visited a second
time adds nothing and moves nothing. -/

namespace MergeRisk

universe u v

/-! ### First occurrences -/

section
variable {α : Type u}

theorem eraseDups_filter [DecidableEq α] (keep : α → Bool) (elements : List α) :
    (elements.filter keep).eraseDups = elements.eraseDups.filter keep := by
  induction elements using List.reverseRecOn with
  | nil => rfl
  | append_singleton elements last ih =>
    rw [List.filter_append, eraseDups_concat]
    by_cases kept : keep last = true
    · have single : [last].filter keep = [last] := by simp [kept]
      rw [single, eraseDups_concat, ih, appendNew, appendNew]
      by_cases member : last ∈ elements.eraseDups
      · simp [member, kept]
      · simp [member, kept]
    · have dropped : [last].filter keep = [] := by simp [kept]
      rw [dropped, List.append_nil, ih, appendNew]
      by_cases member : last ∈ elements.eraseDups
      · simp [member]
      · simp [member, kept]

/-- A step takes an element in for good, so that taking it in again changes nothing. -/
structure Absorbs {σ : Type v} (step : σ → α → σ) (Has : σ → α → Prop) : Prop where
  taken : ∀ state element, Has (step state element) element
  kept : ∀ {state element}, Has state element → ∀ other, Has (step state other) element
  settled : ∀ {state element}, Has state element → step state element = state

namespace Absorbs
variable {σ : Type v} {step : σ → α → σ} {Has : σ → α → Prop} (absorbs : Absorbs step Has)
include absorbs

theorem has_foldl (state : σ) {elements : List α} {element : α} (member : element ∈ elements) :
    Has (elements.foldl step state) element := by
  induction elements using List.reverseRecOn with
  | nil => cases member
  | append_singleton elements last ih =>
    rw [List.foldl_append]
    rcases List.mem_append.mp member with earlier | single
    · exact absorbs.kept (ih earlier) last
    · rw [List.mem_singleton.mp single]
      exact absorbs.taken _ last

/-- The first occurrences in a list lead where the whole list leads. -/
theorem foldl_eraseDups [DecidableEq α] (state : σ) (elements : List α) :
    elements.eraseDups.foldl step state = elements.foldl step state := by
  induction elements using List.reverseRecOn with
  | nil => rfl
  | append_singleton elements last ih =>
    rw [eraseDups_concat, List.foldl_append, List.foldl_cons, List.foldl_nil]
    by_cases member : last ∈ elements
    · rw [appendNew_of_mem (List.mem_eraseDups.mpr member), ih,
        absorbs.settled (absorbs.has_foldl state member)]
    · have absent : last ∉ elements.eraseDups := fun listed => member (List.mem_eraseDups.mp listed)
      rw [appendNew, if_neg absent, List.foldl_append, ih, List.foldl_cons, List.foldl_nil]

end Absorbs

end

/-! ### Adding and visiting again -/

namespace CallGraph

/-- Adding a call that is there changes nothing. -/
theorem addCall_of_mem {graph : CallGraph} {call : Call} (member : call ∈ graph.calls) :
    graph.addCall call = graph := by
  have caller := graph.caller_mem call member
  have callee := graph.callee_mem call member
  apply CallGraph.ext
  · change appendNew (appendNew graph.nodes call.caller) call.callee = graph.nodes
    rw [appendNew_of_mem caller, appendNew_of_mem callee]
  · exact appendNew_of_mem member

theorem absorbs_addCall : Absorbs addCall fun graph call => call ∈ graph.calls where
  taken _ _ := mem_calls_addCall.mpr (.inr rfl)
  kept member _ := mem_calls_addCall.mpr (.inl member)
  settled := addCall_of_mem

theorem addCalls_eraseDups (graph : CallGraph) (calls : List Call) :
    graph.addCalls calls.eraseDups = graph.addCalls calls :=
  absorbs_addCall.foldl_eraseDups graph calls

theorem addCalls_of_subset {graph : CallGraph} {calls : List Call}
    (listed : ∀ call ∈ calls, call ∈ graph.calls) : graph.addCalls calls = graph :=
  foldl_of_fixed fun call member => addCall_of_mem (listed call member)

end CallGraph

namespace Program
variable {program : Program} {graph : CallGraph} {method : Signature} {depth : Nat}

theorem mem_calls_visit {call : Call} :
    call ∈ (program.visit method depth graph).calls ↔
      call ∈ graph.calls ∨ program.CallWithin method depth call := by
  rw [← expand_single, mem_calls_expand]
  simp

/-- A visit adds nothing and moves nothing where all it would add is there. -/
theorem visit_of_mem (present : ∀ call, program.CallWithin method depth call → call ∈ graph.calls) :
    program.visit method depth graph = graph := by
  induction depth generalizing method with
  | zero => rfl
  | succ depth ih =>
    have own : ∀ call ∈ program.callsFrom method, call ∈ graph.calls := by
      intro call made
      exact present call (callWithin_succ.mpr (.inl made))
    have later : ∀ call ∈ program.callsFrom method,
        program.visit call.callee depth graph = graph := by
      intro call made
      apply ih
      intro deeper within
      exact present deeper (callWithin_succ.mpr (.inr ⟨call, made, within⟩))
    rw [visit_succ, CallGraph.addCalls_of_subset own]
    exact foldl_of_fixed later

/-- Visiting the callee of a call takes in all that lies within the depth of it. -/
theorem absorbs_visit (program : Program) (depth : Nat) :
    Absorbs (fun graph (call : Call) => program.visit call.callee depth graph) fun graph call =>
      ∀ found, program.CallWithin call.callee depth found → found ∈ graph.calls where
  taken _ _ _ within := mem_calls_visit.mpr (.inr within)
  kept has _ found within := mem_calls_visit.mpr (.inl (has found within))
  settled := visit_of_mem

/-! ### Without the repeats -/

/-- The program in which only the first report of each call is kept. -/
def withoutRepeats (program : Program) : Program where
  methods := program.methods
  calls := program.calls.eraseDups
  methods_nodup := program.methods_nodup
  caller_mem call member := program.caller_mem call (List.mem_eraseDups.mp member)
  callee_mem call member := program.callee_mem call (List.mem_eraseDups.mp member)

theorem callsFrom_withoutRepeats (program : Program) (method : Signature) :
    program.withoutRepeats.callsFrom method = (program.callsFrom method).eraseDups :=
  (eraseDups_filter _ program.calls).symm

theorem visit_withoutRepeats (program : Program) (method : Signature) (depth : Nat)
    (graph : CallGraph) :
    program.withoutRepeats.visit method depth graph = program.visit method depth graph := by
  induction depth generalizing method graph with
  | zero => rfl
  | succ depth ih =>
    simp only [visit_succ, callsFrom_withoutRepeats, ih]
    -- Repeats are left out twice: among the calls that are added and among those that are followed.
    rw [CallGraph.addCalls_eraseDups, (program.absorbs_visit depth).foldl_eraseDups]

/-- Repeated reports change nothing: the call graph has the same nodes and calls in the same order,
and so the same lowest common ancestors. -/
theorem callGraph_withoutRepeats (program : Program) (entry : Signature) (depth : Nat) :
    program.withoutRepeats.callGraph entry depth = program.callGraph entry depth ∧
    ∀ first second,
      (program.withoutRepeats.callGraph entry depth).lowestCommonAncestor first second =
        (program.callGraph entry depth).lowestCommonAncestor first second := by
  have same : program.withoutRepeats.callGraph entry depth = program.callGraph entry depth := by
    rw [callGraph, expand_single, visit_withoutRepeats, ← expand_single, callGraph]
  refine ⟨same, ?_⟩
  intro first second
  rw [same]

end Program

end MergeRisk
