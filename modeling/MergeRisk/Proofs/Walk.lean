import MergeRisk.Program.Walk
import MergeRisk.Proofs.CallGraph

/-! The call graph within a depth of an entry point holds exactly the calls whose caller is reached
from the entry by fewer calls than the depth. -/

namespace MergeRisk.Program
variable {program : Program}

theorem mem_callsFrom {method : Signature} {call : Call} :
    call ∈ program.callsFrom method ↔ call ∈ program.calls ∧ call.caller = method := by
  simp [callsFrom]

/-- A reported call whose caller is fewer than `depth` calls away from a method. -/
def CallWithin (program : Program) (method : Signature) (depth : Nat) (call : Call) : Prop :=
  call ∈ program.calls ∧ ∃ steps < depth, CallPath program.calls method call.caller steps

theorem not_callWithin_zero {method : Signature} {call : Call} :
    ¬ program.CallWithin method 0 call := by
  rintro ⟨_, steps, below, _⟩
  omega

/-- What lies within one more call: the method's own calls, and what lies within the rest of its
callees. -/
theorem callWithin_succ {method : Signature} {depth : Nat} {call : Call} :
    program.CallWithin method (depth + 1) call ↔
      call ∈ program.callsFrom method ∨
        ∃ first ∈ program.callsFrom method, program.CallWithin first.callee depth call := by
  constructor
  · rintro ⟨reported, steps, below, path⟩
    generalize target : call.caller = caller at path
    cases path with
    | here => exact .inl (mem_callsFrom.mpr ⟨reported, target⟩)
    | @step _ middle _ count made rest =>
      refine .inr ⟨⟨method, middle⟩, mem_callsFrom.mpr ⟨made, rfl⟩, reported, count, by omega, ?_⟩
      rw [target]
      exact rest
  · rintro (own | ⟨first, own, reported, steps, below, path⟩)
    · obtain ⟨reported, rfl⟩ := mem_callsFrom.mp own
      exact ⟨reported, 0, Nat.succ_pos _, .here⟩
    · obtain ⟨made, rfl⟩ := mem_callsFrom.mp own
      exact ⟨reported, steps + 1, by omega, .step made path⟩

/-- Expanding an agenda adds the calls within the depth of each of its entries, and no others. -/
theorem mem_calls_expand (agenda : Agenda) (graph : CallGraph) (call : Call) :
    call ∈ (program.expand agenda graph).calls ↔
      call ∈ graph.calls ∨ ∃ entry ∈ agenda, program.CallWithin entry.1 entry.2 call := by
  fun_induction expand program agenda graph with
  | case1 graph => simp
  | case2 method agenda graph ih =>
    rw [ih]
    simp [not_callWithin_zero]
  | case3 method depth agenda graph calls ih =>
    -- The callees take the place of their caller on the agenda.
    have replaced : (∃ entry ∈ calls.map (fun call => (call.callee, depth)) ++ agenda,
          program.CallWithin entry.1 entry.2 call) ↔
        (∃ first ∈ calls, program.CallWithin first.callee depth call) ∨
          ∃ entry ∈ agenda, program.CallWithin entry.1 entry.2 call := by
      simp only [List.mem_append, List.mem_map]
      constructor
      · rintro ⟨entry, ⟨first, own, rfl⟩ | later, within⟩
        · exact .inl ⟨first, own, within⟩
        · exact .inr ⟨entry, later, within⟩
      · rintro (⟨first, own, within⟩ | ⟨entry, later, within⟩)
        · exact ⟨_, .inl ⟨first, own, rfl⟩, within⟩
        · exact ⟨entry, .inr later, within⟩
    have expanded : (∃ entry ∈ (method, depth + 1) :: agenda,
          program.CallWithin entry.1 entry.2 call) ↔
        program.CallWithin method (depth + 1) call ∨
          ∃ entry ∈ agenda, program.CallWithin entry.1 entry.2 call := by
      simp only [List.mem_cons, or_and_right, exists_or, exists_eq_left]
    rw [ih, replaced, CallGraph.mem_calls_addCalls, expanded, callWithin_succ]
    simp only [or_assoc, calls]

theorem spanned_expand (agenda : Agenda) {graph : CallGraph} (spanned : graph.Spanned) :
    (program.expand agenda graph).Spanned := by
  fun_induction expand program agenda graph with
  | case1 graph => exact spanned
  | case2 method agenda graph ih => exact ih spanned
  | case3 method depth agenda graph calls ih => exact ih (spanned.addCalls calls)

theorem mem_calls_callGraph {entry : Signature} {depth : Nat} {call : Call} :
    call ∈ (program.callGraph entry depth).calls ↔ program.CallWithin entry depth call := by
  rw [callGraph, mem_calls_expand]
  simp

theorem spanned_callGraph (entry : Signature) (depth : Nat) :
    (program.callGraph entry depth).Spanned :=
  spanned_expand _ .empty

/-- A call graph grown from an entry point holds the reported calls whose caller is at most
`depth - 1` calls away from it, and their ends as nodes; at depth 0 it is empty. -/
theorem callGraph_exact (program : Program) (entry : Signature) (depth : Nat) :
    (∀ caller callee, ⟨caller, callee⟩ ∈ (program.callGraph entry depth).calls ↔
      ⟨caller, callee⟩ ∈ program.calls ∧
        0 < depth ∧ ∃ steps ≤ depth - 1, CallPath program.calls entry caller steps) ∧
    (∀ method, method ∈ (program.callGraph entry depth).nodes ↔
      ∃ call ∈ (program.callGraph entry depth).calls, method = call.caller ∨ method = call.callee) ∧
    program.callGraph entry 0 = ∅ := by
  refine ⟨?_, fun method => (spanned_callGraph entry depth).mem_nodes_iff, ?_⟩
  · intro caller callee
    rw [mem_calls_callGraph]
    constructor
    · rintro ⟨reported, steps, below, path⟩
      exact ⟨reported, by omega, steps, by omega, path⟩
    · rintro ⟨reported, positive, steps, bound, path⟩
      exact ⟨reported, steps, by omega, path⟩
  · simp [callGraph, expand]

end MergeRisk.Program
