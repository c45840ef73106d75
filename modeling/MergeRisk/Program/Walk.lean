import MergeRisk.Program.Basic

/-! The call graph within a depth of an entry point, grown by walking the reported calls. -/

namespace MergeRisk.Program

/-- Methods still to expand, each with the depth left to it; the first is expanded next. -/
abbrev Agenda := List (Signature × Nat)

/-- An upper bound on the steps that an agenda causes in a program with `calls` calls. -/
def Agenda.weight (calls : Nat) : Agenda → Nat
  | [] => 0
  | entry :: agenda => Nat.pow (calls + 1) entry.2 + Agenda.weight calls agenda

theorem Agenda.weight_cons (calls : Nat) (entry : Signature × Nat) (agenda : Agenda) :
    Agenda.weight calls (entry :: agenda) = Nat.pow (calls + 1) entry.2 + agenda.weight calls :=
  rfl

theorem Agenda.weight_append (calls : Nat) (first second : Agenda) :
    Agenda.weight calls (first ++ second) = first.weight calls + second.weight calls := by
  induction first with
  | nil => simp [Agenda.weight]
  | cons entry first ih =>
    rw [List.cons_append, Agenda.weight_cons, Agenda.weight_cons, ih, Nat.add_assoc]

theorem Agenda.weight_callees (calls depth : Nat) (reported : List Call) :
    Agenda.weight calls (reported.map fun call => (call.callee, depth)) =
      reported.length * Nat.pow (calls + 1) depth := by
  induction reported with
  | nil => simp [Agenda.weight]
  | cons call rest ih =>
    simp only [List.map_cons, Agenda.weight_cons, ih, List.length_cons]
    rw [Nat.add_mul, Nat.one_mul, Nat.add_comm]

theorem callsFrom_length_le (program : Program) (method : Signature) :
    (program.callsFrom method).length ≤ program.calls.length :=
  List.length_filter_le ..

/-- A method without depth left weighs something. -/
theorem weight_dropped_lt (program : Program) (method : Signature) (agenda : Agenda) :
    agenda.weight program.calls.length <
      Agenda.weight program.calls.length ((method, 0) :: agenda) := by
  simp [Agenda.weight_cons]

/-- The callees of a method weigh less than the method. -/
theorem weight_expanded_lt (program : Program) (method : Signature) (depth : Nat)
    (agenda : Agenda) :
    Agenda.weight program.calls.length
        ((program.callsFrom method).map (fun call => (call.callee, depth)) ++ agenda) <
      Agenda.weight program.calls.length ((method, depth + 1) :: agenda) := by
  rw [Agenda.weight_append, Agenda.weight_callees, Agenda.weight_cons]
  have bounded : (program.callsFrom method).length ≤ program.calls.length :=
    program.callsFrom_length_le method
  have positive : 0 < Nat.pow (program.calls.length + 1) depth := Nat.pow_pos (by omega)
  have smaller := Nat.mul_le_mul_right (Nat.pow (program.calls.length + 1) depth) bounded
  have grown : Nat.pow (program.calls.length + 1) (depth + 1) =
      Nat.pow (program.calls.length + 1) depth * (program.calls.length + 1) := rfl
  rw [grown, Nat.mul_succ, Nat.mul_comm _ program.calls.length]
  omega

/-- Expand the agenda: a method with depth left contributes its calls, and its callees take its
place with one less depth. -/
def expand (program : Program) : Agenda → CallGraph → CallGraph
  | [], graph => graph
  | (_, 0) :: agenda, graph => expand program agenda graph
  | (method, depth + 1) :: agenda, graph =>
    let calls := program.callsFrom method
    expand program (calls.map (fun call => (call.callee, depth)) ++ agenda) (graph.addCalls calls)
termination_by agenda => agenda.weight program.calls.length
decreasing_by
  · exact program.weight_dropped_lt _ agenda
  · exact program.weight_expanded_lt method depth agenda

/-- The call graph within `depth` calls of an entry point. -/
def callGraph (program : Program) (entry : Signature) (depth : Nat) : CallGraph :=
  program.expand [(entry, depth)] ∅

end MergeRisk.Program
