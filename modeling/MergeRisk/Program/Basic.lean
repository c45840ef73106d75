import MergeRisk.CallGraph.Basic

/-! Program models: the methods and calls that an analyzer reported. Methods are listed in the
order of their first mention; calls are kept as reported, repeats included. -/

namespace MergeRisk

@[ext] structure Program where
  methods : List Signature
  calls : List Call
  methods_nodup : methods.Nodup
  caller_mem : ∀ call ∈ calls, call.caller ∈ methods
  callee_mem : ∀ call ∈ calls, call.callee ∈ methods

namespace Program

instance : DecidableEq Program := fun first second =>
  decidable_of_iff (first.methods = second.methods ∧ first.calls = second.calls)
    Program.ext_iff.symm

/-- The program that reports the calls of a graph. -/
def ofGraph (graph : CallGraph) : Program :=
  ⟨graph.nodes, graph.calls, graph.nodes_nodup, graph.caller_mem, graph.callee_mem⟩

instance : EmptyCollection Program := ⟨ofGraph ∅⟩

instance : Inhabited Program := ⟨∅⟩

def addMethod (program : Program) (method : Signature) : Program where
  methods := appendNew program.methods method
  calls := program.calls
  methods_nodup := nodup_appendNew program.methods_nodup method
  caller_mem call member := mem_appendNew.mpr (.inl (program.caller_mem call member))
  callee_mem call member := mem_appendNew.mpr (.inl (program.callee_mem call member))

theorem mem_addMethod {program : Program} {method found : Signature} :
    found ∈ (program.addMethod method).methods ↔ found ∈ program.methods ∨ found = method :=
  mem_appendNew

/-- Report a call; its caller and then its callee are mentioned by it. -/
def addCall (program : Program) (call : Call) : Program :=
  let grown := (program.addMethod call.caller).addMethod call.callee
  { grown with
    calls := grown.calls ++ [call]
    caller_mem := by
      intro added member
      rcases List.mem_append.mp member with old | single
      · exact grown.caller_mem added old
      · rw [List.mem_singleton.mp single]
        exact mem_addMethod.mpr (.inl (mem_addMethod.mpr (.inr rfl)))
    callee_mem := by
      intro added member
      rcases List.mem_append.mp member with old | single
      · exact grown.callee_mem added old
      · rw [List.mem_singleton.mp single]
        exact mem_addMethod.mpr (.inr rfl) }

/-- The program with the listed methods and the reported calls. -/
def ofReport (methods : List Signature) (calls : List Call) : Program :=
  calls.foldl addCall (methods.foldl addMethod ∅)

def methodsOf (program : Program) (owner : String) : List Signature :=
  program.methods.filter (·.owner == owner)

/-- The reported calls of a method, in their order. -/
def callsFrom (program : Program) (method : Signature) : List Call :=
  program.calls.filter (·.caller == method)

/-- The entry point of a class: its first method with the wanted name, else its first `main`. -/
def entryPoint (program : Program) (owner method : String) : Except Failure Signature :=
  let methods := program.methodsOf owner
  match methods.find? (·.name == method) with
  | some entry => .ok entry
  | none =>
    match methods.find? (·.name == "main") with
    | some entry => .ok entry
    | none => .error (.entryPointNotFound owner method)

end Program

end MergeRisk
