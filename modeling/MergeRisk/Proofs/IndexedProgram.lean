import MergeRisk.Program.Indexed
import MergeRisk.Proofs.IndexedGraph

/-! A program with an index stays in step with the program that has none: after any additions the
known methods are the listed ones, the noted positions are those of the calls of each method, and
the lists alone determine the rest. -/

namespace MergeRisk

/-! ### Programs and their additions -/

namespace Program

def add (program : Program) : Addition → Program
  | .method added => program.addMethod added
  | .call added => program.addCall added

/-- The program that additions lead to. -/
def ofAdditions (additions : List Addition) : Program :=
  additions.foldl add ∅

theorem methods_foldl_add (additions : List Addition) (program : Program) :
    (additions.foldl add program).methods =
      (additions.flatMap Addition.methods).foldl appendNew program.methods := by
  induction additions generalizing program with
  | nil => rfl
  | cons addition additions ih =>
    rw [List.foldl_cons, ih, List.flatMap_cons, List.foldl_append]
    cases addition <;> rfl

theorem calls_foldl_add (additions : List Addition) (program : Program) :
    (additions.foldl add program).calls = program.calls ++ additions.filterMap Addition.call? := by
  induction additions generalizing program with
  | nil => rw [List.foldl_nil, List.filterMap_nil, List.append_nil]
  | cons addition additions ih =>
    rw [List.foldl_cons, ih]
    cases addition with
    | method added => rfl
    | call added => exact List.append_assoc ..

theorem ofReport_eq (methods : List Signature) (calls : List Call) :
    ofReport methods calls = ofAdditions (Addition.report methods calls) := by
  rw [ofAdditions, Addition.report, List.foldl_append, List.foldl_map, List.foldl_map]
  rfl

/-- A program is what its own methods and calls report. -/
theorem ofReport_self (program : Program) : ofReport program.methods program.calls = program := by
  rw [ofReport_eq, ofAdditions]
  apply Program.ext
  · rw [methods_foldl_add]
    exact Addition.foldl_appendNew_report program.methods_nodup program.caller_mem
      program.callee_mem
  · rw [calls_foldl_add, Addition.filterMap_report]
    rfl

end Program

/-! ### Positions -/

/-- The positions of the calls that a method makes. -/
def positions (calls : List Call) (method : Signature) : List Nat :=
  (calls.zipIdx.filter (·.1.caller = method)).map Prod.snd

theorem positions_concat (calls : List Call) (call : Call) (method : Signature) :
    positions (calls ++ [call]) method =
      if call.caller = method then positions calls method ++ [calls.length]
      else positions calls method := by
  rw [positions, List.zipIdx_append, List.filter_append, List.map_append]
  split
  · rename_i made
    simp [positions, made]
  · rename_i other
    simp [positions, other]

/-- Looking up the positions of the calls of a method finds these calls. -/
theorem mapM_positions (calls : List Call) (method : Signature) :
    (positions calls method).mapM (calls[·]?) = some (calls.filter (·.caller = method)) := by
  have found : ∀ entry ∈ calls.zipIdx.filter (·.1.caller = method),
      calls[entry.2]? = some entry.1 := by
    intro entry member
    exact List.mem_zipIdx_iff_getElem?.mp (List.mem_filter.mp member).1
  have entries : (calls.zipIdx.filter (·.1.caller = method)).map Prod.fst =
      calls.filter (·.caller = method) := by
    conv_rhs => rw [← List.zipIdx_map_fst 0 calls, List.filter_map]
    rfl
  rw [positions, List.mapM_map, ← entries]
  exact mapM_eq_some found

namespace IndexedProgram

/-! ### The index -/

/-- A program with an index has the lists of a program without one; it knows the listed methods and
has noted the positions of the calls of each, and nothing for those that make no call. -/
structure Indexes (indexed : IndexedProgram) (program : Program) : Prop where
  methods : indexed.methods = program.methods
  calls : indexed.calls = program.calls
  known : ∀ method, method ∈ indexed.known ↔ method ∈ program.methods
  outgoing : ∀ method, indexed.outgoing[method]? =
    if positions program.calls method = [] then none else some (positions program.calls method)

theorem Indexes.empty : Indexes {} ∅ where
  methods := rfl
  calls := rfl
  known _ := iff_of_false Std.ExtHashSet.not_mem_empty List.not_mem_nil
  outgoing _ := Std.ExtHashMap.getElem?_empty

namespace Indexes
variable {indexed : IndexedProgram} {program : Program} (indexes : indexed.Indexes program)
include indexes

theorem outgoing_getD (method : Signature) :
    indexed.outgoing.getD method [] = positions program.calls method := by
  rw [Std.ExtHashMap.getD_eq_getD_getElem?, indexes.outgoing]
  split
  · rename_i noCalls
    rw [noCalls]
    rfl
  · rfl

theorem callsFrom?_eq (method : Signature) :
    indexed.callsFrom? method = some (indexed.calls.filter (·.caller = method)) := by
  rw [callsFrom?, indexes.outgoing_getD, indexes.calls]
  exact mapM_positions program.calls method

/-- The lists determine the index. -/
theorem unique {other : IndexedProgram} (same : other.Indexes program) : indexed = other := by
  apply IndexedProgram.ext
  · rw [indexes.methods, same.methods]
  · apply Std.ExtHashSet.ext_mem
    intro method
    rw [indexes.known, same.known]
  · rw [indexes.calls, same.calls]
  · apply Std.ExtHashMap.ext_getElem?
    intro method
    rw [indexes.outgoing, same.outgoing]

/-! ### One addition -/

theorem addMethod (method : Signature) :
    (indexed.addMethod method).Indexes (program.addMethod method) := by
  unfold IndexedProgram.addMethod
  split
  · rename_i present
    have listed : method ∈ program.methods :=
      (indexes.known method).mp (Std.ExtHashSet.mem_iff_contains.mpr present)
    have same : program.addMethod method = program := Program.ext (appendNew_of_mem listed) rfl
    rw [same]
    exact indexes
  · rename_i unknown
    have absent : method ∉ program.methods := by
      intro listed
      exact unknown (Std.ExtHashSet.mem_iff_contains.mp ((indexes.known method).mpr listed))
    constructor
    · change indexed.methods ++ [method] = appendNew program.methods method
      rw [indexes.methods, appendNew, if_neg absent]
    · exact indexes.calls
    · intro other
      rw [Std.ExtHashSet.mem_insert, Program.mem_addMethod, indexes.known, beq_iff_eq, or_comm,
        eq_comm]
    · exact indexes.outgoing

/-- Both grow alike by a call: its position is the length that the list has before it. -/
theorem addCall (call : Call) : (indexed.addCall call).Indexes (program.addCall call) := by
  have grown := (indexes.addMethod call.caller).addMethod call.callee
  constructor
  · exact grown.methods
  · change _ ++ [call] = _ ++ [call]
    rw [grown.calls]
  · exact grown.known
  · intro method
    change (Std.ExtHashMap.insert _ _ _)[method]? = if positions (_ ++ [call]) method = [] then none
      else some (positions (_ ++ [call]) method)
    rw [Std.ExtHashMap.getElem?_insert, grown.outgoing_getD, grown.calls, positions_concat]
    by_cases made : call.caller = method
    · simp [made]
    · simp [made, grown.outgoing]

end Indexes

/-! ### All additions -/

def add (program : IndexedProgram) : Addition → IndexedProgram
  | .method added => program.addMethod added
  | .call added => program.addCall added

/-- The program that additions lead to, with its index. -/
def ofAdditions (additions : List Addition) : IndexedProgram :=
  additions.foldl add {}

theorem ofReport_eq (methods : List Signature) (calls : List Call) :
    ofReport methods calls = ofAdditions (Addition.report methods calls) := by
  rw [ofAdditions, Addition.report, List.foldl_append, List.foldl_map, List.foldl_map]
  rfl

theorem Indexes.foldl_add {indexed : IndexedProgram} {program : Program}
    (indexes : indexed.Indexes program) (additions : List Addition) :
    (additions.foldl add indexed).Indexes (additions.foldl Program.add program) := by
  induction additions generalizing indexed program with
  | nil => exact indexes
  | cons addition additions ih =>
    cases addition with
    | method added => exact ih (indexes.addMethod added)
    | call added => exact ih (indexes.addCall added)

theorem indexes_ofAdditions (additions : List Addition) :
    (ofAdditions additions).Indexes (Program.ofAdditions additions) :=
  Indexes.empty.foldl_add additions

theorem Indexes.listed_eq {indexed : IndexedProgram} {program : Program}
    (indexes : indexed.Indexes program) : indexed.listed = program := by
  rw [listed, indexes.methods, indexes.calls, program.ofReport_self]

/-- Reporting the lists of a program leads to it again: what is known is not listed twice, and the
positions are noted anew as they were. -/
theorem Indexes.ofReport_lists {indexed : IndexedProgram} {program : Program}
    (indexes : indexed.Indexes program) : ofReport indexed.methods indexed.calls = indexed := by
  have rebuilt := indexes_ofAdditions (Addition.report program.methods program.calls)
  rw [← Program.ofReport_eq, program.ofReport_self, ← ofReport_eq] at rebuilt
  rw [indexes.methods, indexes.calls]
  exact rebuilt.unique indexes

/-- What a program keeps of some additions. -/
structure Keeps (program : IndexedProgram) (additions : List Addition) : Prop where
  /-- The methods that were mentioned, in the order of their first mention. -/
  methods : program.methods = (additions.flatMap Addition.methods).eraseDups
  nodup : program.methods.Nodup
  /-- The calls that were reported, repeats included. -/
  calls : program.calls = additions.filterMap Addition.call?
  known : ∀ method, method ∈ program.known ↔ method ∈ program.methods
  /-- All positions noted for a method lie inside the list of calls; the calls there are those that
  the method makes, in the order of the list. -/
  callsFrom : ∀ method, program.callsFrom? method =
    some (program.calls.filter (·.caller = method))
  methodsOf : ∀ owner, program.methodsOf owner = program.methods.filter (·.owner = owner)
  /-- Reporting the lists of the program leads to it again, with its index. -/
  rebuilt : ofReport program.methods program.calls = program
  /-- The program of the same additions that has no index has the same lists. -/
  listed : program.listed = Program.ofAdditions additions ∧
    program.listed.methods = program.methods ∧ program.listed.calls = program.calls

/-- Whatever is added to an empty program, in whatever order, its lists and its index stay in step;
so they do where a report lists methods and then calls. -/
theorem keeps_ofAdditions :
    (∀ additions, (ofAdditions additions).Keeps additions) ∧
    ∀ methods calls, (ofReport methods calls).Keeps (Addition.report methods calls) := by
  have keeps (additions : List Addition) : (ofAdditions additions).Keeps additions := by
    have indexes := indexes_ofAdditions additions
    have methods := Program.methods_foldl_add additions ∅
    have calls := Program.calls_foldl_add additions ∅
    have listed := indexes.listed_eq
    constructor
    case methods => exact (indexes.methods.trans methods).trans (foldl_appendNew [] _)
    case nodup =>
      rw [indexes.methods]
      exact (Program.ofAdditions additions).methods_nodup
    case calls => exact (indexes.calls.trans calls).trans (List.nil_append _)
    case known =>
      rw [indexes.methods]
      exact indexes.known
    case callsFrom => exact indexes.callsFrom?_eq
    case methodsOf =>
      intro owner
      exact List.filter_congr fun method _ => rfl
    case rebuilt => exact indexes.ofReport_lists
    case listed => exact ⟨listed, by rw [listed, indexes.methods], by rw [listed, indexes.calls]⟩
  refine ⟨keeps, ?_⟩
  intro methods calls
  rw [ofReport_eq]
  exact keeps _

end IndexedProgram

end MergeRisk
