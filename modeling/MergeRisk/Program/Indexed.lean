import MergeRisk.CallGraph.Indexed
import MergeRisk.Program.Basic
import Std.Data.ExtHashMap
import Std.Data.ExtHashSet

/-! Program models with an index. Beside the lists of methods and calls stand the set of the methods
that are known and, for each caller, the positions of its calls. -/

namespace MergeRisk

@[ext] structure IndexedProgram where
  methods : List Signature := []
  known : Std.ExtHashSet Signature := ∅
  calls : List Call := []
  /-- The positions of the calls that each method makes. -/
  outgoing : Std.ExtHashMap Signature (List Nat) := ∅

namespace IndexedProgram

/-- Mention a method; nothing changes if it is known. -/
def addMethod (program : IndexedProgram) (method : Signature) : IndexedProgram :=
  if program.known.contains method then program
  else { program with
    methods := program.methods ++ [method]
    known := program.known.insert method }

/-- Report a call; its caller and then its callee are mentioned by it. Its position is noted before
it is listed. -/
def addCall (program : IndexedProgram) (call : Call) : IndexedProgram :=
  let grown := (program.addMethod call.caller).addMethod call.callee
  let positions := grown.outgoing.getD call.caller [] ++ [grown.calls.length]
  { grown with
    outgoing := grown.outgoing.insert call.caller positions
    calls := grown.calls ++ [call] }

/-- The program with the listed methods and the reported calls. -/
def ofReport (methods : List Signature) (calls : List Call) : IndexedProgram :=
  calls.foldl addCall (methods.foldl addMethod {})

def methodsOf (program : IndexedProgram) (owner : String) : List Signature :=
  program.methods.filter (·.owner == owner)

/-- The calls at the positions noted for a method; none if one of the positions lies outside the
list of calls. -/
def callsFrom? (program : IndexedProgram) (method : Signature) : Option (List Call) :=
  (program.outgoing.getD method []).mapM (program.calls[·]?)

/-- The listed methods and calls as a program of their own. -/
def listed (program : IndexedProgram) : Program :=
  .ofReport program.methods program.calls

end IndexedProgram

end MergeRisk
