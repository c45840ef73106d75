import MergeRisk.CallGraph.Basic

/-! Call graphs in the DOT language. -/

namespace MergeRisk.CallGraph

/-- Escape backslashes and double quotes inside a quoted identifier. -/
def escaped (text : String) : String :=
  String.ofList (text.toList.flatMap fun c =>
    if c = '\\' || c = '"' then ['\\', c] else [c])

def quoted (text : String) : String :=
  "\"" ++ escaped text ++ "\""

def nodeLine (method : Signature) : String :=
  "\t" ++ quoted method.text ++ " [label=" ++ quoted method.simplified ++ "];\n"

def callLine (call : Call) : String :=
  "\t" ++ quoted call.caller.text ++ " -> " ++ quoted call.callee.text ++ ";\n"

/-- The graph as a digraph: nodes labelled by their display form, then calls. -/
def dot (graph : CallGraph) : String :=
  "digraph \x7b\n" ++ String.join (graph.nodes.map nodeLine) ++
    String.join (graph.calls.map callLine) ++ "\x7d"

end MergeRisk.CallGraph
