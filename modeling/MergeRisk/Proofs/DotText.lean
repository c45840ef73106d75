import Mathlib.Data.List.Basic
import MergeRisk.CallGraph.Dot

/-! Call graphs in the DOT language are unambiguous. A quoted text ends at its first quote that no
backslash escapes, so every line tells where it ends and what it says, whatever its texts look like. -/

namespace MergeRisk.CallGraph

/-! ### Quoted texts -/

/-- How a character is written between quotes. -/
def escapedChar (c : Char) : List Char :=
  if c = '\\' || c = '"' then ['\\', c] else [c]

theorem toList_quoted (text : String) :
    (quoted text).toList = '"' :: (text.toList.flatMap escapedChar ++ ['"']) := by
  have inner : (escaped text).toList = text.toList.flatMap escapedChar := by
    rw [escaped, String.toList_ofList]
    rfl
  rw [quoted, String.toList_append, String.toList_append, inner]
  rfl

/-- What stands before the first quote that is not escaped, with its escapes resolved, and what
follows that quote. -/
def readQuoted? : List Char → Option (List Char × List Char)
  | [] => none
  | '"' :: rest => some ([], rest)
  | '\\' :: c :: rest => (readQuoted? rest).map fun (text, rest) => (c :: text, rest)
  | c :: rest => (readQuoted? rest).map fun (text, rest) => (c :: text, rest)

theorem readQuoted?_escapedChar (c : Char) (later : List Char) :
    readQuoted? (escapedChar c ++ later) =
      (readQuoted? later).map fun (text, rest) => (c :: text, rest) := by
  by_cases special : c = '\\' ∨ c = '"'
  · have pair : escapedChar c = ['\\', c] := if_pos (by simpa using special)
    rw [pair, List.cons_append, List.cons_append, List.nil_append, readQuoted?]
  · obtain ⟨noBackslash, noQuote⟩ := not_or.mp special
    have single : escapedChar c = [c] := if_neg (by simpa using special)
    rw [single, List.cons_append, List.nil_append, readQuoted?]
    · exact noQuote
    · intro _ _ backslash
      exact absurd backslash noBackslash

theorem readQuoted?_escaped (text rest : List Char) :
    readQuoted? (text.flatMap escapedChar ++ '"' :: rest) = some (text, rest) := by
  induction text with
  | nil => rfl
  | cons c text ih =>
    rw [List.flatMap_cons, List.append_assoc, readQuoted?_escapedChar, ih]
    rfl

/-- Two quoted texts with something after each are told apart. -/
theorem quoted_append_inj {first second : String} {rest others : List Char}
    (same : (quoted first).toList ++ rest = (quoted second).toList ++ others) :
    first = second ∧ rest = others := by
  simp only [toList_quoted, List.cons_append, List.append_assoc, List.nil_append, List.cons.injEq,
    true_and] at same
  have read := congrArg readQuoted? same
  rw [readQuoted?_escaped, readQuoted?_escaped, Option.some.injEq, Prod.mk.injEq] at read
  exact ⟨String.toList_inj.mp read.1, read.2⟩

/-! ### Lines -/

/-- What a line of a graph says. -/
inductive DotLine where
  | node (text label : String)
  | call (caller callee : String)
deriving DecidableEq, Repr

namespace DotLine

/-- The first and the second text of a line. -/
def texts : DotLine → String × String
  | node text label => (text, label)
  | call caller callee => (caller, callee)

/-- What stands between the two texts. -/
def link : DotLine → String
  | node .. => " [label="
  | call .. => " -> "

def close : DotLine → String
  | node .. => "];\n"
  | call .. => ";\n"

def node? : DotLine → Option (String × String)
  | node text label => some (text, label)
  | call .. => none

def call? : DotLine → Option (String × String)
  | node .. => none
  | call caller callee => some (caller, callee)

def render (line : DotLine) : List Char :=
  '\t' :: ((quoted line.texts.1).toList ++ (line.link.toList ++
    ((quoted line.texts.2).toList ++ line.close.toList)))

/-- The lines of nodes and calls part after their first text. -/
theorem render_append_inj {first second : DotLine} {rest others : List Char}
    (same : first.render ++ rest = second.render ++ others) : first = second ∧ rest = others := by
  simp only [render, List.cons_append, List.append_assoc, List.cons.injEq, true_and] at same
  obtain ⟨firstTexts, linked⟩ := quoted_append_inj same
  cases first with
  | node text label =>
    cases second with
    | node =>
      obtain ⟨secondTexts, closed⟩ := quoted_append_inj (List.append_cancel_left linked)
      cases firstTexts
      cases secondTexts
      exact ⟨rfl, List.append_cancel_left closed⟩
    | call => simp [link] at linked
  | call caller callee =>
    cases second with
    | node => simp [link] at linked
    | call =>
      obtain ⟨secondTexts, closed⟩ := quoted_append_inj (List.append_cancel_left linked)
      cases firstTexts
      cases secondTexts
      exact ⟨rfl, List.append_cancel_left closed⟩

/-- Lines are told apart up to the brace that closes the graph. -/
theorem flatMap_render_inj {lines others : List DotLine}
    (same : lines.flatMap render ++ ['\x7d'] = others.flatMap render ++ ['\x7d']) :
    lines = others := by
  induction lines generalizing others with
  | nil =>
    cases others with
    | nil => rfl
    | cons other others => simp [render] at same
  | cons line lines ih =>
    cases others with
    | nil => simp [render] at same
    | cons other others =>
      rw [List.flatMap_cons, List.flatMap_cons, List.append_assoc, List.append_assoc] at same
      obtain ⟨rfl, later⟩ := render_append_inj same
      rw [ih later]

end DotLine

/-! ### Graphs -/

/-- What the lines of a graph say, in order. -/
def dotLines (graph : CallGraph) : List DotLine :=
  graph.nodes.map (fun method => .node method.text method.simplified) ++
    graph.calls.map fun call => .call call.caller.text call.callee.text

theorem toList_dot (graph : CallGraph) : graph.dot.toList =
    "digraph \x7b\n".toList ++ (graph.dotLines.flatMap DotLine.render ++ ['\x7d']) := by
  have node (method : Signature) : (nodeLine method).toList =
      (DotLine.node method.text method.simplified).render := by
    simp [nodeLine, DotLine.render, DotLine.texts, DotLine.link, DotLine.close]
  have call (call : Call) : (callLine call).toList =
      (DotLine.call call.caller.text call.callee.text).render := by
    simp [callLine, DotLine.render, DotLine.texts, DotLine.link, DotLine.close]
  simp only [dot, String.toList_append, String.toList_join, dotLines, List.flatMap_append,
    List.flatMap_map, node, call, List.append_assoc]
  rfl

theorem dot_eq_iff_dotLines {first second : CallGraph} :
    first.dot = second.dot ↔ first.dotLines = second.dotLines := by
  rw [← String.toList_inj, toList_dot, toList_dot, List.append_cancel_left_eq]
  constructor
  · exact DotLine.flatMap_render_inj
  · intro same
    rw [same]

/-- The text and the label of a node. -/
def nodeTexts (method : Signature) : String × String :=
  (method.text, method.simplified)

/-- The texts of the two ends of a call. -/
def endTexts (call : Call) : String × String :=
  (call.caller.text, call.callee.text)

/-- Nodes and calls are told apart among the lines. -/
theorem dotLines_eq_iff {first second : CallGraph} : first.dotLines = second.dotLines ↔
    first.nodes.map nodeTexts = second.nodes.map nodeTexts ∧
      first.calls.map endTexts = second.calls.map endTexts := by
  have nodes (graph : CallGraph) :
      graph.dotLines.filterMap DotLine.node? = graph.nodes.map nodeTexts := by
    simp [dotLines, List.filterMap_map, Function.comp_def, DotLine.node?, nodeTexts]
  have calls (graph : CallGraph) :
      graph.dotLines.filterMap DotLine.call? = graph.calls.map endTexts := by
    simp [dotLines, List.filterMap_map, Function.comp_def, DotLine.call?, endTexts]
  have lines (graph : CallGraph) : graph.dotLines =
      (graph.nodes.map nodeTexts).map (fun texts => .node texts.1 texts.2) ++
        (graph.calls.map endTexts).map fun texts => .call texts.1 texts.2 := by
    rw [List.map_map, List.map_map]
    rfl
  constructor
  · intro same
    rw [← nodes, ← nodes, ← calls, ← calls, same]
    exact ⟨rfl, rfl⟩
  · rintro ⟨sameNodes, sameCalls⟩
    rw [lines, lines, sameNodes, sameCalls]

/-- Two graphs are written alike exactly when they have the same nodes by their texts and by their
labels and the same calls by the texts of their ends, in the same order. -/
theorem dot_eq_iff (first second : CallGraph) : first.dot = second.dot ↔
    first.nodes.map Signature.text = second.nodes.map Signature.text ∧
      first.nodes.map Signature.simplified = second.nodes.map Signature.simplified ∧
      first.calls.map endTexts = second.calls.map endTexts := by
  have pairs (graph : CallGraph) : graph.nodes.map nodeTexts =
      (graph.nodes.map Signature.text).zip (graph.nodes.map Signature.simplified) :=
    List.zip_map'.symm
  rw [dot_eq_iff_dotLines, dotLines_eq_iff]
  constructor
  · rintro ⟨sameNodes, sameCalls⟩
    have texts := congrArg (List.map Prod.fst) sameNodes
    have labels := congrArg (List.map Prod.snd) sameNodes
    rw [List.map_map, List.map_map] at texts labels
    exact ⟨texts, labels, sameCalls⟩
  · rintro ⟨sameTexts, sameLabels, sameCalls⟩
    rw [pairs, pairs, sameTexts, sameLabels]
    exact ⟨rfl, sameCalls⟩

end MergeRisk.CallGraph
