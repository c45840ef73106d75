import MergeRisk.Change

/-! Method spans: the lines a method occupies, and the methods that changed lines fall in. -/

namespace MergeRisk

/-- The lines of a method, both ends included. -/
structure MethodSpan where
  signature : Signature
  start : Nat
  stop : Nat
deriving DecidableEq, Repr

namespace MethodSpan

def contains (span : MethodSpan) (number : Nat) : Bool :=
  span.start ≤ number && number ≤ span.stop

/-- How far the span reaches past its first line. -/
def extent (span : MethodSpan) : Nat :=
  span.stop - span.start

/-- The shortest span around a line, the first listed one of several. -/
def innermost? (spans : List MethodSpan) (number : Nat) : Option MethodSpan :=
  least? extent (spans.filter (·.contains number))

end MethodSpan

/-- The method that a changed line falls in: added lines are looked up among the new spans, removed
lines among the old ones. -/
def methodAt? (oldSpans newSpans : List MethodSpan) (line : ChangedLine) : Option Signature :=
  let spans := match line.kind with
    | .added => newSpans
    | .removed => oldSpans
  (MethodSpan.innermost? spans line.number).map (·.signature)

/-- The methods that changed lines fall in, each with its lines. -/
def methodsTouched (oldSpans newSpans : List MethodSpan) (lines : LineSet) : MethodSet :=
  .ofList ((lines.toList.filterMap (methodAt? oldSpans newSpans)).eraseDups.map fun signature =>
    ⟨signature, lines.filter fun line => methodAt? oldSpans newSpans line == some signature⟩)

/-! ### Line by line -/

/-- A method with a line more, if it has the given signature. -/
def ChangedMethod.withLine (signature : Signature) (line : ChangedLine) (method : ChangedMethod) :
    ChangedMethod :=
  if method.signature = signature then { method with lines := method.lines.insert line } else method

theorem ChangedMethod.signature_withLine (signature : Signature) (line : ChangedLine)
    (method : ChangedMethod) : (method.withLine signature line).signature = method.signature := by
  unfold withLine
  split <;> rfl

/-- Add a line to the method of a signature, which has no lines before its first one. -/
def addLine (methods : MethodSet) (signature : Signature) (line : ChangedLine) : MethodSet :=
  (methods.insert ⟨signature, ∅⟩).adjust (ChangedMethod.withLine signature line)
    (ChangedMethod.signature_withLine signature line)

/-- Add a line to the method that it falls in, if there is one. -/
def shareLine (oldSpans newSpans : List MethodSpan) (methods : MethodSet) (line : ChangedLine) :
    MethodSet :=
  match methodAt? oldSpans newSpans line with
  | some signature => addLine methods signature line
  | none => methods

/-- The methods that changed lines fall in, filled in one pass over the lines. -/
def methodsInOnePass (oldSpans newSpans : List MethodSpan) (lines : LineSet) : MethodSet :=
  lines.toList.foldl (shareLine oldSpans newSpans) ∅

end MergeRisk
