import MergeRisk.Json.Kept
import MergeRisk.Sha1
import MergeRisk.Span

/-! Span files: the method spans of source files, as an analyzer recorded them. A span may be pinned
to a content, and then applies to that content only. -/

namespace MergeRisk

/-- A span, with the beginning of the identifier of the content it was measured on. -/
structure RecordedSpan where
  span : MethodSpan
  content : Option String := none
deriving DecidableEq, Repr

/-- Recorded spans by path, each path once. -/
structure SpanFile where
  files : List (String × List RecordedSpan) := []
deriving DecidableEq, Repr

/-- Whether a span applies to the content with an identifier. -/
def RecordedSpan.appliesTo (recorded : RecordedSpan) (identifier : String) : Bool :=
  match recorded.content with
  | none => true
  | some wanted => wanted != "" && Text.startsWith wanted.toList identifier.toList

namespace SpanFile

/-- Set the spans of a path; a path listed again loses its earlier spans. -/
def set (spans : SpanFile) (path : String) (recorded : List RecordedSpan) : SpanFile :=
  ⟨spans.files.filter (·.1 != path) ++ [(path, recorded)]⟩

/-- The spans of a file with some content. -/
def locate (spans : SpanFile) (path content : String) : List MethodSpan :=
  let recorded := (spans.files.lookup path).getD []
  if recorded.isEmpty then []
  else
    let identifier := contentId (Text.encode content)
    (recorded.filter (·.appliesTo identifier)).map (·.span)

end SpanFile

end MergeRisk
