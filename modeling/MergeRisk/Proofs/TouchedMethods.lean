import MergeRisk.Proofs.Attribution

/-! The methods that changed lines fall in share the lines out among them: no line that lies in a
method is lost, none is given twice, and each goes to the innermost span around it. Going through the
lines one by one gives the same methods as collecting the lines of each. -/

namespace MergeRisk

/-! ### Spans around a line -/

/-- The spans among which the lines of a kind are looked up. -/
def sideSpans (oldSpans newSpans : List MethodSpan) : LineKind → List MethodSpan
  | .added => newSpans
  | .removed => oldSpans

theorem methodAt?_eq_some_iff {oldSpans newSpans : List MethodSpan} {line : ChangedLine}
    {method : Signature} :
    methodAt? oldSpans newSpans line = some method ↔
      LiesIn (sideSpans oldSpans newSpans line.kind) line.number method := by
  obtain ⟨number, kind⟩ := line
  cases kind with
  | added => exact methodAt?_added
  | removed => exact methodAt?_removed

theorem MethodSpan.contains_iff {span : MethodSpan} {number : Nat} :
    span.contains number = true ↔ span.start ≤ number ∧ number ≤ span.stop := by
  rw [contains, Bool.and_eq_true, decide_eq_true_eq, decide_eq_true_eq]

/-- A line has an innermost span exactly if some span contains it. -/
theorem exists_liesIn_iff {spans : List MethodSpan} {number : Nat} :
    (∃ method, LiesIn spans number method) ↔
      ∃ span ∈ spans, span.start ≤ number ∧ number ≤ span.stop := by
  constructor
  · rintro ⟨method, span, innermost, _⟩
    obtain ⟨member, around⟩ := List.mem_filter.mp innermost.mem
    exact ⟨span, member, MethodSpan.contains_iff.mp around⟩
  · rintro ⟨span, member, around⟩
    have nonempty : spans.filter (·.contains number) ≠ [] :=
      List.ne_nil_of_mem (List.mem_filter.mpr ⟨member, MethodSpan.contains_iff.mpr around⟩)
    have found := least?_isSome MethodSpan.extent (spans.filter (·.contains number))
    rw [List.isEmpty_eq_false_iff.mpr nonempty] at found
    obtain ⟨inner, isLeast⟩ := Option.isSome_iff_exists.mp found
    exact ⟨inner.signature, inner, least?_eq_some_iff.mp isLeast, rfl⟩

/-- A span that is shortest among the listed ones around a line, and the first of those. -/
def FirstShortest (spans : List MethodSpan) (number : Nat) (span : MethodSpan) : Prop :=
  ∃ before after, spans = before ++ span :: after ∧ (span.start ≤ number ∧ number ≤ span.stop) ∧
    (∀ other ∈ before, other.start ≤ number ∧ number ≤ other.stop →
      span.stop - span.start < other.stop - other.start) ∧
    ∀ other ∈ after, other.start ≤ number ∧ number ≤ other.stop →
      span.stop - span.start ≤ other.stop - other.start

theorem innermost_iff_firstShortest {spans : List MethodSpan} {number : Nat} {span : MethodSpan} :
    Innermost spans number span ↔ FirstShortest spans number span := by
  simp only [FirstShortest, ← MethodSpan.contains_iff]
  constructor
  · -- The spans that do not contain the line stand between those that are compared.
    rintro ⟨earlier, later, split, farther, noLess⟩
    obtain ⟨front, rest, rfl, sameFront, sameRest⟩ := List.filter_eq_append_iff.mp split
    obtain ⟨skipped, after, rfl, outside, around, sameAfter⟩ := List.filter_eq_cons_iff.mp sameRest
    refine ⟨front ++ skipped, after, (List.append_assoc ..).symm, around, ?_, ?_⟩
    · intro other member containing
      rcases List.mem_append.mp member with inFront | inSkipped
      · have listed : other ∈ earlier := sameFront ▸ List.mem_filter.mpr ⟨inFront, containing⟩
        exact Nat.compare_eq_lt.mp (farther other listed)
      · exact absurd containing (outside other inSkipped)
    · intro other member containing
      have listed : other ∈ later := sameAfter ▸ List.mem_filter.mpr ⟨member, containing⟩
      exact Nat.isLE_compare.mp (noLess other listed)
  · rintro ⟨before, after, rfl, around, farther, noLess⟩
    refine ⟨before.filter (·.contains number), after.filter (·.contains number), ?_, ?_, ?_⟩
    · have first : (span :: after).filter (·.contains number) =
          span :: after.filter (·.contains number) := List.filter_cons_of_pos around
      rw [List.filter_append, first]
    · intro other member
      obtain ⟨inBefore, containing⟩ := List.mem_filter.mp member
      exact Nat.compare_eq_lt.mpr (farther other inBefore containing)
    · intro other member
      obtain ⟨inAfter, containing⟩ := List.mem_filter.mp member
      exact Nat.isLE_compare.mpr (noLess other inAfter containing)

/-! ### Line by line -/

theorem mem_lines_withLine {method : ChangedMethod} {signature : Signature} {line other : ChangedLine} :
    other ∈ (method.withLine signature line).lines ↔
      other ∈ method.lines ∨ method.signature = signature ∧ other = line := by
  unfold ChangedMethod.withLine
  split
  · rename_i same
    simp only [SortedSet.mem_insert, same, true_and]
  · rename_i different
    simp only [different, false_and, or_false]

theorem mem_addLine {methods : MethodSet} {signature : Signature} {line : ChangedLine}
    {method : ChangedMethod} :
    method ∈ addLine methods signature line ↔
      ∃ earlier, (earlier ∈ methods ∨ earlier = ⟨signature, ∅⟩ ∧ signature ∉ methods.keys) ∧
        earlier.withLine signature line = method := by
  rw [addLine, OrderedBy.mem_adjust]
  simp only [OrderedBy.mem_insert]

theorem mem_keys_addLine {methods : MethodSet} {signature wanted : Signature} {line : ChangedLine} :
    wanted ∈ (addLine methods signature line).keys ↔ wanted ∈ methods.keys ∨ wanted = signature := by
  rw [addLine, OrderedBy.keys_adjust, OrderedBy.mem_keys_insert]

/-- The methods that the lines of a list fall in, each with all of those lines that do. -/
structure Groups (oldSpans newSpans : List MethodSpan) (lines : List ChangedLine)
    (methods : MethodSet) : Prop where
  keys : ∀ signature, signature ∈ methods.keys ↔
    ∃ line ∈ lines, methodAt? oldSpans newSpans line = some signature
  lines : ∀ method ∈ methods, ∀ line, line ∈ method.lines ↔
    line ∈ lines ∧ methodAt? oldSpans newSpans line = some method.signature

namespace Groups
variable {oldSpans newSpans : List MethodSpan} {lines : List ChangedLine} {methods others : MethodSet}

theorem empty : Groups oldSpans newSpans [] ∅ where
  keys := by simp [OrderedBy.keys]
  lines := by simp [OrderedBy.mem_iff]

theorem touched (changed : LineSet) :
    Groups oldSpans newSpans changed.toList (methodsTouched oldSpans newSpans changed) where
  keys _ := mem_keys_methodsTouched
  lines _ member _ := mem_lines_of_touched member

/-- The method that a line is added to holds the earlier lines that fall in it, also if it is new. -/
theorem lines_earlier (groups : Groups oldSpans newSpans lines methods) {signature : Signature}
    {earlier : ChangedMethod}
    (source : earlier ∈ methods ∨ earlier = ⟨signature, ∅⟩ ∧ signature ∉ methods.keys)
    (line : ChangedLine) :
    line ∈ earlier.lines ↔
      line ∈ lines ∧ methodAt? oldSpans newSpans line = some earlier.signature := by
  rcases source with old | ⟨rfl, fresh⟩
  · exact groups.lines earlier old line
  · have unfilled : ¬ (line ∈ lines ∧ methodAt? oldSpans newSpans line = some signature) := by
      rintro ⟨listed, falls⟩
      exact fresh ((groups.keys signature).mpr ⟨line, listed, falls⟩)
    simp only [unfilled, iff_false]
    exact List.not_mem_nil

theorem shareLine (groups : Groups oldSpans newSpans lines methods) (line : ChangedLine) :
    Groups oldSpans newSpans (lines ++ [line]) (shareLine oldSpans newSpans methods line) := by
  unfold MergeRisk.shareLine
  cases falls : methodAt? oldSpans newSpans line with
  | none =>
    -- The line falls in no method, so on both sides it counts for none.
    constructor
    · intro signature
      simp [groups.keys, or_and_right, exists_or, falls]
    · intro method member other
      rw [groups.lines method member other, List.mem_append, List.mem_singleton, or_and_right]
      have elsewhere : ¬ (other = line ∧
          methodAt? oldSpans newSpans other = some method.signature) := by
        rintro ⟨rfl, inMethod⟩
        rw [falls] at inMethod
        cases inMethod
      rw [or_iff_left elsewhere]
  | some found =>
    constructor
    · intro signature
      simp [mem_keys_addLine, groups.keys, or_and_right, exists_or, falls, eq_comm]
    · intro method member other
      obtain ⟨earlier, source, rfl⟩ := mem_addLine.mp member
      rw [mem_lines_withLine, groups.lines_earlier source, ChangedMethod.signature_withLine,
        List.mem_append, List.mem_singleton, or_and_right]
      have added : earlier.signature = found ∧ other = line ↔
          other = line ∧ methodAt? oldSpans newSpans other = some earlier.signature := by
        rw [and_comm]
        apply and_congr_right
        rintro rfl
        rw [falls, Option.some.injEq, eq_comm]
      rw [added]

theorem foldl (groups : Groups oldSpans newSpans lines methods) (more : List ChangedLine) :
    Groups oldSpans newSpans (lines ++ more)
      (more.foldl (MergeRisk.shareLine oldSpans newSpans) methods) := by
  induction more generalizing lines methods with
  | nil => rwa [List.append_nil]
  | cons line more ih =>
    rw [List.append_cons, List.foldl_cons]
    exact ih (groups.shareLine line)

theorem mem_of_mem (groups : Groups oldSpans newSpans lines methods)
    (alike : Groups oldSpans newSpans lines others) {method : ChangedMethod}
    (member : method ∈ methods) : method ∈ others := by
  have key : method.signature ∈ others.keys := by
    rw [alike.keys, ← groups.keys]
    exact List.mem_map_of_mem member
  obtain ⟨other, listed, same⟩ := List.mem_map.mp key
  have sameLines : other.lines = method.lines := by
    apply OrderedBy.ext_mem
    intro line
    rw [alike.lines other listed, groups.lines method member, same]
  have equal : other = method := by
    cases other
    cases method
    simp only at same sameLines
    rw [same, sameLines]
  rwa [← equal]

theorem unique (groups : Groups oldSpans newSpans lines methods)
    (alike : Groups oldSpans newSpans lines others) : methods = others :=
  OrderedBy.ext_mem fun _ => ⟨groups.mem_of_mem alike, alike.mem_of_mem groups⟩

end Groups

/-- One pass over the lines finds the methods and their lines. -/
theorem methodsInOnePass_eq (oldSpans newSpans : List MethodSpan) (lines : LineSet) :
    methodsInOnePass oldSpans newSpans lines = methodsTouched oldSpans newSpans lines :=
  (Groups.empty.foldl lines.toList).unique (Groups.touched lines)

/-! ### Lines shared out -/

section
variable {oldSpans newSpans : List MethodSpan} {lines : LineSet} {method : ChangedMethod}
  {line : ChangedLine}

theorem mem_lines_iff_firstShortest (touched : method ∈ methodsTouched oldSpans newSpans lines) :
    line ∈ method.lines ↔ line ∈ lines ∧ ∃ span,
      FirstShortest (sideSpans oldSpans newSpans line.kind) line.number span ∧
        span.signature = method.signature := by
  rw [mem_lines_of_touched touched, methodAt?_eq_some_iff, LiesIn]
  simp only [innermost_iff_firstShortest]

/-- Only methods that a changed line falls in are touched. -/
theorem exists_line_of_touched (touched : method ∈ methodsTouched oldSpans newSpans lines) :
    ∃ line, line ∈ method.lines := by
  have key : method.signature ∈ (methodsTouched oldSpans newSpans lines).keys :=
    List.mem_map_of_mem touched
  obtain ⟨line, changed, falls⟩ := mem_keys_methodsTouched.mp key
  exact ⟨line, (mem_lines_of_touched touched).mpr ⟨changed, falls⟩⟩

/-- A line falls in one method at most. -/
theorem eq_signature_of_mem_lines {other : ChangedMethod}
    (touched : method ∈ methodsTouched oldSpans newSpans lines)
    (alsoTouched : other ∈ methodsTouched oldSpans newSpans lines)
    (inMethod : line ∈ method.lines) (inOther : line ∈ other.lines) :
    method.signature = other.signature := by
  have falls := ((mem_lines_of_touched touched).mp inMethod).2
  rw [((mem_lines_of_touched alsoTouched).mp inOther).2] at falls
  exact (Option.some.inj falls).symm

end

/-- Methods that share changed lines out among them. -/
structure ShareOut (oldSpans newSpans : List MethodSpan) (lines : LineSet) (methods : MethodSet) :
    Prop where
  distinct : methods.toList.Pairwise fun first second => first.signature ≠ second.signature
  disjoint : methods.toList.Pairwise fun first second =>
    ∀ line, ¬ (line ∈ first.lines ∧ line ∈ second.lines)
  nonempty : ∀ method ∈ methods, ∃ line, line ∈ method.lines
  /-- The lines given away are those that lie in a span of their own side. -/
  union : ∀ line, (∃ method ∈ methods, line ∈ method.lines) ↔
    line ∈ lines ∧ ∃ span ∈ sideSpans oldSpans newSpans line.kind,
      span.start ≤ line.number ∧ line.number ≤ span.stop
  /-- A line goes to the method of the shortest span around it on its own side, the first listed of
  several. -/
  innermost : ∀ method ∈ methods, ∀ line, line ∈ method.lines ↔ line ∈ lines ∧ ∃ span,
    FirstShortest (sideSpans oldSpans newSpans line.kind) line.number span ∧
      span.signature = method.signature

/-- The methods that changed lines fall in, found in one pass or collected one by one, share out the
lines. -/
theorem shareOut_methodsTouched (oldSpans newSpans : List MethodSpan) (lines : LineSet) :
    methodsInOnePass oldSpans newSpans lines = methodsTouched oldSpans newSpans lines ∧
      ShareOut oldSpans newSpans lines (methodsTouched oldSpans newSpans lines) := by
  refine ⟨methodsInOnePass_eq oldSpans newSpans lines, ?_⟩
  have distinct : (methodsTouched oldSpans newSpans lines).toList.Pairwise
      fun first second => first.signature ≠ second.signature :=
    List.pairwise_map.mp (methodsTouched oldSpans newSpans lines).nodup_keys
  constructor
  case distinct => exact distinct
  case disjoint =>
    apply distinct.imp_of_mem
    intro first second inFirst inSecond different line both
    exact different (eq_signature_of_mem_lines inFirst inSecond both.1 both.2)
  case nonempty => exact fun method touched => exists_line_of_touched touched
  case union =>
    intro line
    rw [← exists_liesIn_iff]
    constructor
    · rintro ⟨method, touched, member⟩
      obtain ⟨changed, falls⟩ := (mem_lines_of_touched touched).mp member
      exact ⟨changed, method.signature, methodAt?_eq_some_iff.mp falls⟩
    · rintro ⟨changed, signature, lies⟩
      have falls := methodAt?_eq_some_iff.mpr lies
      obtain ⟨method, found⟩ := exists_touched changed falls
      obtain ⟨touched, rfl⟩ := OrderedBy.find?_eq_some_iff.mp found
      exact ⟨method, touched, (mem_lines_of_touched touched).mpr ⟨changed, falls⟩⟩
  case innermost => exact fun method touched line => mem_lines_iff_firstShortest touched

def bake : Signature := ⟨"Oven", "bake", ["Dough"], by decide, by decide, by decide⟩

def knead : Signature := ⟨"Oven", "knead", ["Dough"], by decide, by decide, by decide⟩

def glaze : Signature := ⟨"Oven", "glaze", ["Dough"], by decide, by decide, by decide⟩

/-- Two spans of the same length overlap inside a third, and a last one is turned round. -/
def overlappingSpans : List MethodSpan :=
  [⟨bake, 1, 9⟩, ⟨knead, 3, 5⟩, ⟨glaze, 4, 6⟩, ⟨glaze, 8, 7⟩]

/-- Before the change the two spans were listed the other way round. -/
def turnedSpans : List MethodSpan :=
  [⟨glaze, 4, 6⟩, ⟨knead, 3, 5⟩, ⟨bake, 1, 9⟩]

def scatteredLines : LineSet :=
  .ofList [.added 2, .added 4, .added 6, .added 7, .added 8, .added 12, .removed 4, .removed 9]

def scatteredMethods : MethodSet :=
  .ofList [⟨bake, .ofList [.added 2, .added 7, .added 8, .removed 9]⟩, ⟨knead, .ofList [.added 4]⟩,
    ⟨glaze, .ofList [.added 6, .removed 4]⟩]

theorem shareOut_methodsTouched_overlapping :
    methodsInOnePass turnedSpans overlappingSpans scatteredLines = scatteredMethods ∧
      ShareOut turnedSpans overlappingSpans scatteredLines scatteredMethods := by
  obtain ⟨inOnePass, shareOut⟩ := shareOut_methodsTouched turnedSpans overlappingSpans scatteredLines
  have touched : methodsTouched turnedSpans overlappingSpans scatteredLines = scatteredMethods := by
    decide +kernel
  rw [touched] at inOnePass shareOut
  exact ⟨inOnePass, shareOut⟩

end MergeRisk
