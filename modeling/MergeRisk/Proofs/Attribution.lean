import MergeRisk.Attribution
import MergeRisk.Proofs.ScriptDiff
import MergeRisk.Span

/-! Deletions attributed to the parents of a merge, from the written diffs to the reported numbers:
a deleted base line is attributed to a parent exactly when the merge and the parent both delete
it and it lies in the method. -/

namespace MergeRisk

/-! ### Lines shared by two versions -/

theorem LineSet.mem_numbers {lines : LineSet} {kind : LineKind} {number : Nat} :
    number ∈ lines.numbers kind ↔ ⟨number, kind⟩ ∈ lines := by
  rw [LineSet.numbers, SortedSet.mem_ofList, List.mem_map]
  constructor
  · intro listed
    obtain ⟨line, member, rfl⟩ := listed
    obtain ⟨present, isKind⟩ := List.mem_filter.mp member
    rw [← beq_iff_eq.mp isKind]
    exact present
  · intro member
    exact ⟨_, List.mem_filter.mpr ⟨member, beq_self_eq_true kind⟩, rfl⟩

theorem mem_sharedLines {merged parent : ChangedMethod} {kind : LineKind} {number : Nat} :
    number ∈ sharedLines merged parent kind ↔
      ⟨number, kind⟩ ∈ merged.lines ∧ ⟨number, kind⟩ ∈ parent.lines := by
  rw [sharedLines, LineSet.mem_numbers, SortedSet.mem_inter]

/-! ### Methods that lines fall in -/

/-- The innermost span around a line: the first listed of the shortest spans that contain it. -/
def Innermost (spans : List MethodSpan) (number : Nat) (span : MethodSpan) : Prop :=
  FirstLeast MethodSpan.extent (spans.filter (·.contains number)) span

/-- The innermost span around a line is one of the method. -/
def LiesIn (spans : List MethodSpan) (number : Nat) (method : Signature) : Prop :=
  ∃ span, Innermost spans number span ∧ span.signature = method

theorem liesIn_iff {spans : List MethodSpan} {number : Nat} {method : Signature} :
    LiesIn spans number method ↔
      (MethodSpan.innermost? spans number).map (·.signature) = some method := by
  rw [Option.map_eq_some_iff]
  simp only [MethodSpan.innermost?, least?_eq_some_iff, LiesIn, Innermost]

theorem methodAt?_removed {oldSpans newSpans : List MethodSpan} {number : Nat} {method : Signature} :
    methodAt? oldSpans newSpans (.removed number) = some method ↔ LiesIn oldSpans number method :=
  liesIn_iff.symm

theorem methodAt?_added {oldSpans newSpans : List MethodSpan} {number : Nat} {method : Signature} :
    methodAt? oldSpans newSpans (.added number) = some method ↔ LiesIn newSpans number method :=
  liesIn_iff.symm

/-- The lines of a touched method are those of the changed lines that fall in it. -/
theorem mem_lines_of_touched {oldSpans newSpans : List MethodSpan} {lines : LineSet}
    {method : ChangedMethod} (touched : method ∈ methodsTouched oldSpans newSpans lines)
    {line : ChangedLine} :
    line ∈ method.lines ↔
      line ∈ lines ∧ methodAt? oldSpans newSpans line = some method.signature := by
  have listed := OrderedBy.mem_of_mem_ofList touched
  obtain ⟨signature, _, rfl⟩ := List.mem_map.mp listed
  simp

/-- The touched methods are those that a changed line falls in. -/
theorem mem_keys_methodsTouched {oldSpans newSpans : List MethodSpan} {lines : LineSet}
    {method : Signature} :
    method ∈ (methodsTouched oldSpans newSpans lines).keys ↔
      ∃ line ∈ lines.toList, methodAt? oldSpans newSpans line = some method := by
  rw [methodsTouched, OrderedBy.mem_keys_ofList, List.map_map, Function.comp_def, List.map_id',
    List.mem_eraseDups, List.mem_filterMap]

/-- A method is touched if a changed line falls in it. -/
theorem exists_touched {oldSpans newSpans : List MethodSpan} {lines : LineSet} {line : ChangedLine}
    {method : Signature} (changed : line ∈ lines)
    (falls : methodAt? oldSpans newSpans line = some method) :
    ∃ version, (methodsTouched oldSpans newSpans lines).find? method = some version := by
  have touched : method ∈ (methodsTouched oldSpans newSpans lines).keys :=
    mem_keys_methodsTouched.mpr ⟨line, changed, falls⟩
  obtain ⟨version, member, isMethod⟩ := List.mem_map.mp touched
  exact ⟨version, OrderedBy.find?_eq_some_iff.mpr ⟨member, isMethod⟩⟩

/-! ### Deletions of a merge -/

section
variable {baseSpans newSpans : List MethodSpan} {lines : LineSet} {method : Signature}
  {version : ChangedMethod} {number : Nat}

theorem removed_mem_version (touched : (methodsTouched baseSpans newSpans lines).find? method =
      some version) :
    .removed number ∈ version.lines ↔ .removed number ∈ lines ∧ LiesIn baseSpans number method := by
  obtain ⟨member, rfl⟩ := OrderedBy.find?_eq_some_iff.mp touched
  rw [mem_lines_of_touched member, methodAt?_removed]

/-- A removed line that two versions of a method share was removed by both changes and lies in the
method; the spans of the new texts have no say. -/
theorem mem_sharedLines_removed {otherSpans : List MethodSpan} {otherLines : LineSet}
    {other : ChangedMethod}
    (touched : (methodsTouched baseSpans newSpans lines).find? method = some version)
    (otherTouched : (methodsTouched baseSpans otherSpans otherLines).find? method = some other) :
    number ∈ sharedLines version other .removed ↔
      .removed number ∈ lines ∧ .removed number ∈ otherLines ∧ LiesIn baseSpans number method := by
  rw [mem_sharedLines, ← ChangedLine.removed, removed_mem_version touched,
    removed_mem_version otherTouched]
  exact ⟨fun both => ⟨both.1.1, both.2.1, both.1.2⟩, fun all => ⟨⟨all.1, all.2.2⟩, all.2.1, all.2.2⟩⟩

end

/-- Three scripts of one base text, written as diffs: of a method that all three touch, the deletions
attributed to a parent are the base lines that the merge and the parent both delete and that lie in
the method. -/
theorem WrittenScript.deletions_attributed {base : List String}
    (left right merge : WrittenScript base)
    (baseSpans leftSpans rightSpans mergeSpans : List MethodSpan) :
    ∃ leftDiff rightDiff mergeDiff : FileDiff,
      Diff.read left.text = .ok [leftDiff] ∧ Diff.read right.text = .ok [rightDiff] ∧
      Diff.read merge.text = .ok [mergeDiff] ∧
      ∀ method leftVersion rightVersion merged,
        (methodsTouched baseSpans leftSpans leftDiff.changedLines).find? method =
          some leftVersion →
        (methodsTouched baseSpans rightSpans rightDiff.changedLines).find? method =
          some rightVersion →
        (methodsTouched baseSpans mergeSpans mergeDiff.changedLines).find? method = some merged →
        (∀ number,
          number ∈ (AttributedLines.ofVersions merged leftVersion rightVersion).leftDeleted ↔
            Deletes merge.script number ∧ Deletes left.script number ∧
              LiesIn baseSpans number method) ∧
        ∀ number,
          number ∈ (AttributedLines.ofVersions merged leftVersion rightVersion).rightDeleted ↔
            Deletes merge.script number ∧ Deletes right.script number ∧
              LiesIn baseSpans number method := by
  obtain ⟨leftDiff, leftRead, leftDeletes, _⟩ := left.read
  obtain ⟨rightDiff, rightRead, rightDeletes, _⟩ := right.read
  obtain ⟨mergeDiff, mergeRead, mergeDeletes, _⟩ := merge.read
  refine ⟨leftDiff, rightDiff, mergeDiff, leftRead, rightRead, mergeRead, ?_⟩
  intro method leftVersion rightVersion merged inLeft inRight inMerge
  constructor
  · intro number
    rw [← mergeDeletes, ← leftDeletes]
    exact mem_sharedLines_removed inMerge inLeft
  · intro number
    rw [← mergeDeletes, ← rightDeletes]
    exact mem_sharedLines_removed inMerge inRight

/-- The second line belongs to a method inside another one. -/
def nestedBase : List String := ["f", "g", "h"]

def outerMethod : Signature := ⟨"Shop", "sell", ["int"], by decide, by decide, by decide⟩

def nestedSpans : List MethodSpan :=
  [⟨outerMethod, 1, 3⟩, ⟨⟨"Shop", "price", ["int"], by decide, by decide, by decide⟩, 2, 2⟩]

/-- All three delete the last line; the left parent and the merge delete the one before it too. -/
def nestedLeft : WrittenScript nestedBase :=
  .whole [.keep "f", .delete "g", .delete "h"] (by decide) (by decide) (by decide)
    ⟨by decide, by decide⟩ (by decide)

def nestedRight : WrittenScript nestedBase :=
  .whole [.keep "f", .keep "g", .delete "h"] (by decide) (by decide) (by decide)
    ⟨by decide, by decide⟩ (by decide)

def nestedMerge : WrittenScript nestedBase :=
  .whole [.keep "f", .delete "g", .insert "-- i", .delete "h"] (by decide) (by decide) (by decide)
    ⟨by decide, by decide⟩ (by decide)

/-- What the diff of such a script is read as. -/
def nestedDiff (written : WrittenScript nestedBase) : FileDiff where
  oldPath := "x"
  newPath := "x"
  hunks := written.hunks

/-- The outer method as each of the three changed it. -/
def outerVersion : ChangedMethod := ⟨outerMethod, .ofList [.removed 3]⟩

theorem WrittenScript.deletions_attributed_nested :
    Diff.read nestedLeft.text = .ok [nestedDiff nestedLeft] ∧
    Diff.read nestedRight.text = .ok [nestedDiff nestedRight] ∧
    Diff.read nestedMerge.text = .ok [nestedDiff nestedMerge] ∧
    (methodsTouched nestedSpans [] (nestedDiff nestedLeft).changedLines).find? outerMethod =
      some outerVersion ∧
    (methodsTouched nestedSpans [] (nestedDiff nestedRight).changedLines).find? outerMethod =
      some outerVersion ∧
    (methodsTouched nestedSpans [] (nestedDiff nestedMerge).changedLines).find? outerMethod =
      some outerVersion ∧
    ∀ number,
      number ∈ (AttributedLines.ofVersions outerVersion outerVersion outerVersion).leftDeleted ↔
        Deletes nestedMerge.script number ∧ Deletes nestedLeft.script number ∧
          LiesIn nestedSpans number outerMethod := by
  have left : Diff.read nestedLeft.text = .ok [nestedDiff nestedLeft] := by decide +kernel
  have right : Diff.read nestedRight.text = .ok [nestedDiff nestedRight] := by decide +kernel
  have merge : Diff.read nestedMerge.text = .ok [nestedDiff nestedMerge] := by decide +kernel
  have inLeft : (methodsTouched nestedSpans [] (nestedDiff nestedLeft).changedLines).find?
      outerMethod = some outerVersion := by decide +kernel
  have inRight : (methodsTouched nestedSpans [] (nestedDiff nestedRight).changedLines).find?
      outerMethod = some outerVersion := by decide +kernel
  have inMerge : (methodsTouched nestedSpans [] (nestedDiff nestedMerge).changedLines).find?
      outerMethod = some outerVersion := by decide +kernel
  obtain ⟨leftDiff, rightDiff, mergeDiff, leftRead, rightRead, mergeRead, attributed⟩ :=
    nestedLeft.deletions_attributed nestedRight nestedMerge nestedSpans [] [] []
  rw [left, Except.ok.injEq, List.cons.injEq] at leftRead
  rw [right, Except.ok.injEq, List.cons.injEq] at rightRead
  rw [merge, Except.ok.injEq, List.cons.injEq] at mergeRead
  rw [← leftRead.1, ← rightRead.1, ← mergeRead.1] at attributed
  exact ⟨left, right, merge, inLeft, inRight, inMerge, (attributed _ _ _ _ inLeft inRight inMerge).1⟩

end MergeRisk
