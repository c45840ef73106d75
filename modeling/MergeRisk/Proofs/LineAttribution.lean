import MergeRisk.Proofs.Attribution

/-! What the attribution of a merged method's lines holds. One pass over the lines fills four sets;
each of them is filled by itself, so a number that occurs with both kinds is not taken from one set
into another. -/

namespace MergeRisk

namespace AttributedLines

/-! ### The pass -/

/-- What one line adds to the numbers of a kind that are traced to a parent. -/
def traced (parent : LineSet) (kind : LineKind) (numbers : NumberSet) (line : ChangedLine) :
    NumberSet :=
  if line ∈ parent ∧ line.kind = kind then numbers.insert line.number else numbers

/-- A line is noted in each of the four sets by itself. -/
theorem note_eq (left right : LineSet) (lines : AttributedLines) (line : ChangedLine) :
    note left right lines line =
      ⟨traced left .added lines.leftAdded line, traced left .removed lines.leftDeleted line,
        traced right .added lines.rightAdded line,
        traced right .removed lines.rightDeleted line⟩ := by
  obtain ⟨number, kind⟩ := line
  unfold note traced
  by_cases inLeft : ⟨number, kind⟩ ∈ left
  · by_cases inRight : ⟨number, kind⟩ ∈ right
    · cases kind <;> simp [inLeft, inRight, noteLeft, noteRight]
    · cases kind <;> simp [inLeft, inRight, noteLeft]
  · by_cases inRight : ⟨number, kind⟩ ∈ right
    · cases kind <;> simp [inLeft, inRight, noteRight]
    · simp [inLeft, inRight]

theorem foldl_note (left right : LineSet) (merged : List ChangedLine) (lines : AttributedLines) :
    merged.foldl (note left right) lines =
      ⟨merged.foldl (traced left .added) lines.leftAdded,
        merged.foldl (traced left .removed) lines.leftDeleted,
        merged.foldl (traced right .added) lines.rightAdded,
        merged.foldl (traced right .removed) lines.rightDeleted⟩ := by
  induction merged generalizing lines with
  | nil => rfl
  | cons line merged ih =>
    rw [List.foldl_cons, ih, note_eq]
    rfl

theorem mem_traced {parent : LineSet} {kind : LineKind} {numbers : NumberSet} {line : ChangedLine}
    {number : Nat} :
    number ∈ traced parent kind numbers line ↔
      number ∈ numbers ∨ line = ⟨number, kind⟩ ∧ ⟨number, kind⟩ ∈ parent := by
  obtain ⟨noted, ofKind⟩ := line
  rw [traced, ChangedLine.mk.injEq]
  split
  · rename_i traces
    obtain ⟨member, rfl⟩ := traces
    rw [SortedSet.mem_insert]
    constructor
    · rintro (old | rfl)
      · exact .inl old
      · exact .inr ⟨⟨rfl, rfl⟩, member⟩
    · rintro (old | ⟨⟨rfl, _⟩, _⟩)
      · exact .inl old
      · exact .inr rfl
  · rename_i traces
    constructor
    · exact .inl
    · rintro (old | ⟨⟨rfl, rfl⟩, member⟩)
      · exact old
      · exact absurd ⟨member, rfl⟩ traces

theorem mem_foldl_traced {parent : LineSet} {kind : LineKind} {merged : List ChangedLine}
    {numbers : NumberSet} {number : Nat} :
    number ∈ merged.foldl (traced parent kind) numbers ↔
      number ∈ numbers ∨ ⟨number, kind⟩ ∈ merged ∧ ⟨number, kind⟩ ∈ parent := by
  induction merged generalizing numbers with
  | nil => simp
  | cons line merged ih =>
    rw [List.foldl_cons, ih, mem_traced, List.mem_cons, or_assoc, or_and_right, eq_comm]

/-- The pass collects the lines that the merged method shares with a parent's version. -/
theorem foldl_traced (merged parent : ChangedMethod) (kind : LineKind) :
    merged.lines.toList.foldl (traced parent.lines kind) ∅ = sharedLines merged parent kind := by
  apply OrderedBy.ext_mem
  intro number
  rw [mem_foldl_traced, mem_sharedLines]
  constructor
  · rintro (none | shared)
    · cases none
    · exact shared
  · exact .inr

theorem inOnePass_eq (merged left right : ChangedMethod) :
    inOnePass merged left right = ofVersions merged left right := by
  rw [inOnePass, foldl_note, foldl_traced, foldl_traced, foldl_traced, foldl_traced, ofVersions]

/-! ### What is attributed -/

theorem mem_overlapping {lines : AttributedLines} {number : Nat} :
    number ∈ lines.overlapping ↔
      (number ∈ lines.leftAdded ∧ number ∈ lines.rightAdded) ∨
        (number ∈ lines.leftDeleted ∧ number ∈ lines.rightDeleted) := by
  rw [overlapping, SortedSet.mem_union, SortedSet.mem_inter, SortedSet.mem_inter]

theorem isEmpty_iff {lines : AttributedLines} :
    lines.isEmpty = true ↔ ∀ number, number ∉ lines.leftAdded ∧ number ∉ lines.leftDeleted ∧
      number ∉ lines.rightAdded ∧ number ∉ lines.rightDeleted := by
  simp only [isEmpty, Bool.and_eq_true, OrderedBy.isEmpty_iff, forall_and, and_assoc]

/-- Lines attributed to the parents just as the merged method shares them, number and kind. -/
structure Traces (lines : AttributedLines) (merged left right : LineSet) : Prop where
  leftAdded : ∀ number, number ∈ lines.leftAdded ↔ .added number ∈ merged ∧ .added number ∈ left
  leftDeleted : ∀ number,
    number ∈ lines.leftDeleted ↔ .removed number ∈ merged ∧ .removed number ∈ left
  rightAdded : ∀ number, number ∈ lines.rightAdded ↔ .added number ∈ merged ∧ .added number ∈ right
  rightDeleted : ∀ number,
    number ∈ lines.rightDeleted ↔ .removed number ∈ merged ∧ .removed number ∈ right
  overlapping : ∀ number, number ∈ lines.overlapping ↔
    ∃ kind, ⟨number, kind⟩ ∈ merged ∧ ⟨number, kind⟩ ∈ left ∧ ⟨number, kind⟩ ∈ right
  isEmpty : lines.isEmpty = true ↔ (∀ line ∈ merged, line ∉ left) ∧ ∀ line ∈ merged, line ∉ right

/-- The pass and the intersections give the same attribution, and it traces just the shared lines. -/
theorem traces_ofVersions (merged left right : ChangedMethod) :
    inOnePass merged left right = ofVersions merged left right ∧
    (ofVersions merged left right).Traces merged.lines left.lines right.lines := by
  refine ⟨inOnePass_eq merged left right, ?_⟩
  constructor
  case leftAdded => exact fun number => mem_sharedLines
  case leftDeleted => exact fun number => mem_sharedLines
  case rightAdded => exact fun number => mem_sharedLines
  case rightDeleted => exact fun number => mem_sharedLines
  case overlapping =>
    intro number
    simp only [mem_overlapping, ofVersions, mem_sharedLines]
    constructor
    · rintro (⟨⟨inMerged, inLeft⟩, _, inRight⟩ | ⟨⟨inMerged, inLeft⟩, _, inRight⟩)
      · exact ⟨.added, inMerged, inLeft, inRight⟩
      · exact ⟨.removed, inMerged, inLeft, inRight⟩
    · rintro ⟨kind, inMerged, inLeft, inRight⟩
      cases kind with
      | added => exact .inl ⟨⟨inMerged, inLeft⟩, inMerged, inRight⟩
      | removed => exact .inr ⟨⟨inMerged, inLeft⟩, inMerged, inRight⟩
  case isEmpty =>
    simp only [isEmpty_iff, ofVersions, mem_sharedLines, not_and]
    constructor
    · intro none
      constructor
      · rintro ⟨number, kind⟩ inMerged
        cases kind with
        | added => exact (none number).1 inMerged
        | removed => exact (none number).2.1 inMerged
      · rintro ⟨number, kind⟩ inMerged
        cases kind with
        | added => exact (none number).2.2.1 inMerged
        | removed => exact (none number).2.2.2 inMerged
    · rintro ⟨noneLeft, noneRight⟩ number
      exact ⟨noneLeft _, noneLeft _, noneRight _, noneRight _⟩

end AttributedLines

end MergeRisk
