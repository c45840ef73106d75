import MergeRisk.Diff.Reader
import MergeRisk.Diff.Script

/-! Hunk headers and the numbers they spell. A header that spells numbers of 32 bits, with lines
counted from 1, is read as these numbers. -/

namespace MergeRisk.Text

/-- Digits that spell a number. -/
structure Spells (text : List Char) (value : Nat) : Prop where
  nonempty : text ≠ []
  digits : ∀ c ∈ text, c.isDigit = true
  spelled : Nat.ofDigitChars 10 text 0 = value

theorem Spells.toString (value : Nat) : Spells (toString value).toList value where
  nonempty := by simp [Nat.toDigits_ne_nil]
  digits c member := by
    apply Nat.isDigit_of_mem_toDigits (b := 10) (n := value) (by decide) (by decide)
    simpa using member
  spelled := by simp

theorem Spells.not_mem {text : List Char} {value : Nat} (spells : Spells text value) {c : Char}
    (noDigit : c.isDigit = false) : c ∉ text := by
  intro member
  have digit := spells.digits c member
  rw [noDigit] at digit
  cases digit

theorem digit?_of_isDigit {c : Char} (digit : c.isDigit = true) :
    digit? c = some (c.toNat - '0'.toNat) := by
  have bounds := Char.isDigit_iff_toNat.mp digit
  exact if_pos bounds

theorem digitsFrom?_eq {text : List Char} (digits : ∀ c ∈ text, c.isDigit = true) (value : Nat) :
    digitsFrom? value text = some (Nat.ofDigitChars 10 text value) := by
  induction text generalizing value with
  | nil => simp [digitsFrom?]
  | cons c text ih =>
    have first := digit?_of_isDigit (digits c List.mem_cons_self)
    have rest := ih fun d member => digits d (List.mem_cons_of_mem c member)
    rw [digitsFrom?, first, Option.bind_some, rest, Nat.ofDigitChars_cons]

theorem Spells.digits? {text : List Char} {value : Nat} (spells : Spells text value) :
    Text.digits? text = some value := by
  rw [Text.digits?, if_neg (by simpa using spells.nonempty), digitsFrom?_eq spells.digits,
    spells.spelled]

/-- A spelled number up to the limit is read. -/
theorem Spells.natural? {text : List Char} {value limit : Nat} (spells : Spells text value)
    (bound : value ≤ limit) : Text.natural? limit text = some value := by
  have unsigned : stripStart? ['+'] text = none := by
    cases text with
    | nil => rfl
    | cons c rest =>
      have different : '+' ≠ c := by
        rintro rfl
        exact spells.not_mem (by decide) List.mem_cons_self
      simp [stripStart?, different]
  simp [Text.natural?, unsigned, spells.digits?, bound]

theorem startsWith_iff {mark text : List Char} :
    startsWith mark text = true ↔ ∃ rest, text = mark ++ rest := by
  simp only [startsWith, Option.isSome_iff_exists, stripStart?_eq_some_iff]

theorem splitFirst?_append {separator : Char} {before : List Char} (absent : separator ∉ before)
    (rest : List Char) :
    splitFirst? separator (before ++ separator :: rest) = some (before, rest) := by
  induction before with
  | nil => simp [splitFirst?]
  | cons c before ih =>
    have different : c ≠ separator := by
      rintro rfl
      exact absent List.mem_cons_self
    have later := ih fun member => absent (List.mem_cons_of_mem c member)
    simp [splitFirst?, different, later]

theorem splitFirst?_eq_none {separator : Char} {text : List Char} (absent : separator ∉ text) :
    splitFirst? separator text = none := by
  induction text with
  | nil => rfl
  | cons c text ih =>
    have different : c ≠ separator := by
      rintro rfl
      exact absent List.mem_cons_self
    have later := ih fun member => absent (List.mem_cons_of_mem c member)
    simp [splitFirst?, different, later]

/-- A mark of a blank and two signs is found where the first sign is. -/
theorem cut?_append {before : List Char} (absent : '@' ∉ before) (rest : List Char) :
    cut? [' ', '@', '@'] (before ++ ' ' :: '@' :: '@' :: rest) = some (before, rest) := by
  induction before with
  | nil => simp [cut?, stripStart?]
  | cons c before ih =>
    have later := ih fun member => absent (List.mem_cons_of_mem c member)
    have noMark :
        stripStart? [' ', '@', '@'] (c :: (before ++ ' ' :: '@' :: '@' :: rest)) = none := by
      cases before with
      | nil => simp [stripStart?]
      | cons d before =>
        have different : '@' ≠ d := by
          rintro rfl
          exact absent (by simp)
        simp [stripStart?, different]
    rw [List.cons_append, cut?, noMark, later]
    rfl

end MergeRisk.Text

namespace MergeRisk.Diff

open Text (Spells)

/-- A side of a header, with its count or without one that is 1. -/
inductive SpellsRange : List Char → Nat → Nat → Prop where
  | counted {startText countText : List Char} {start count : Nat}
      (spellsStart : Spells startText start) (spellsCount : Spells countText count) :
      SpellsRange (startText ++ ',' :: countText) start count
  | single {startText : List Char} {start : Nat} (spellsStart : Spells startText start) :
      SpellsRange startText start 1

/-- A header `@@ -old +new @@` that spells the numbers of a hunk, whatever follows it. -/
inductive SpellsHeader : List Char → Hunk → Prop where
  | header {old new : List Char} {hunk : Hunk}
      (spellsOld : SpellsRange old hunk.oldStart hunk.oldCount)
      (spellsNew : SpellsRange new hunk.newStart hunk.newCount) (heading : List Char) :
      SpellsHeader ("@@ -".toList ++ old ++ " +".toList ++ new ++ " @@".toList ++ heading) hunk

/-- Numbers that a header may have: of 32 bits, and a side with lines starts at line 1 or later. -/
structure Numbered (hunk : Hunk) : Prop where
  oldStart_le : hunk.oldStart ≤ Text.limit32
  oldCount_le : hunk.oldCount ≤ Text.limit32
  newStart_le : hunk.newStart ≤ Text.limit32
  newCount_le : hunk.newCount ≤ Text.limit32
  oldStart_pos : 0 < hunk.oldCount → 0 < hunk.oldStart
  newStart_pos : 0 < hunk.newCount → 0 < hunk.newStart

namespace SpellsRange
variable {text : List Char} {start count : Nat}

/-- A side consists of digits and commas. -/
theorem not_mem (spells : SpellsRange text start count) {c : Char} (noDigit : c.isDigit = false)
    (noComma : c ≠ ',') : c ∉ text := by
  cases spells with
  | counted spellsStart spellsCount =>
    intro member
    rcases List.mem_append.mp member with inStart | later
    · exact spellsStart.not_mem noDigit inStart
    · rcases List.mem_cons.mp later with comma | inCount
      · exact noComma comma
      · exact spellsCount.not_mem noDigit inCount
  | single spellsStart => exact spellsStart.not_mem noDigit

theorem readRange? (spells : SpellsRange text start count) (startBound : start ≤ Text.limit32)
    (countBound : count ≤ Text.limit32) : Diff.readRange? text = some (start, count) := by
  cases spells with
  | counted spellsStart spellsCount =>
    rw [Diff.readRange?, Text.splitFirst?_append (spellsStart.not_mem (by decide))]
    simp [spellsStart.natural? startBound, spellsCount.natural? countBound]
  | single spellsStart =>
    rw [Diff.readRange?, Text.splitFirst?_eq_none (spellsStart.not_mem (by decide))]
    simp [spellsStart.natural? startBound]

theorem rangeText (start count : Nat) : SpellsRange (rangeText start count).toList start count := by
  unfold MergeRisk.rangeText
  split
  · rename_i one
    subst one
    exact .single (.toString start)
  · have spells := SpellsRange.counted (.toString start) (.toString count)
    simpa using spells

end SpellsRange

/-- The header that the library writes spells the numbers of its hunk, with or without a heading. -/
theorem SpellsHeader.headerText (hunk : Hunk) (heading : List Char) :
    SpellsHeader (hunk.headerText.toList ++ heading) hunk := by
  have spells := SpellsHeader.header (.rangeText hunk.oldStart hunk.oldCount)
    (.rangeText hunk.newStart hunk.newCount) heading
  simpa [Hunk.headerText] using spells

/-- A header says nothing about the texts of rows. -/
theorem SpellsHeader.withRows {line : List Char} {hunk : Hunk} (spells : SpellsHeader line hunk)
    (rows : List Row) : SpellsHeader line { hunk with rows := rows } := by
  cases spells with
  | header spellsOld spellsNew heading =>
    refine .header ?_ ?_ heading
    · exact spellsOld
    · exact spellsNew

theorem Numbered.withRows {hunk : Hunk} (numbered : Numbered hunk) (rows : List Row) :
    Numbered { hunk with rows := rows } :=
  { numbered with }

/-- A header that spells admissible numbers is read as these numbers. -/
theorem SpellsHeader.readHeader {line : List Char} {hunk : Hunk} (spells : SpellsHeader line hunk)
    (numbered : Numbered hunk) : Diff.readHeader line = .ok { hunk with rows := [] } := by
  cases spells with
  | @header old new _ spellsOld spellsNew heading =>
    have noSign : '@' ∉ '-' :: old ++ ' ' :: '+' :: new := by
      simp [spellsOld.not_mem, spellsNew.not_mem]
    have noBlank : ' ' ∉ '-' :: old := by
      simp [spellsOld.not_mem]
    have noLaterBlank : ' ' ∉ '+' :: new := by
      simp [spellsNew.not_mem]
    have line : "@@ -".toList ++ old ++ " +".toList ++ new ++ " @@".toList ++ heading =
        "@@ ".toList ++ ('-' :: old ++ ' ' :: '+' :: new ++ ' ' :: '@' :: '@' :: heading) := by
      simp
    have ranges : (Text.stripStart? "@@ ".toList
          ("@@ -".toList ++ old ++ " +".toList ++ new ++ " @@".toList ++ heading)).bind
        (Text.cut? " @@".toList) = some ('-' :: old ++ ' ' :: '+' :: new, heading) := by
      rw [line, Text.stripStart?_append]
      exact Text.cut?_append noSign heading
    have sides : ('-' :: old ++ ' ' :: '+' :: new).splitOn ' ' = ['-' :: old, '+' :: new] := by
      rw [List.splitOn_append_cons_self_of_not_mem noBlank, List.splitOn_eq_singleton noLaterBlank]
    have started : ¬ ((hunk.oldStart = 0 ∧ 0 < hunk.oldCount) ∨
        (hunk.newStart = 0 ∧ 0 < hunk.newCount)) := by
      have oldStart := numbered.oldStart_pos
      have newStart := numbered.newStart_pos
      omega
    rw [Diff.readHeader, ranges]
    simp only [sides, Text.stripStart?, if_true,
      spellsOld.readRange? numbered.oldStart_le numbered.oldCount_le,
      spellsNew.readRange? numbered.newStart_le numbered.newCount_le, if_neg started]

end MergeRisk.Diff
