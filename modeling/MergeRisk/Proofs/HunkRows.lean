import MergeRisk.Proofs.HunkNumbers
import MergeRisk.Proofs.MissingSides

/-! The hunks that are read from any text, whole or broken off. A hunk takes rows until both declared
counts are met and no longer, whether it ends there, at a header, at the next file or with the text.
Its own text can be split into these rows again, and its changed lines are numbered by them. -/

namespace MergeRisk

/-! ### Rows that fill a hunk -/

namespace Diff

/-- The row that a line makes: itself, or the blank that an empty line lacks. -/
def rowText (line : List Char) : List Char :=
  if line = [] then [' '] else line

theorem render_of_rowOf? {line : List Char} {row : Row} (read : rowOf? line = some row) :
    row.render.toList = rowText line := by
  cases line with
  | nil =>
    cases read
    rfl
  | cons c text =>
    rw [rowOf?, Option.ite_none_right_eq_some, Option.some.injEq] at read
    obtain ⟨isMark, rfl⟩ := read
    rw [rowText, if_neg (List.cons_ne_nil c text), Row.toList_render]
    simp only [Bool.or_eq_true, decide_eq_true_eq] at isMark
    rcases isMark with (rfl | rfl) | rfl <;> simp [Row.ofLine, RowKind.mark]

theorem rows_of_readHeader {line : List Char} {hunk : Hunk} (read : readHeader line = .ok hunk) :
    hunk.rows = [] := by
  unfold readHeader at read
  dsimp only at read
  repeat' split at read
  all_goals cases read
  rfl

end Diff

namespace Hunk

/-- The rows of a hunk as lines of its text. -/
def texts (hunk : Hunk) : List (List Char) :=
  hunk.rows.map (·.render.toList)

/-- A hunk after one more line, which may be no row. -/
def withLine (hunk : Hunk) (line : List Char) : Hunk :=
  { hunk with rows := hunk.rows ++ (Diff.rowOf? line).toList }

/-- A hunk of rows among the given lines that fill it at the last of them or not at all. -/
structure Ended (lines : List (List Char)) (hunk : Hunk) : Prop where
  among : hunk.texts.Sublist (lines.map Diff.rowText)
  short : ∀ above, above <+: hunk.rows → above ≠ [] → above ≠ hunk.rows →
    ({ hunk with rows := above } : Hunk).isFilled = false

/-- A hunk that may take further rows. -/
structure Unfilled (lines : List (List Char)) (hunk : Hunk) : Prop extends hunk.Ended lines where
  unfilled : hunk.rows ≠ [] → hunk.isFilled = false

variable {hunk : Hunk} {lines more : List (List Char)} {line : List Char}

theorem Ended.mono (ended : hunk.Ended lines) (inside : lines.Sublist more) : hunk.Ended more :=
  ⟨ended.among.trans (inside.map Diff.rowText), ended.short⟩

theorem Unfilled.mono (hunkUnfilled : hunk.Unfilled lines) (inside : lines.Sublist more) :
    hunk.Unfilled more :=
  ⟨hunkUnfilled.toEnded.mono inside, hunkUnfilled.unfilled⟩

theorem Unfilled.ofHeader (read : Diff.readHeader line = .ok hunk) : hunk.Unfilled lines := by
  have empty := Diff.rows_of_readHeader read
  refine ⟨⟨?_, ?_⟩, ?_⟩
  · rw [texts, empty]
    exact List.nil_sublist _
  · intro above begins nonempty
    rw [empty, List.prefix_nil] at begins
    exact absurd begins nonempty
  · exact fun nonempty => absurd empty nonempty

/-- One more line comes to no filled hunk, so at most its own row fills the hunk. -/
theorem Unfilled.withLine (hunkUnfilled : hunk.Unfilled lines) (line : List Char) :
    (hunk.withLine line).Ended (lines ++ [line]) := by
  cases read : Diff.rowOf? line with
  | none =>
    have same : hunk.withLine line = hunk := by
      rw [Hunk.withLine, read, Option.toList_none, List.append_nil]
    rw [same]
    exact hunkUnfilled.toEnded.mono (List.sublist_append_left lines [line])
  | some row =>
    have rows : (hunk.withLine line).rows = hunk.rows ++ [row] := by
      rw [Hunk.withLine, read, Option.toList_some]
    constructor
    · rw [texts, rows, List.map_append, List.map_append, List.map_singleton, List.map_singleton,
        Diff.render_of_rowOf? read]
      exact hunkUnfilled.among.append (List.Sublist.refl _)
    · rw [rows]
      intro above begins nonempty proper
      rcases List.prefix_concat_iff.mp begins with whole | earlier
      · exact absurd whole proper
      · by_cases all : above = hunk.rows
        · subst all
          exact hunkUnfilled.unfilled nonempty
        · exact hunkUnfilled.short above earlier nonempty all

end Hunk

/-! ### What a line does to the hunks -/

namespace Diff

/-- The hunks of what was read: those that have ended, and the one that takes rows. -/
structure HunkState where
  ended : List Hunk
  current? : Option Hunk

def Place.hunks : Place → HunkState
  | outside => ⟨[], none⟩
  | inFile file => ⟨file.hunks, none⟩
  | inHunk file hunk => ⟨file.hunks, some hunk⟩

def Scan.hunks (scan : Scan) : HunkState :=
  ⟨scan.files.flatMap FileDiff.hunks ++ scan.place.hunks.ended, scan.place.hunks.current?⟩

/-- What a line may do to the hunks. A title may lose those of a binary file. -/
inductive HunkStep (line : List Char) : (before after : HunkState) → Prop where
  | keep (state : HunkState) : HunkStep line state state
  | leave {before : HunkState} {ended : List Hunk}
      (among : ended ⊆ before.ended ++ before.current?.toList) : HunkStep line before ⟨ended, none⟩
  | enter {before : HunkState} {hunk : Hunk} (header : readHeader line = .ok hunk) :
      HunkStep line before ⟨before.ended ++ before.current?.toList, some hunk⟩
  | grow {ended : List Hunk} {hunk : Hunk} (unfilled : (hunk.withLine line).isFilled = false) :
      HunkStep line ⟨ended, some hunk⟩ ⟨ended, some (hunk.withLine line)⟩
  | fill {ended : List Hunk} {hunk : Hunk} (filled : (hunk.withLine line).isFilled = true) :
      HunkStep line ⟨ended, some hunk⟩ ⟨ended ++ [hunk.withLine line], none⟩

theorem Place.flatMap_file? (place : Place) :
    place.file?.toList.flatMap FileDiff.hunks = place.hunks.ended ++ place.hunks.current?.toList := by
  cases place with
  | outside => rfl
  | inFile file => simp [file?, hunks]
  | inHunk file hunk => simp [file?, hunks]

theorem Scan.hunks_openFile (scan : Scan) : scan.openFile.hunks = scan.hunks := by
  unfold openFile
  cases place : scan.place with
  | outside => simp [Scan.hunks, place, Place.hunks]
  | inFile file =>
    dsimp only
    split
    · rfl
    · simp [Scan.hunks, place, Place.hunks]
  | inHunk file hunk => rfl

theorem Scan.finished_hunks (scan : Scan) : scan.finished.flatMap FileDiff.hunks ⊆
    scan.hunks.ended ++ scan.hunks.current?.toList := by
  have all : (scan.files ++ scan.place.file?.toList).flatMap FileDiff.hunks =
      scan.hunks.ended ++ scan.hunks.current?.toList := by
    rw [List.flatMap_append, Place.flatMap_file?, ← List.append_assoc]
    rfl
  rw [← all, finished]
  split
  · rw [List.flatMap_append]
    exact List.subset_append_left _ _
  · exact List.Subset.refl _

theorem hunks_of_headerLine? {file next : FileDiff} {line : List Char}
    (read : headerLine? file line = some next) : next.hunks = file.hunks := by
  have made := headerLine?_getD file line
  rw [read, Option.getD_some] at made
  rw [made]

/-- A row goes to the open hunk, which ends as soon as it is filled. -/
theorem hunkStep_fillHunk (files : List FileDiff) (file : FileDiff) (hunk : Hunk) (binary : Bool)
    (line : List Char) : HunkStep line (Scan.hunks ⟨files, .inHunk file hunk, binary⟩)
      (Scan.hunks ⟨files, fillHunk file hunk line, binary⟩) := by
  have fills : fillHunk file hunk line = if (hunk.withLine line).isFilled then
      .inFile { file with hunks := file.hunks ++ [hunk.withLine line] }
    else .inHunk file (hunk.withLine line) := rfl
  cases filled : (hunk.withLine line).isFilled with
  | false =>
    rw [fills, filled]
    exact .grow filled
  | true =>
    have ended : Scan.hunks ⟨files, fillHunk file hunk line, binary⟩ =
        ⟨files.flatMap FileDiff.hunks ++ file.hunks ++ [hunk.withLine line], none⟩ := by
      rw [fills, filled, List.append_assoc]
      rfl
    rw [ended]
    exact .fill filled

section
variable {scan next : Scan} {line : List Char}

theorem Scan.bodyLine_hunks (read : scan.bodyLine line = .ok next) :
    HunkStep line scan.hunks next.hunks := by
  unfold bodyLine at read
  split at read
  · cases isOpen : scan.place.file? with
    | none =>
      simp only [isOpen] at read
      cases read
      exact .keep _
    | some file =>
      simp only [isOpen] at read
      cases header : readHeader line with
      | error fault =>
        rw [header] at read
        cases read
      | ok hunk =>
        rw [header] at read
        cases read
        -- The header ends the hunk before it, which is then the last of its file.
        have ended := scan.place.flatMap_file?
        rw [isOpen, Option.toList_some, List.flatMap_singleton] at ended
        have state : Scan.hunks { scan with place := .inHunk file hunk } =
            ⟨scan.hunks.ended ++ scan.hunks.current?.toList, some hunk⟩ := by
          simp only [hunks, Place.hunks, ended, List.append_assoc]
        exact state ▸ .enter header
  · split at read
    · cases read
      exact .keep _
    · obtain ⟨files, place, binary⟩ := scan
      cases place with
      | outside =>
        cases read
        exact .keep _
      | inFile file =>
        cases read
        exact .keep _
      | inHunk file hunk =>
        cases read
        exact hunkStep_fillHunk files file hunk binary line

theorem Scan.fileLine_hunks (read : scan.fileLine line = .ok next) :
    HunkStep line scan.hunks next.hunks := by
  unfold fileLine at read
  obtain ⟨files, place, binary⟩ := scan
  cases place with
  | outside =>
    cases read
    exact .keep _
  | inFile file =>
    dsimp only at read
    split at read
    · cases read
      exact .keep _
    · cases header : headerLine? file line with
      | some changed =>
        rw [header] at read
        cases read
        have same : Scan.hunks ⟨files, .inFile changed, binary⟩ =
            Scan.hunks ⟨files, .inFile file, binary⟩ := by
          simp only [hunks, Place.hunks, hunks_of_headerLine? header]
        rw [same]
        exact .keep _
      | none =>
        rw [header] at read
        exact bodyLine_hunks read
  | inHunk file hunk =>
    dsimp only at read
    split at read
    · cases read
      exact .keep _
    · exact bodyLine_hunks read

theorem Scan.step_hunks (read : scan.step line = .ok next) :
    HunkStep line scan.hunks next.hunks := by
  unfold step at read
  split at read
  · cases read
    apply HunkStep.leave
    simpa only [Place.hunks, List.append_nil] using scan.finished_hunks
  · split at read
    · rw [← scan.hunks_openFile]
      exact fileLine_hunks read
    · exact fileLine_hunks read

end

/-! ### Every hunk that is read -/

/-- The hunks that were read from the given lines. -/
structure HunkState.Sound (lines : List (List Char)) (state : HunkState) : Prop where
  ended : ∀ hunk ∈ state.ended, hunk.Ended lines
  current : ∀ hunk ∈ state.current?, hunk.Unfilled lines

namespace HunkState.Sound
variable {lines : List (List Char)} {state after : HunkState} {line : List Char}

/-- Also the hunk that takes rows may end here. -/
theorem all (sound : state.Sound lines) :
    ∀ hunk ∈ state.ended ++ state.current?.toList, hunk.Ended lines := by
  intro hunk member
  rcases List.mem_append.mp member with ended | isCurrent
  · exact sound.ended hunk ended
  · exact (sound.current hunk (Option.mem_toList.mp isCurrent)).toEnded

theorem step (sound : state.Sound lines) (step : HunkStep line state after) :
    after.Sound (lines ++ [line]) := by
  have inside : lines.Sublist (lines ++ [line]) := List.sublist_append_left lines [line]
  have ended (hunk : Hunk) (member : hunk ∈ state.ended ++ state.current?.toList) :
      hunk.Ended (lines ++ [line]) := (sound.all hunk member).mono inside
  cases step with
  | keep =>
    constructor
    · exact fun hunk member => ended hunk (List.mem_append_left _ member)
    · exact fun hunk isCurrent => (sound.current hunk isCurrent).mono inside
  | leave among =>
    constructor
    · exact fun hunk member => ended hunk (among member)
    · intro hunk isCurrent
      cases isCurrent
  | enter header =>
    refine ⟨ended, ?_⟩
    intro hunk isCurrent
    cases isCurrent
    exact .ofHeader header
  | grow unfilled =>
    constructor
    · exact fun hunk member => ended hunk (List.mem_append_left _ member)
    · intro hunk isCurrent
      cases isCurrent
      exact ⟨(sound.current _ rfl).withLine line, fun _ => unfilled⟩
  | fill filled =>
    constructor
    · intro hunk member
      rcases List.mem_append.mp member with earlier | last
      · exact ended hunk (List.mem_append_left _ earlier)
      · cases List.mem_singleton.mp last
        exact (sound.current _ rfl).withLine line
    · intro hunk isCurrent
      cases isCurrent

theorem run {scan next : Scan} {rest : List (List Char)} (sound : scan.hunks.Sound lines)
    (ran : scan.run rest = .ok next) : next.hunks.Sound (lines ++ rest) := by
  induction rest generalizing lines scan with
  | nil =>
    cases ran
    rwa [List.append_nil]
  | cons line rest ih =>
    cases read : scan.step line with
    | error fault =>
      rw [Scan.run, List.foldlM_cons, read] at ran
      cases ran
    | ok middle =>
      rw [Scan.run_cons read] at ran
      rw [List.append_cons]
      exact ih (sound.step (Scan.step_hunks read)) ran

end HunkState.Sound

theorem ended_of_read {source : String} {files : List FileDiff} (accepted : read source = .ok files)
    {file : FileDiff} (inDiff : file ∈ files) {hunk : Hunk} (inFile : hunk ∈ file.hunks) :
    hunk.Ended (Text.lines source.toList) := by
  obtain ⟨scan, ran, rfl⟩ := exists_run_of_read accepted
  have start : (Scan.hunks {}).Sound [] := by
    refine ⟨List.forall_mem_nil _, ?_⟩
    intro hunk isCurrent
    cases isCurrent
  have sound := start.run ran
  exact sound.all hunk (scan.finished_hunks (List.mem_flatMap.mpr ⟨file, inDiff, inFile⟩))

end Diff

/-! ### The text of a hunk -/

namespace Hunk

/-- The line at which each side starts. -/
def start (hunk : Hunk) : LineKind → Nat :=
  onSides hunk.oldStart hunk.newStart

/-- How many lines the header declares for each side. -/
def declared (hunk : Hunk) : LineKind → Nat :=
  onSides hunk.oldCount hunk.newCount

/-- The text of a hunk is made of rows, each with a mark and ended by a line feed. -/
structure ConsistsOf (hunk : Hunk) (rows : List (List Char)) : Prop where
  content : hunk.content.toList = Text.terminated rows
  noFeed : ∀ row ∈ rows, '\n' ∉ row
  marked : ∀ row ∈ rows, ∃ mark ∈ ['+', '-', ' '], row.head? = some mark

theorem isFilled_iff_declared (hunk : Hunk) :
    hunk.isFilled = true ↔ ∀ kind, hunk.declared kind ≤ rowsOn kind hunk.texts := by
  rw [LineKind.forall_iff, texts, rowsOn_map_render, rowsOn_map_render, isFilled, Bool.and_eq_true,
    decide_eq_true_eq, decide_eq_true_eq, and_comm]
  rfl

theorem toList_content (hunk : Hunk) : hunk.content.toList = Text.terminated hunk.texts := by
  rw [content, String.toList_join, List.flatMap_map, texts, Text.terminated, List.flatMap_map]
  simp only [String.toList_append]
  rfl

theorem changedLines_eq_changesShown (hunk : Hunk) :
    hunk.changedLines = changesShown hunk.start hunk.texts :=
  changedLinesFrom_eq_changesShown hunk.oldStart hunk.newStart hunk.rows

variable {source : List Char} {hunk : Hunk}

theorem Ended.consistsOf (ended : hunk.Ended (Text.lines source)) : hunk.ConsistsOf hunk.texts where
  content := hunk.toList_content
  noFeed := by
    intro text member
    obtain ⟨line, inSource, rfl⟩ := List.mem_map.mp (ended.among.subset member)
    rw [Diff.rowText]
    split
    · decide
    · exact Text.not_mem_of_mem_lines inSource
  marked := by
    refine List.forall_mem_map.mpr ?_
    intro row _
    refine ⟨row.kind.mark, ?_, ?_⟩
    · cases row.kind <;> decide
    · rw [row.toList_render, List.head?_cons]

/-- No row but the last brings a hunk that has ended to both declared counts. -/
theorem Ended.short_text {lines : List (List Char)} (ended : hunk.Ended lines)
    {above : List (List Char)} (begins : above <+: hunk.texts) (nonempty : above ≠ [])
    (proper : above ≠ hunk.texts) : ¬ ∀ kind, hunk.declared kind ≤ rowsOn kind above := by
  obtain ⟨rows, rowsBegin, rfl⟩ := List.prefix_map_iff.mp begins
  have unfilled : ({ hunk with rows := rows } : Hunk).isFilled = false := by
    apply ended.short rows rowsBegin
    · rintro rfl
      exact nonempty rfl
    · rintro rfl
      exact proper rfl
  intro met
  have filled := (isFilled_iff_declared { hunk with rows := rows }).mpr met
  rw [unfilled] at filled
  cases filled

/-- Split again, the text of a hunk has the rows of the hunk, some without a carriage return. -/
theorem ConsistsOf.ofContent (consists : hunk.ConsistsOf hunk.texts) :
    Row.ofContent hunk.content = hunk.rows.map Row.dropReturn := by
  have ofLine (row : Row) : Row.ofLine (Text.dropReturn row.render.toList) = row.dropReturn := by
    rw [Row.dropReturn_render, Row.toList_render]
    cases kind : row.dropReturn.kind <;> simp [RowKind.mark, Row.ofLine, ← kind]
  rw [Row.ofContent, consists.content, Text.lines_terminated consists.noFeed, texts, List.map_map,
    List.map_map]
  exact List.map_congr_left fun row _ => ofLine row

theorem ConsistsOf.numberText?_eq_some_iff (consists : hunk.ConsistsOf hunk.texts)
    {changes : List ChangedLine} :
    numberText? hunk.oldStart hunk.newStart hunk.content = some changes ↔
      InRange hunk.start hunk.texts ∧ changes = changesShown hunk.start hunk.texts := by
  have sameKind (row : Row) : row.dropReturn.kind = row.kind := rfl
  rw [numberText?, consists.ofContent, numbered?_map sameKind, numbered?_eq_some_iff, start, texts]

end Hunk

namespace Diff

/-- Whatever text a hunk is read from, its own text is made of marked rows, which are lines of that
text in their order, and of which those above the last do not meet both declared counts. Each row with
the mark of a change gives one changed line, whose number is that of the first line of its side and one
more for each row of the side above it, so the numbers of each kind increase. Counting in the text
of the hunk again, with counters of 32 bits, gives the same lines exactly where the numbers are in
range. -/
theorem read_hunkRows {source : String} {files : List FileDiff} (accepted : read source = .ok files)
    {file : FileDiff} (inDiff : file ∈ files) {hunk : Hunk} (inFile : hunk ∈ file.hunks) :
    ∃ rows, hunk.ConsistsOf rows ∧ rows.Sublist ((Text.lines source.toList).map rowText) ∧
      (∀ above, above <+: rows → above ≠ [] → above ≠ rows →
        ¬ ∀ kind, hunk.declared kind ≤ rowsOn kind above) ∧
      hunk.changedLines = changesShown hunk.start rows ∧
      (∀ kind, ((hunk.changedLines.filter (·.kind = kind)).map (·.number)).Pairwise (· < ·)) ∧
      ∀ changes, Hunk.numberText? hunk.oldStart hunk.newStart hunk.content = some changes ↔
        InRange hunk.start rows ∧ changes = changesShown hunk.start rows := by
  have ended := ended_of_read accepted inDiff inFile
  have consists := ended.consistsOf
  refine ⟨hunk.texts, consists, ended.among, ?_, hunk.changedLines_eq_changesShown, ?_, ?_⟩
  · intro above begins nonempty proper
    exact ended.short_text begins nonempty proper
  · intro kind
    rw [hunk.changedLines_eq_changesShown]
    exact pairwise_changesShown hunk.start hunk.texts kind
  · intro changes
    exact consists.numberText?_eq_some_iff

/-- A hunk that breaks off at the next header, with an empty line, a line of no mark and a carriage
return in its text, and a hunk that is filled before the last line. -/
def tornDiff : String :=
  "--- a/x\n+++ b/x\n@@ -3,4 +5,4 @@\n a\n\n+b\r\r\nnone\n-c\n@@ -9 +9 @@\n+d\n-e\n+f\n"

def tornHunk : Hunk :=
  ⟨3, 4, 5, 4, [⟨.kept, "a"⟩, ⟨.kept, ""⟩, ⟨.added, "b\r"⟩, ⟨.removed, "c"⟩]⟩

def tornFile : FileDiff :=
  ⟨"x", "x", [tornHunk, ⟨9, 1, 9, 1, [⟨.added, "d"⟩, ⟨.removed, "e"⟩]⟩], false, false, false⟩

theorem read_hunkRows_torn :
    read tornDiff = .ok [tornFile] ∧ tornFile ∈ [tornFile] ∧ tornHunk ∈ tornFile.hunks ∧
    ∃ rows, tornHunk.ConsistsOf rows ∧ InRange tornHunk.start rows ∧
      changesShown tornHunk.start rows = [.added 7, .removed 5] := by
  have accepted : read tornDiff = .ok [tornFile] := by decide +kernel
  have inDiff : tornFile ∈ [tornFile] := List.mem_singleton_self tornFile
  have inFile : tornHunk ∈ tornFile.hunks := List.mem_cons_self
  have numbered : Hunk.numberText? 3 5 tornHunk.content = some [.added 7, .removed 5] := by
    decide +kernel
  obtain ⟨rows, consists, _, _, _, _, counted⟩ := read_hunkRows accepted inDiff inFile
  obtain ⟨inRange, shown⟩ := (counted _).mp numbered
  exact ⟨accepted, inDiff, inFile, rows, consists, inRange, shown.symm⟩

end Diff

end MergeRisk
