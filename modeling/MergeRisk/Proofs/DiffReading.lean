import Mathlib.Data.List.Basic
import MergeRisk.Proofs.WrittenDiff

/-! Reading a written diff gives back what it says. Inside a hunk every line is a row or a note until
the declared counts are met, which is at its last row and not before. -/

namespace MergeRisk.Diff

/-! ### Runs of lines -/

/-- Read lines from a scan on. -/
def Scan.run (scan : Scan) (lines : List (List Char)) : Except Fault Scan :=
  lines.foldlM Scan.step scan

theorem Scan.run_nil (scan : Scan) : scan.run [] = .ok scan := rfl

theorem Scan.run_cons {scan next : Scan} {line : List Char} (step : scan.step line = .ok next)
    (rest : List (List Char)) : scan.run (line :: rest) = next.run rest := by
  rw [run, List.foldlM_cons, step]
  rfl

theorem Scan.run_append {scan next : Scan} {first : List (List Char)}
    (ran : scan.run first = .ok next) (second : List (List Char)) :
    scan.run (first ++ second) = next.run second := by
  rw [run, List.foldlM_append]
  rw [run] at ran
  rw [ran]
  rfl

theorem ofLines_eq {lines : List (List Char)} {scan : Scan}
    (ran : Scan.run {} lines = .ok scan) : ofLines lines = .ok scan.finished := by
  rw [Scan.run] at ran
  rw [ofLines, ran]
  rfl

/-- Lines that were written are read as they are. -/
theorem read_terminated {lines : List (List Char)} (isLine : ∀ line ∈ lines, Text.IsLine line) :
    read (String.ofList (Text.terminated lines)) = ofLines lines := by
  rw [read, String.toList_ofList, Text.lines_terminated_of_isLine isLine]

theorem exists_run_of_read {source : String} {files : List FileDiff}
    (accepted : read source = .ok files) :
    ∃ scan, Scan.run {} (Text.lines source.toList) = .ok scan ∧ scan.finished = files := by
  rw [read, ofLines, ← Scan.run] at accepted
  cases ran : Scan.run {} (Text.lines source.toList) with
  | error fault =>
    rw [ran] at accepted
    cases accepted
  | ok scan =>
    rw [ran] at accepted
    cases accepted
    exact ⟨scan, rfl, rfl⟩

/-! ### Lines of a hunk -/

/-- A note changes nothing, wherever it stands. -/
theorem Scan.step_note (scan : Scan) : scan.step noteLine = .ok scan := by
  have untitled : ¬ Text.startsWith "diff --git ".toList noteLine = true := by decide
  have noSide : ¬ Text.startsWith "--- ".toList noteLine = true := by decide
  have noBinary : ¬ isBinaryNote noteLine = true := by decide
  have noHunk : ¬ Text.startsWith "@@ ".toList noteLine = true := by decide
  have noHeader (file : FileDiff) : headerLine? file noteLine = none := rfl
  have isNote : noteLine = "\\ No newline at end of file".toList := rfl
  have body : scan.bodyLine noteLine = .ok scan := by
    rw [bodyLine, if_neg noHunk, if_pos isNote]
  rw [step, if_neg untitled, if_neg noSide, fileLine]
  cases scan.place with
  | outside => rfl
  | inFile file => simpa only [if_neg noBinary, noHeader] using body
  | inHunk file hunk => simpa only [if_neg noBinary] using body

theorem Scan.run_notes (scan : Scan) (count : Nat) :
    scan.run (List.replicate count noteLine) = .ok scan := by
  induction count with
  | zero => rfl
  | succ count ih => rw [List.replicate_succ, run_cons scan.step_note, ih]

theorem rowOf?_render (row : Row) : rowOf? row.render.toList = some row := by
  obtain ⟨kind, text⟩ := row
  cases kind <;> simp [Row.render, RowKind.mark, rowOf?, Row.ofLine]

/-- In an open hunk a row is a row, whatever its text looks like. -/
theorem Scan.step_row (files : List FileDiff) (file : FileDiff) (hunk : Hunk) (binary : Bool)
    (row : Row) : Scan.step ⟨files, .inHunk file hunk, binary⟩ row.render.toList =
      .ok ⟨files, fillHunk file hunk row.render.toList, binary⟩ := by
  obtain ⟨kind, text⟩ := row
  cases kind <;>
    simp [Row.render, RowKind.mark, Scan.step, openFile, fileLine, isBinaryNote, bodyLine,
      Text.startsWith, Text.stripStart?]

theorem fillHunk_row (file : FileDiff) (hunk : Hunk) (row : Row) :
    fillHunk file hunk row.render.toList =
      if ({ hunk with rows := hunk.rows ++ [row] } : Hunk).isFilled then
        .inFile { file with hunks := file.hunks ++ [{ hunk with rows := hunk.rows ++ [row] }] }
      else .inHunk file { hunk with rows := hunk.rows ++ [row] } := by
  rw [fillHunk, rowOf?_render]
  rfl

/-- Every row stands in the old or the new text. -/
theorem countP_pos {rows : List Row} (nonempty : rows ≠ []) :
    0 < rows.countP (·.kind.inOld) ∨ 0 < rows.countP (·.kind.inNew) := by
  obtain ⟨row, rest, rfl⟩ := List.exists_cons_of_ne_nil nonempty
  cases kind : row.kind with
  | kept => exact .inl (by simp [kind, RowKind.inOld])
  | removed => exact .inl (by simp [kind, RowKind.inOld])
  | added => exact .inr (by simp [kind, RowKind.inNew])

/-- The declared counts are met once all rows are there, and not before. -/
theorem isFilled_iff {hunk : Hunk} {done rest : List Row} (shape : hunk.rows = done ++ rest)
    (oldRows : hunk.rows.countP (·.kind.inOld) = hunk.oldCount)
    (newRows : hunk.rows.countP (·.kind.inNew) = hunk.newCount) :
    ({ hunk with rows := done } : Hunk).isFilled = true ↔ rest = [] := by
  rw [shape, List.countP_append] at oldRows newRows
  simp only [Hunk.isFilled, Bool.and_eq_true, decide_eq_true_eq]
  constructor
  · rintro ⟨oldFilled, newFilled⟩
    apply Classical.byContradiction
    intro more
    have positive := countP_pos more
    omega
  · rintro rfl
    simp only [List.countP_nil] at oldRows newRows
    omega

/-- The rows of a hunk, read after some of them, close it at the last one. -/
theorem Scan.run_body {files : List FileDiff} {file : FileDiff} {binary : Bool} {hunk : Hunk}
    (oldRows : hunk.rows.countP (·.kind.inOld) = hunk.oldCount)
    (newRows : hunk.rows.countP (·.kind.inNew) = hunk.newCount) {done rest : List Row}
    (shape : hunk.rows = done ++ rest) (more : rest ≠ []) (notes : Nat → Nat) :
    Scan.run ⟨files, .inHunk file { hunk with rows := done }, binary⟩ (bodyLines notes rest) =
      .ok ⟨files, .inFile { file with hunks := file.hunks ++ [hunk] }, binary⟩ := by
  induction rest generalizing done notes with
  | nil => exact absurd rfl more
  | cons row rest ih =>
    have grown : hunk.rows = (done ++ [row]) ++ rest := by simp [shape]
    rw [bodyLines, run_cons (step_row ..), run_append (run_notes ..), fillHunk_row]
    -- The counts are met at the last row only, so any row before it leaves the hunk open.
    by_cases last : rest = []
    · subst last
      have filled := (isFilled_iff grown oldRows newRows).mpr rfl
      have whole : ({ hunk with rows := done ++ [row] } : Hunk) = hunk := by
        rw [← List.append_nil (done ++ [row]), ← grown]
      rw [if_pos filled, bodyLines, run_nil, whole]
    · have unfilled := fun filled => last ((isFilled_iff grown oldRows newRows).mp filled)
      rw [if_neg unfilled]
      exact ih grown last _

/-- A header opens an empty hunk of its numbers. -/
theorem Scan.step_header {files : List FileDiff} {file : FileDiff} {binary : Bool}
    {line : List Char} {hunk : Hunk} (spells : SpellsHeader line hunk) (numbered : Numbered hunk) :
    Scan.step ⟨files, .inFile file, binary⟩ line =
      .ok ⟨files, .inHunk file { hunk with rows := [] }, binary⟩ := by
  have read := spells.readHeader numbered
  obtain ⟨rest, rfl⟩ : ∃ rest, line = '@' :: '@' :: ' ' :: rest := by
    cases spells
    exact ⟨_, rfl⟩
  have startsHunk : Text.startsWith "@@ ".toList ('@' :: '@' :: ' ' :: rest) = true := rfl
  have body : Scan.bodyLine ⟨files, .inFile file, binary⟩ ('@' :: '@' :: ' ' :: rest) =
      .ok ⟨files, .inHunk file { hunk with rows := [] }, binary⟩ := by
    simp only [bodyLine, if_pos startsHunk, Place.file?, read]
    rfl
  exact body

theorem Scan.run_hunk {files : List FileDiff} {file : FileDiff} {binary : Bool}
    {written : WrittenHunk} (wellFormed : written.WellFormed) :
    Scan.run ⟨files, .inFile file, binary⟩ written.lines =
      .ok ⟨files, .inFile { file with hunks := file.hunks ++ [written.hunk] }, binary⟩ := by
  have nonempty : written.hunk.rows ≠ [] := by
    intro empty
    have oldRows := wellFormed.oldRows
    have newRows := wellFormed.newRows
    have positive := wellFormed.nonempty
    simp only [empty, List.countP_nil] at oldRows newRows
    omega
  rw [WrittenHunk.lines, run_cons (step_header wellFormed.spells wellFormed.numbered)]
  exact run_body wellFormed.oldRows wellFormed.newRows rfl nonempty written.notes

theorem Scan.run_hunks {files : List FileDiff} {file : FileDiff} {binary : Bool}
    {hunks : List WrittenHunk} (wellFormed : ∀ written ∈ hunks, written.WellFormed) :
    Scan.run ⟨files, .inFile file, binary⟩ (hunks.flatMap WrittenHunk.lines) =
      .ok ⟨files, .inFile { file with
        hunks := file.hunks ++ hunks.map WrittenHunk.hunk }, binary⟩ := by
  induction hunks generalizing file with
  | nil => simp [run_nil]
  | cons written hunks ih =>
    obtain ⟨first, rest⟩ := List.forall_mem_cons.mp wellFormed
    rw [List.flatMap_cons, run_append (run_hunk first), ih rest]
    simp

/-! ### Lines above the hunks -/

/-- A file marked by header lines of no other meaning. -/
def marked (file : FileDiff) (headers : List (List Char)) : FileDiff :=
  { file with
    isNew := file.isNew || headers.any (Text.startsWith "new file mode".toList)
    isDeleted := file.isDeleted || headers.any (Text.startsWith "deleted file mode".toList)
    isRename := file.isRename || headers.any fun line =>
      Text.startsWith "rename from ".toList line || Text.startsWith "rename to ".toList line }

theorem marked_nil (file : FileDiff) : marked file [] = file := by
  simp [marked]

theorem marked_cons (file : FileDiff) (line : List Char) (headers : List (List Char)) :
    marked file (line :: headers) = marked (marked file [line]) headers := by
  simp only [marked, List.any_cons, List.any_nil, Bool.or_false, Bool.or_assoc]

theorem headerLine?_unsided {line : List Char}
    (oldSide : Text.stripStart? "--- ".toList line = none)
    (newSide : Text.stripStart? "+++ ".toList line = none) (file : FileDiff) :
    (headerLine? file line).getD file = marked file [line] := by
  by_cases isNew : Text.startsWith "new file mode".toList line = true
  · obtain ⟨rest, rfl⟩ := Text.startsWith_iff.mp isNew
    simp [headerLine?, marked, Text.startsWith, Text.stripStart?]
  by_cases isDeleted : Text.startsWith "deleted file mode".toList line = true
  · obtain ⟨rest, rfl⟩ := Text.startsWith_iff.mp isDeleted
    simp [headerLine?, marked, Text.startsWith, Text.stripStart?]
  rw [headerLine?, if_neg isNew, if_neg isDeleted, marked]
  rw [Bool.not_eq_true] at isNew isDeleted
  simp only [isNew, isDeleted, oldSide, newSide, List.any_cons, List.any_nil, Bool.or_false]
  by_cases isRename : (Text.startsWith "rename from ".toList line ||
      Text.startsWith "rename to ".toList line) = true
  · simp only [isRename, if_true, Option.getD_some, Bool.or_true]
  · simp only [isRename, Bool.false_eq_true, if_false, Bool.or_false]
    split <;> rfl

theorem headerLine?_eq_marked {line : List Char} (plain : isStructural line = false)
    (file : FileDiff) : (headerLine? file line).getD file = marked file [line] := by
  simp only [isStructural, Bool.or_eq_false_iff] at plain
  obtain ⟨⟨⟨⟨_, noOld⟩, noNew⟩, _⟩, _⟩ := plain
  exact headerLine?_unsided (by simpa [Text.startsWith] using noOld)
    (by simpa [Text.startsWith] using noNew) file

/-- A header line of no structure only marks its file. -/
theorem Scan.step_extended {files : List FileDiff} {file : FileDiff} {binary : Bool}
    {line : List Char} (plain : isStructural line = false) :
    Scan.step ⟨files, .inFile file, binary⟩ line =
      .ok ⟨files, .inFile (marked file [line]), binary⟩ := by
  have marks := headerLine?_eq_marked plain file
  simp only [isStructural, Bool.or_eq_false_iff] at plain
  obtain ⟨⟨⟨⟨untitled, noSide⟩, _⟩, noHunk⟩, noBinary⟩ := plain
  simp only [step, untitled, noSide, fileLine, noBinary, Bool.false_eq_true, if_false]
  cases header : headerLine? file line with
  | some next =>
    rw [header, Option.getD_some] at marks
    rw [marks]
  | none =>
    rw [header, Option.getD_none] at marks
    simp only [← marks, bodyLine, noHunk, Bool.false_eq_true, if_false, ite_self]

theorem Scan.run_extended {files : List FileDiff} {file : FileDiff} {binary : Bool}
    {headers : List (List Char)} (plain : ∀ line ∈ headers, isStructural line = false) :
    Scan.run ⟨files, .inFile file, binary⟩ headers =
      .ok ⟨files, .inFile (marked file headers), binary⟩ := by
  induction headers generalizing file with
  | nil => rw [run_nil, marked_nil]
  | cons line headers ih =>
    obtain ⟨first, rest⟩ := List.forall_mem_cons.mp plain
    rw [run_cons (step_extended first), ih rest, ← marked_cons]

/-- The old side of a file, which may be its first line. -/
theorem Scan.step_oldSide {scan : Scan} {files : List FileDiff} {file : FileDiff} {binary : Bool}
    (opened : scan.openFile = ⟨files, .inFile file, binary⟩) (side : List Char) :
    scan.step ("--- ".toList ++ side) = .ok ⟨files, .inFile { file with
      oldPath := pathOf side
      isNew := file.isNew || side = missingPath.toList }, binary⟩ := by
  have untitled : ¬ Text.startsWith "diff --git ".toList ("--- ".toList ++ side) = true := by
    simp [Text.startsWith, Text.stripStart?]
  have isSide : Text.startsWith "--- ".toList ("--- ".toList ++ side) = true :=
    Text.startsWith_iff.mpr ⟨side, rfl⟩
  have noBinary : ¬ isBinaryNote ("--- ".toList ++ side) = true := by
    simp [isBinaryNote, Text.startsWith, Text.stripStart?]
  have header : headerLine? file ("--- ".toList ++ side) = some { file with
      oldPath := pathOf side, isNew := file.isNew || side = missingPath.toList } := by
    simp [headerLine?, Text.startsWith, Text.stripStart?]
  rw [step, if_neg untitled, if_pos isSide, opened, fileLine]
  simp only [if_neg noBinary, header]

theorem Scan.step_newSide {files : List FileDiff} {file : FileDiff} {binary : Bool}
    (side : List Char) : Scan.step ⟨files, .inFile file, binary⟩ ("+++ ".toList ++ side) =
      .ok ⟨files, .inFile { file with
        newPath := pathOf side
        isDeleted := file.isDeleted || side = missingPath.toList }, binary⟩ := by
  have untitled : ¬ Text.startsWith "diff --git ".toList ("+++ ".toList ++ side) = true := by
    simp [Text.startsWith, Text.stripStart?]
  have noOld : ¬ Text.startsWith "--- ".toList ("+++ ".toList ++ side) = true := by
    simp [Text.startsWith, Text.stripStart?]
  have noBinary : ¬ isBinaryNote ("+++ ".toList ++ side) = true := by
    simp [isBinaryNote, Text.startsWith, Text.stripStart?]
  have header : headerLine? file ("+++ ".toList ++ side) = some { file with
      newPath := pathOf side, isDeleted := file.isDeleted || side = missingPath.toList } := by
    simp [headerLine?, Text.startsWith, Text.stripStart?]
  rw [step, if_neg untitled, if_neg noOld, fileLine]
  simp only [if_neg noBinary, header]

/-- The directory of either side is taken off, whatever the path below it starts with. -/
theorem pathOf_sided {c : Char} (isSide : c = 'a' ∨ c = 'b') {side path : List Char}
    (name : Text.strip (· == '"') (Text.before '\t' side) = c :: '/' :: path) :
    pathOf side = String.ofList path := by
  have named : ¬ c :: '/' :: path = missingPath.toList := by
    rcases isSide with rfl | rfl
    · simp [missingPath]
    · simp [missingPath]
  simp only [pathOf, name, if_neg named]
  rcases isSide with rfl | rfl
  · rfl
  · rfl

/-- A side without quotes is read up to its first tab. -/
theorem pathOf_unquoted {c : Char} (isSide : c = 'a' ∨ c = 'b') {path : List Char}
    (noQuote : '"' ∉ path) : pathOf (c :: '/' :: path) = String.ofList (Text.before '\t' path) := by
  apply pathOf_sided isSide
  have cut : Text.before '\t' (c :: '/' :: path) = c :: '/' :: Text.before '\t' path := by
    rcases isSide with rfl | rfl
    · rfl
    · rfl
  rw [cut]
  apply Text.strip_of_not_mem
  have absent : '"' ∉ Text.before '\t' path := fun member =>
    noQuote ((List.takeWhile_sublist _).subset member)
  rcases isSide with rfl | rfl
  · simpa using absent
  · simpa using absent

/-! ### Files and sections -/

/-- A file is read whole from where its first line opens it. -/
theorem Scan.run_file {scan : Scan} {files : List FileDiff} {headers : List (List Char)}
    {binary : Bool} (opened : scan.openFile = ⟨files, .inFile (marked {} headers), binary⟩)
    {file : WrittenFile} (hunks : ∀ written ∈ file.hunks, written.WellFormed) :
    scan.run file.lines = .ok ⟨files, .inFile (file.content headers), binary⟩ := by
  rw [WrittenFile.lines, run_cons (step_oldSide opened ..), run_cons (step_newSide ..),
    run_hunks hunks]
  simp only [marked, WrittenFile.content, Bool.false_or, List.nil_append]

theorem Scan.step_title (scan : Scan) (title : List Char) :
    scan.step ("diff --git ".toList ++ title) = .ok ⟨scan.finished, .inFile {}, false⟩ := by
  have titled : Text.startsWith "diff --git ".toList ("diff --git ".toList ++ title) = true :=
    Text.startsWith_iff.mpr ⟨title, rfl⟩
  rw [step, if_pos titled]

theorem Scan.step_binary {files : List FileDiff} {file : FileDiff} {binary : Bool}
    (sides : List Char) : Scan.step ⟨files, .inFile file, binary⟩
      ("Binary files ".toList ++ sides ++ " differ".toList) = .ok ⟨files, .inFile file, true⟩ := by
  have isNote : isBinaryNote ("Binary files ".toList ++ sides ++ " differ".toList) = true := by
    rw [isBinaryNote, Text.endsWith, Text.stripEnd?_append, List.append_assoc, Bool.and_eq_true]
    exact ⟨Text.startsWith_iff.mpr ⟨_, rfl⟩, rfl⟩
  have untitled : ¬ Text.startsWith "diff --git ".toList
      ("Binary files ".toList ++ sides ++ " differ".toList) = true := by
    simp [Text.startsWith, Text.stripStart?]
  have noSide : ¬ Text.startsWith "--- ".toList
      ("Binary files ".toList ++ sides ++ " differ".toList) = true := by
    simp [Text.startsWith, Text.stripStart?]
  rw [step, if_neg untitled, if_neg noSide, fileLine]
  simp only [if_pos isNote]

/-- A section adds its file to those that came before, wherever the last one ended. -/
theorem Scan.run_section (scan : Scan) {written : GitSection} (wellFormed : written.WellFormed) :
    ∃ next, scan.run written.lines = .ok next ∧
      next.finished = scan.finished ++ written.content?.toList := by
  cases written with
  | text title headers file =>
    obtain ⟨plain, fileWellFormed⟩ := wellFormed
    refine ⟨⟨scan.finished, .inFile (file.content headers), false⟩, ?_, rfl⟩
    rw [GitSection.lines, run_cons (scan.step_title title), run_append (run_extended plain)]
    exact run_file rfl fileWellFormed.hunks
  | binary title headers sides =>
    refine ⟨⟨scan.finished, .inFile (marked {} headers), true⟩, ?_, (List.append_nil _).symm⟩
    rw [GitSection.lines, run_cons (scan.step_title title), run_append (run_extended wellFormed),
      run_cons (step_binary sides), run_nil]

/-- Parts that each add their files wherever they start add them one after the other. -/
theorem Scan.run_parts {α : Type} {lines : α → List (List Char)} {content : α → List FileDiff}
    {parts : List α} (adds : ∀ part ∈ parts, ∀ scan : Scan, ∃ next,
      scan.run (lines part) = .ok next ∧ next.finished = scan.finished ++ content part)
    (scan : Scan) : ∃ next, scan.run (parts.flatMap lines) = .ok next ∧
      next.finished = scan.finished ++ parts.flatMap content := by
  induction parts generalizing scan with
  | nil => exact ⟨scan, rfl, (List.append_nil _).symm⟩
  | cons part parts ih =>
    obtain ⟨first, rest⟩ := List.forall_mem_cons.mp adds
    obtain ⟨middle, ran, added⟩ := first scan
    obtain ⟨next, ranRest, addedRest⟩ := ih rest middle
    refine ⟨next, ?_, ?_⟩
    · rw [List.flatMap_cons, run_append ran, ranRest]
    · rw [addedRest, added, List.flatMap_cons, List.append_assoc]

theorem Scan.run_sections (scan : Scan) {sections : List GitSection}
    (wellFormed : ∀ written ∈ sections, written.WellFormed) :
    ∃ next, scan.run (sections.flatMap GitSection.lines) = .ok next ∧
      next.finished = scan.finished ++ sections.filterMap GitSection.content? := by
  rw [List.filterMap_eq_flatMap_toList]
  exact run_parts (fun written member scan => scan.run_section (wellFormed written member)) scan

/-- Bare files are told apart by their hunks: after those of one file an old side opens the next. -/
theorem Scan.run_bare {scan : Scan} (opened : scan.openFile = ⟨scan.finished, .inFile {}, false⟩)
    {files : List WrittenFile} (wellFormed : ∀ file ∈ files, file.WellFormed) :
    ∃ next, scan.run (files.flatMap WrittenFile.lines) = .ok next ∧
      next.finished = scan.finished ++ files.map (WrittenFile.content []) := by
  induction files generalizing scan with
  | nil => exact ⟨scan, rfl, (List.append_nil _).symm⟩
  | cons file files ih =>
    obtain ⟨first, rest⟩ := List.forall_mem_cons.mp wellFormed
    have ran : scan.run file.lines = .ok ⟨scan.finished, .inFile (file.content []), false⟩ :=
      run_file (by rw [opened, marked_nil]) first.hunks
    have hunks : ¬ (file.content []).hunks.isEmpty = true := by
      simpa [WrittenFile.content] using first.nonempty
    -- Without its hunks the next old side would be taken for another one of this file.
    have reopened : Scan.openFile ⟨scan.finished, .inFile (file.content []), false⟩ =
        ⟨scan.finished ++ [file.content []], .inFile {}, false⟩ := by
      simp only [openFile, if_neg hunks]
    obtain ⟨next, ranRest, contents⟩ := ih reopened rest
    refine ⟨next, ?_, ?_⟩
    · rw [List.flatMap_cons, run_append ran, ranRest]
    · rw [contents, List.map_cons, List.append_cons]
      rfl

theorem ofLines_lines {diff : WrittenDiff} (wellFormed : diff.WellFormed) :
    ofLines diff.lines = .ok diff.content := by
  cases diff with
  | git sections =>
    obtain ⟨scan, ran, content⟩ := Scan.run_sections {} wellFormed.2
    rw [WrittenDiff.lines, ofLines_eq ran, content]
    rfl
  | bare files =>
    have opened : Scan.openFile {} = ⟨Scan.finished {}, .inFile {}, false⟩ := rfl
    obtain ⟨scan, ran, content⟩ := Scan.run_bare opened wellFormed.2
    rw [WrittenDiff.lines, ofLines_eq ran, content]
    rfl

/-- A well-formed diff is read as what it says. -/
theorem WrittenDiff.read_text (diff : WrittenDiff) (wellFormed : diff.WellFormed) :
    Diff.read diff.text = .ok diff.content := by
  rw [text, read_terminated wellFormed.1]
  exact ofLines_lines wellFormed

/-- Rows that look like the sides of a file, with a note between them. -/
def dashedHunk : WrittenHunk where
  hunk := ⟨7, 2, 7, 2, [⟨.removed, "-- a/x"⟩, ⟨.added, "++ b/x"⟩, ⟨.kept, "diff --git a b"⟩]⟩
  header := "@@ -7,2 +7,2 @@ class A".toList
  notes index := if index = 0 then 1 else 0

def insertingHunk : WrittenHunk where
  hunk := ⟨20, 0, 21, 1, [⟨.added, "@@ -1 +1 @@"⟩]⟩
  header := "@@ -20,0 +21 @@".toList
  notes _ := 0

def logoSection : GitSection :=
  .binary "a/logo.png b/logo.png".toList ["index 1..2 100644".toList]
    "a/logo.png and b/logo.png".toList

def javaSection : GitSection :=
  .text "a/A.java b/B.java".toList ["similarity index 90%".toList, "rename from A.java".toList]
    ⟨"a/A.java".toList, "b/B.java".toList, [dashedHunk, insertingHunk]⟩

def dashedDiff : WrittenDiff :=
  .git [logoSection, javaSection]

theorem dashedHunk_wellFormed : dashedHunk.WellFormed where
  spells := SpellsHeader.headerText dashedHunk.hunk " class A".toList
  numbered := by constructor <;> decide
  oldRows := rfl
  newRows := rfl
  nonempty := by decide

theorem insertingHunk_wellFormed : insertingHunk.WellFormed where
  spells := SpellsHeader.headerText insertingHunk.hunk []
  numbered := by constructor <;> decide
  oldRows := rfl
  newRows := rfl
  nonempty := by decide

theorem dashedDiff_wellFormed : dashedDiff.WellFormed := by
  have logo : logoSection.WellFormed := by
    rw [logoSection, GitSection.WellFormed]
    decide
  have java : javaSection.WellFormed := by
    refine ⟨by decide, by simp, ?_⟩
    simpa using ⟨dashedHunk_wellFormed, insertingHunk_wellFormed⟩
  have sections : ∀ written ∈ [logoSection, javaSection], written.WellFormed := by
    simpa using ⟨logo, java⟩
  exact ⟨by decide, sections⟩

theorem WrittenDiff.read_text_dashed : dashedDiff.WellFormed ∧ Diff.read dashedDiff.text =
    .ok [⟨"A.java", "B.java", [dashedHunk.hunk, insertingHunk.hunk], false, false, true⟩] :=
  ⟨dashedDiff_wellFormed, WrittenDiff.read_text dashedDiff dashedDiff_wellFormed⟩

end MergeRisk.Diff
