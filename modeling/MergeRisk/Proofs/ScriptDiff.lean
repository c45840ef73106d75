import Mathlib.Data.List.Basic
import MergeRisk.Proofs.DiffReading
import MergeRisk.Proofs.EditScript
import MergeRisk.Proofs.Ordered

/-! Scripts written as diffs. Reading a diff of one file gives the lines that its script deletes and
inserts, however the script was cut and whatever its lines contain. -/

namespace MergeRisk

open Text (IsLine dropReturn)

/-! ### Lines that end with a carriage return

Reading drops the return, which changes the text of a row and nothing else. -/

def Row.dropReturn (row : Row) : Row :=
  ⟨row.kind, String.ofList (Text.dropReturn row.text.toList)⟩

theorem Row.dropReturn_render (row : Row) :
    Text.dropReturn row.render.toList = row.dropReturn.render.toList := by
  have marked : ¬ (row.kind.mark = '\r' ∧ row.text.toList = []) := by
    cases row.kind <;> simp [RowKind.mark]
  simp [Row.render, Row.dropReturn, Text.dropReturn_cons marked]

def Hunk.dropReturns (hunk : Hunk) : Hunk :=
  { hunk with rows := hunk.rows.map Row.dropReturn }

theorem Hunk.changedLines_dropReturns (hunk : Hunk) :
    hunk.dropReturns.changedLines = hunk.changedLines :=
  changedLinesFrom_map (fun row => show row.dropReturn.kind = row.kind from rfl) ..

namespace Diff

theorem mem_bodyLines {notes : Nat → Nat} {rows : List Row} {line : List Char}
    (member : line ∈ bodyLines notes rows) :
    line = noteLine ∨ ∃ row ∈ rows, line = row.render.toList := by
  induction rows generalizing notes with
  | nil => cases member
  | cons row rows ih =>
    rw [bodyLines, List.mem_cons, List.mem_append] at member
    rcases member with isRow | isNote | later
    · exact .inr ⟨row, List.mem_cons_self, isRow⟩
    · exact .inl (List.eq_of_mem_replicate isNote)
    · rcases ih later with isNote | ⟨other, inRows, isRow⟩
      · exact .inl isNote
      · exact .inr ⟨other, List.mem_cons_of_mem row inRows, isRow⟩

theorem bodyLines_dropReturn (notes : Nat → Nat) (rows : List Row) :
    (bodyLines notes rows).map dropReturn = bodyLines notes (rows.map Row.dropReturn) := by
  induction rows generalizing notes with
  | nil => rfl
  | cons row rows ih =>
    have note : dropReturn noteLine = noteLine := rfl
    simp only [bodyLines, List.map_cons, List.map_append, List.map_replicate, Row.dropReturn_render,
      note, ih]

namespace WrittenHunk

def dropReturns (written : WrittenHunk) : WrittenHunk :=
  { written with hunk := written.hunk.dropReturns }

theorem lines_dropReturns {written : WrittenHunk} (isLine : IsLine written.header) :
    written.dropReturns.lines = written.lines.map dropReturn := by
  rw [lines, lines, List.map_cons, isLine.dropReturn_eq, bodyLines_dropReturn]
  rfl

theorem WellFormed.dropReturns {written : WrittenHunk} (wellFormed : written.WellFormed) :
    written.dropReturns.WellFormed where
  spells := wellFormed.spells.withRows _
  numbered := wellFormed.numbered.withRows _
  oldRows := List.countP_map.trans wellFormed.oldRows
  newRows := List.countP_map.trans wellFormed.newRows
  nonempty := wellFormed.nonempty

end WrittenHunk

namespace WrittenFile

/-- A file that shows the given hunks, each below a header that spells its numbers. -/
structure Shows (file : WrittenFile) (hunks : List Hunk) : Prop where
  shown : file.hunks.map WrittenHunk.hunk = hunks
  spells : ∀ written ∈ file.hunks, SpellsHeader written.header written.hunk
  headers : ∀ written ∈ file.hunks, IsLine written.header
  oldSide : IsLine file.oldSide
  newSide : IsLine file.newSide

def dropReturns (file : WrittenFile) : WrittenFile :=
  { file with hunks := file.hunks.map WrittenHunk.dropReturns }

variable {file : WrittenFile} {hunks : List Hunk}

theorem Shows.old_isLine (shows : file.Shows hunks) : IsLine ("--- ".toList ++ file.oldSide) :=
  IsLine.append (by decide) shows.oldSide

theorem Shows.new_isLine (shows : file.Shows hunks) : IsLine ("+++ ".toList ++ file.newSide) :=
  IsLine.append (by decide) shows.newSide

theorem Shows.lines_dropReturns (shows : file.Shows hunks) :
    file.dropReturns.lines = file.lines.map dropReturn := by
  have rows : file.dropReturns.hunks.flatMap WrittenHunk.lines =
      (file.hunks.flatMap WrittenHunk.lines).map dropReturn := by
    rw [dropReturns, List.flatMap_map, List.map_flatMap]
    apply List.flatMap_congr
    intro written member
    exact WrittenHunk.lines_dropReturns (shows.headers written member)
  rw [lines, lines, rows, List.map_cons, List.map_cons, shows.old_isLine.dropReturn_eq,
    shows.new_isLine.dropReturn_eq]
  rfl

theorem Shows.noFeed (shows : file.Shows hunks)
    (rows : ∀ hunk ∈ hunks, ∀ row ∈ hunk.rows, '\n' ∉ row.text.toList) :
    ∀ line ∈ file.lines, '\n' ∉ line := by
  intro line member
  rw [lines, List.mem_cons, List.mem_cons, List.mem_flatMap] at member
  rcases member with rfl | rfl | ⟨written, inFile, inHunk⟩
  · exact shows.old_isLine.noFeed
  · exact shows.new_isLine.noFeed
  · rw [WrittenHunk.lines, List.mem_cons] at inHunk
    rcases inHunk with rfl | inBody
    · exact (shows.headers written inFile).noFeed
    · rcases mem_bodyLines inBody with rfl | ⟨row, inRows, rfl⟩
      · decide
      · have shown : written.hunk ∈ hunks := shows.shown ▸ List.mem_map_of_mem inFile
        have text := rows written.hunk shown row inRows
        cases kind : row.kind <;> simpa [Row.render, kind, RowKind.mark] using text

end WrittenFile

/-- The lines above the sides of a file: none, or those that open a section. -/
inductive Opening : List (List Char) → Prop where
  | bare : Opening []
  | git {title : List Char} {headers : List (List Char)} (titleIsLine : IsLine title)
      (headersAreLines : ∀ line ∈ headers, IsLine line)
      (plain : ∀ line ∈ headers, isStructural line = false) :
      Opening (("diff --git ".toList ++ title) :: headers)

theorem Opening.isLine {top : List (List Char)} (opening : Opening top) :
    ∀ line ∈ top, IsLine line := by
  cases opening with
  | bare => simp
  | git titleIsLine headersAreLines plain =>
    intro line member
    rcases List.mem_cons.mp member with rfl | inHeaders
    · exact IsLine.append (by decide) titleIsLine
    · exact headersAreLines line inHeaders

theorem Scan.run_opening {title : List Char} {headers : List (List Char)}
    (plain : ∀ line ∈ headers, isStructural line = false) :
    Scan.run {} (("diff --git ".toList ++ title) :: headers) =
      .ok ⟨[], .inFile (marked {} headers), false⟩ := by
  rw [Scan.run_cons (Scan.step_title {} title)]
  exact Scan.run_extended plain

theorem Opening.run {top : List (List Char)} (opening : Opening top) :
    ∃ scan headers, Scan.run {} top = .ok scan ∧
      scan.openFile = ⟨[], .inFile (marked {} headers), false⟩ := by
  cases opening with
  | bare => exact ⟨{}, [], rfl, by rw [marked_nil]; rfl⟩
  | @git title headers titleIsLine headersAreLines plain =>
    exact ⟨_, headers, Scan.run_opening plain, rfl⟩

namespace WrittenFile
variable {file : WrittenFile} {hunks : List Hunk}

theorem Shows.changedLines (shows : file.Shows hunks) (headers : List (List Char)) :
    (file.dropReturns.content headers).hunks.flatMap Hunk.changedLines =
      hunks.flatMap Hunk.changedLines := by
  have same : (fun written : WrittenHunk => written.dropReturns.hunk.changedLines) =
      fun written => written.hunk.changedLines :=
    funext fun written => written.hunk.changedLines_dropReturns
  rw [← shows.shown, content, dropReturns, List.map_map, List.flatMap_map, List.flatMap_map]
  exact congrArg file.hunks.flatMap same

/-- Below lines that open it, a file is read whole, each row without a carriage return at its end. -/
theorem Shows.read_below (shows : file.Shows hunks) {top headers : List (List Char)} {scan : Scan}
    (isLine : ∀ line ∈ top, IsLine line) (ran : Scan.run {} top = .ok scan)
    (opened : scan.openFile = ⟨[], .inFile (marked {} headers), false⟩)
    (wellFormed : ∀ written ∈ file.hunks, written.WellFormed)
    (rows : ∀ hunk ∈ hunks, ∀ row ∈ hunk.rows, '\n' ∉ row.text.toList) :
    Diff.read (String.ofList (Text.terminated (top ++ file.lines))) =
      .ok [file.dropReturns.content headers] := by
  have noFeed : ∀ line ∈ top ++ file.lines, '\n' ∉ line := by
    intro line member
    rcases List.mem_append.mp member with inTop | inFile
    · exact (isLine line inTop).noFeed
    · exact shows.noFeed rows line inFile
  have lines :
      Text.lines (Text.terminated (top ++ file.lines)) = top ++ file.dropReturns.lines := by
    have kept : top.map dropReturn = top.map id :=
      List.map_congr_left fun line member => (isLine line member).dropReturn_eq
    rw [Text.lines_terminated noFeed, List.map_append, kept, List.map_id, shows.lines_dropReturns]
  have dropped : ∀ written ∈ file.dropReturns.hunks, written.WellFormed := by
    intro written member
    obtain ⟨original, inFile, rfl⟩ := List.mem_map.mp member
    exact (wellFormed original inFile).dropReturns
  have read : Scan.run {} (top ++ file.dropReturns.lines) =
      .ok ⟨[], .inFile (file.dropReturns.content headers), false⟩ := by
    rw [Scan.run_append ran, Scan.run_file opened dropped]
  rw [Diff.read, String.toList_ofList, lines, ofLines_eq read]
  rfl

/-- A diff of one file is read as that file. -/
theorem Shows.read (shows : file.Shows hunks) {top : List (List Char)} (opening : Opening top)
    (wellFormed : ∀ written ∈ file.hunks, written.WellFormed)
    (rows : ∀ hunk ∈ hunks, ∀ row ∈ hunk.rows, '\n' ∉ row.text.toList) :
    ∃ headers, Diff.read (String.ofList (Text.terminated (top ++ file.lines))) =
      .ok [file.dropReturns.content headers] := by
  obtain ⟨scan, headers, ran, opened⟩ := opening.run
  exact ⟨headers, shows.read_below opening.isLine ran opened wellFormed rows⟩

end WrittenFile

/-- The lines that a hunk counts on both sides have numbers of 32 bits, and so has the next one. -/
structure Fits (hunk : Hunk) : Prop where
  old : hunk.oldStart + hunk.oldCount ≤ Text.limit32
  new : hunk.newStart + hunk.newCount ≤ Text.limit32

theorem Fits.numbered {oldBefore newBefore : Nat} {rows : List Row}
    (fits : Fits (.ofRows oldBefore newBefore rows)) :
    Numbered (.ofRows oldBefore newBefore rows) := by
  have started (before count : Nat) : 0 < count → 0 < if count = 0 then before else before + 1 := by
    intro positive
    rw [if_neg (Nat.ne_of_gt positive)]
    exact Nat.succ_pos before
  exact ⟨Nat.le_of_add_right_le fits.old, Nat.le_of_add_left_le fits.old,
    Nat.le_of_add_right_le fits.new, Nat.le_of_add_left_le fits.new, started _ _, started _ _⟩

/-- The hunks of a script can be written if their line numbers fit. -/
theorem wellFormed_of_fits {script : List (Edit String)} {hunks : List Hunk}
    (cut : Cut 0 0 script hunks) {written : WrittenHunk} (member : written.hunk ∈ hunks)
    (fits : Fits written.hunk) (spells : SpellsHeader written.header written.hunk) :
    written.WellFormed := by
  obtain ⟨before, edits, after, rfl, nonempty, isHunk⟩ := cut.of_mem member
  have rows : edits.map Edit.row ≠ [] := by simpa using nonempty
  rw [isHunk] at fits
  refine ⟨spells, ?_, ?_, ?_, ?_⟩ <;> rw [isHunk]
  · exact fits.numbered
  · rfl
  · rfl
  · have positive := countP_pos rows
    simp only [Hunk.ofRows]
    omega

/-- The hunks of a script whose texts are not too long can be written. -/
theorem wellFormed_of_cut {script : List (Edit String)} {hunks : List Hunk}
    (cut : Cut 0 0 script hunks) (oldBound : (oldText script).length < Text.limit32)
    (newBound : (newText script).length < Text.limit32) {written : WrittenHunk}
    (member : written.hunk ∈ hunks) (spells : SpellsHeader written.header written.hunk) :
    written.WellFormed := by
  apply wellFormed_of_fits cut member _ spells
  obtain ⟨before, edits, after, rfl, _, isHunk⟩ := cut.of_mem member
  simp only [oldText, newText, sideText_append, List.length_append, length_sideText]
    at oldBound newBound isHunk
  have start (before count : Nat) (bound : before + count < Text.limit32) :
      (if count = 0 then before else before + 1) + count ≤ Text.limit32 := by
    split <;> omega
  rw [isHunk]
  exact ⟨start _ _ (by omega), start _ _ (by omega)⟩

end Diff

open Diff

/-- A script written as a diff of one file is read as the lines that it deletes and inserts; without
these lines the old and the new text are the same. -/
theorem Turns.read_changedLines {old new : List String} {script : List (Edit String)}
    (turns : Turns script old new) (oldBound : old.length < Text.limit32)
    (newBound : new.length < Text.limit32) (noFeed : ∀ line ∈ old ++ new, '\n' ∉ line.toList)
    {hunks : List Hunk} (cut : Cut 0 0 script hunks) {top : List (List Char)}
    (opening : Opening top) {file : WrittenFile} (shows : file.Shows hunks) :
    ∃ found : FileDiff,
      Diff.read (String.ofList (Text.terminated (top ++ file.lines))) = .ok [found] ∧
      (∀ line, line ∈ found.changedLines ↔
        (∃ number, line = .removed number ∧ Deletes script number) ∨
          ∃ number, line = .added number ∧ Inserts script number) ∧
      eraseLines (fun number => .removed number ∈ found.changedLines) 1 old =
        eraseLines (fun number => .added number ∈ found.changedLines) 1 new := by
  obtain ⟨rfl, rfl⟩ := turns
  have wellFormed : ∀ written ∈ file.hunks, written.WellFormed := by
    intro written member
    have shown : written.hunk ∈ hunks := shows.shown ▸ List.mem_map_of_mem member
    exact wellFormed_of_cut cut oldBound newBound shown (shows.spells written member)
  have rows : ∀ hunk ∈ hunks, ∀ row ∈ hunk.rows, '\n' ∉ row.text.toList := by
    intro hunk member row inRows
    obtain ⟨edit, inScript, rfl⟩ := cut.mem_rows member inRows
    exact noFeed edit.line (List.mem_append.mpr (mem_texts inScript))
  obtain ⟨headers, read⟩ := shows.read opening wellFormed rows
  have changed (line : ChangedLine) : line ∈ (file.dropReturns.content headers).changedLines ↔
      (∃ number, line = .removed number ∧ Deletes script number) ∨
        ∃ number, line = .added number ∧ Inserts script number := by
    rw [FileDiff.changedLines, SortedSet.mem_ofList, shows.changedLines, cut.changedLines,
      mem_changedLinesFrom]
    simp only [Nat.zero_add]
  refine ⟨file.dropReturns.content headers, read, changed, eraseLines_eq ?_ ?_⟩
  · intro number
    rw [decide_eq_true_iff, changed]
    simp [ChangedLine.removed, ChangedLine.added]
  · intro number
    rw [decide_eq_true_iff, changed]
    simp [ChangedLine.removed, ChangedLine.added]

/-- A deletion below a line with a carriage return, and an insertion at the end. -/
def movedScript : List (Edit String) :=
  [.keep "a\r", .delete "-- b", .keep "c", .keep "d", .insert "++ e"]

def movedHunks : List Hunk :=
  [⟨1, 2, 1, 1, [⟨.kept, "a\r"⟩, ⟨.removed, "-- b"⟩]⟩, ⟨4, 0, 4, 1, [⟨.added, "++ e"⟩]⟩]

theorem movedScript_cut : Cut 0 0 movedScript movedHunks := by
  have deleting : [Edit.keep "a\r", .delete "-- b"] ≠ [] := by simp
  have inserting : [Edit.insert "++ e"] ≠ [] := by simp
  have last : Cut 4 3 ([.insert "++ e"] ++ []) [⟨4, 0, 4, 1, [⟨.added, "++ e"⟩]⟩] :=
    .hunk inserting .done
  exact .hunk deleting (.skip "c" (.skip "d" last))

def movedFile : WrittenFile where
  oldSide := "a/x".toList
  newSide := "b/x".toList
  hunks := movedHunks.map fun hunk => ⟨hunk, hunk.headerText.toList, fun _ => 1⟩

theorem movedFile_shows : movedFile.Shows movedHunks where
  shown := rfl
  spells written member := by
    obtain ⟨hunk, _, rfl⟩ := List.mem_map.mp member
    have spells := SpellsHeader.headerText hunk []
    rwa [List.append_nil] at spells
  headers := by decide
  oldSide := by decide
  newSide := by decide

theorem Turns.read_changedLines_moved :
    Turns movedScript ["a\r", "-- b", "c", "d"] ["a\r", "c", "d", "++ e"] ∧
    Cut 0 0 movedScript movedHunks ∧ movedFile.Shows movedHunks ∧
    ∃ found : FileDiff,
      Diff.read (String.ofList (Text.terminated movedFile.lines)) = .ok [found] ∧
      (∀ line, line ∈ found.changedLines ↔
        (∃ number, line = .removed number ∧ Deletes movedScript number) ∨
          ∃ number, line = .added number ∧ Inserts movedScript number) ∧
      eraseLines (fun number => .removed number ∈ found.changedLines) 1 ["a\r", "-- b", "c", "d"] =
        eraseLines (fun number => .added number ∈ found.changedLines) 1
          ["a\r", "c", "d", "++ e"] := by
  have turns : Turns movedScript ["a\r", "-- b", "c", "d"] ["a\r", "c", "d", "++ e"] := ⟨rfl, rfl⟩
  exact ⟨turns, movedScript_cut, movedFile_shows, turns.read_changedLines (by decide) (by decide)
    (by decide) movedScript_cut .bare movedFile_shows⟩

/-! ### Scripts in writing -/

/-- A script from an old text, cut into hunks and written as a diff of one file. -/
structure WrittenScript (old : List String) where
  new : List String
  script : List (Edit String)
  hunks : List Hunk
  top : List (List Char)
  file : WrittenFile
  turns : Turns script old new
  noFeed : ∀ line ∈ old ++ new, '\n' ∉ line.toList
  cut : Cut 0 0 script hunks
  fits : ∀ hunk ∈ hunks, Fits hunk
  opening : Opening top
  shows : file.Shows hunks

namespace WrittenScript
variable {old : List String}

def text (written : WrittenScript old) : String :=
  String.ofList (Text.terminated (written.top ++ written.file.lines))

theorem wellFormed (written : WrittenScript old) :
    ∀ hunk ∈ written.file.hunks, hunk.WellFormed := by
  intro hunk member
  have shown : hunk.hunk ∈ written.hunks :=
    written.shows.shown ▸ List.mem_map_of_mem member
  exact wellFormed_of_fits written.cut shown (written.fits hunk.hunk shown)
    (written.shows.spells hunk member)

theorem rows_noFeed (written : WrittenScript old) :
    ∀ hunk ∈ written.hunks, ∀ row ∈ hunk.rows, '\n' ∉ row.text.toList := by
  intro hunk member row inRows
  obtain ⟨edit, inScript, rfl⟩ := written.cut.mem_rows member inRows
  have inTexts := List.mem_append.mpr (mem_texts inScript)
  rw [written.turns.oldSide, written.turns.newSide] at inTexts
  exact written.noFeed edit.line inTexts

/-- A written script is read as one file, whose changed lines are those of the script. -/
theorem read (written : WrittenScript old) :
    ∃ found : FileDiff, Diff.read written.text = .ok [found] ∧
      (∀ number, .removed number ∈ found.changedLines ↔ Deletes written.script number) ∧
      ∀ number, .added number ∈ found.changedLines ↔ Inserts written.script number := by
  obtain ⟨headers, read⟩ :=
    written.shows.read written.opening written.wellFormed written.rows_noFeed
  refine ⟨_, read, ?_, ?_⟩
  all_goals
    intro number
    rw [FileDiff.changedLines, SortedSet.mem_ofList, written.shows.changedLines,
      written.cut.changedLines, mem_changedLinesFrom]
    simp [ChangedLine.removed, ChangedLine.added]

/-- A script written as one hunk, without lines above the file. -/
def whole (script : List (Edit String)) (nonempty : script ≠ []) (oldSide : oldText script = old)
    (noFeed : ∀ line ∈ old ++ newText script, '\n' ∉ line.toList)
    (fits : Fits (.ofRows 0 0 (script.map Edit.row)))
    (isLine : IsLine (Hunk.ofRows 0 0 (script.map Edit.row)).headerText.toList) :
    WrittenScript old where
  new := newText script
  script := script
  hunks := [.ofRows 0 0 (script.map Edit.row)]
  top := []
  file := {
    oldSide := "a/x".toList
    newSide := "b/x".toList
    hunks := [⟨.ofRows 0 0 (script.map Edit.row),
      (Hunk.ofRows 0 0 (script.map Edit.row)).headerText.toList, fun _ => 0⟩] }
  turns := ⟨oldSide, rfl⟩
  noFeed := noFeed
  cut := by
    have cut : Cut 0 0 (script ++ []) [.ofRows 0 0 (script.map Edit.row)] := .hunk nonempty .done
    rwa [List.append_nil] at cut
  fits := by simpa using fits
  opening := .bare
  shows := {
    shown := rfl
    spells := by
      have spells := SpellsHeader.headerText (.ofRows 0 0 (script.map Edit.row)) []
      simpa using spells
    headers := by simpa using isLine
    oldSide := show IsLine "a/x".toList by decide
    newSide := show IsLine "b/x".toList by decide }

end WrittenScript

end MergeRisk
