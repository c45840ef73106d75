import MergeRisk.Proofs.DiffReading

/-! Bare patches with notes about binary files between their files. A note marks what is being read,
and without a `diff --git` line nothing takes the mark back. The mark is looked at only at the end, so
it is the last file that a note costs, wherever after the first file it stands. -/

namespace MergeRisk.Diff

/-- A part of a bare patch. -/
inductive BarePart where
  | file (written : WrittenFile)
  /-- What stands between `Binary files ` and ` differ` names the sides. -/
  | note (sides : List Char)

namespace BarePart

def lines : BarePart → List (List Char)
  | file written => written.lines
  | note sides => ["Binary files ".toList ++ sides ++ " differ".toList]

def WellFormed : BarePart → Prop
  | file written => written.WellFormed
  | note _ => True

def isNote : BarePart → Bool
  | file _ => false
  | note _ => true

/-- What a part says; a note says nothing about text files. -/
def content? : BarePart → Option FileDiff
  | file written => some (written.content [])
  | note _ => none

end BarePart

/-- The parts of a bare patch in order. -/
structure BarePatch where
  parts : List BarePart

namespace BarePatch

def lines (patch : BarePatch) : List (List Char) :=
  patch.parts.flatMap BarePart.lines

def text (patch : BarePatch) : String :=
  String.ofList (Text.terminated patch.lines)

/-- The parts are well formed, and each line is a line when it is read. -/
structure WellFormed (patch : BarePatch) : Prop where
  isLine : ∀ line ∈ patch.lines, Text.IsLine line
  parts : ∀ part ∈ patch.parts, part.WellFormed

/-- What a patch says about its text files, in order. -/
def content (patch : BarePatch) : List FileDiff :=
  patch.parts.filterMap BarePart.content?

/-- Whether a note stands anywhere after the first file. -/
def notesFile (patch : BarePatch) : Bool :=
  (patch.parts.dropWhile BarePart.isNote).any BarePart.isNote

end BarePatch

/-! ### Between the parts -/

/-- A scan between the parts of a bare patch: the files so far, of which the last is still open, and
whether it was marked. -/
inductive Between : (files : List FileDiff) → (marked : Bool) → Scan → Prop where
  | start : Between [] false {}
  | after {earlier : List FileDiff} {file : FileDiff} {marked : Bool} (hunks : file.hunks ≠ []) :
      Between (earlier ++ [file]) marked ⟨earlier, .inFile file, marked⟩

theorem Between.finished {files : List FileDiff} {marked : Bool} {scan : Scan}
    (between : Between files marked scan) :
    scan.finished = if marked then files.dropLast else files := by
  cases between with
  | start => rfl
  | @after earlier file marked hunks =>
    rw [List.dropLast_concat]
    rfl

theorem Scan.step_note_outside (sides : List Char) :
    Scan.step {} ("Binary files ".toList ++ sides ++ " differ".toList) = .ok {} := by
  have untitled : ¬ Text.startsWith "diff --git ".toList
      ("Binary files ".toList ++ sides ++ " differ".toList) = true := by
    simp [Text.startsWith, Text.stripStart?]
  have noSide : ¬ Text.startsWith "--- ".toList
      ("Binary files ".toList ++ sides ++ " differ".toList) = true := by
    simp [Text.startsWith, Text.stripStart?]
  rw [step, if_neg untitled, if_neg noSide]
  rfl

/-- A note marks the open file; before the first file there is nothing to mark. -/
theorem Between.note {files : List FileDiff} {marked : Bool} {scan : Scan}
    (between : Between files marked scan) (sides : List Char) :
    ∃ next, scan.run (BarePart.note sides).lines = .ok next ∧
      Between files (marked || !files.isEmpty) next := by
  rw [BarePart.lines]
  cases between with
  | start =>
    refine ⟨{}, ?_, .start⟩
    rw [Scan.run_cons (Scan.step_note_outside sides), Scan.run_nil]
  | @after earlier file marked hunks =>
    refine ⟨⟨earlier, .inFile file, true⟩, ?_, ?_⟩
    · rw [Scan.run_cons (Scan.step_binary sides), Scan.run_nil]
    · have nonempty : (earlier ++ [file]).isEmpty = false := by simp
      rw [nonempty, Bool.not_false, Bool.or_true]
      exact .after hunks

/-- A file is added to those before it, and the mark stays. -/
theorem Between.file {files : List FileDiff} {marked : Bool} {scan : Scan}
    (between : Between files marked scan) {written : WrittenFile} (wellFormed : written.WellFormed) :
    ∃ next, scan.run written.lines = .ok next ∧
      Between (files ++ [written.content []]) marked next := by
  have hunks : (written.content []).hunks ≠ [] := by
    simpa [WrittenFile.content] using wellFormed.nonempty
  have opened : scan.openFile = ⟨files, .inFile (Diff.marked {} []), marked⟩ := by
    rw [marked_nil]
    cases between with
    | start => rfl
    | @after earlier file marked previous =>
      have filled : ¬ file.hunks.isEmpty = true := by simpa using previous
      simp only [Scan.openFile, if_neg filled]
  exact ⟨_, Scan.run_file opened wellFormed.hunks, .after hunks⟩

/-- Whether a note among the parts marks a file, where one may have been read before them. -/
def marksFile (opened : Bool) (parts : List BarePart) : Bool :=
  (if opened then parts else parts.dropWhile BarePart.isNote).any BarePart.isNote

theorem marksFile_note (opened : Bool) (sides : List Char) (parts : List BarePart) :
    marksFile opened (.note sides :: parts) = (opened || marksFile opened parts) := by
  have isNote : (BarePart.note sides).isNote = true := rfl
  cases opened with
  | false => simp only [marksFile, Bool.false_eq_true, if_false, List.dropWhile_cons_of_pos isNote,
      Bool.false_or]
  | true => simp only [marksFile, if_true, List.any_cons, isNote]

theorem marksFile_file (opened : Bool) (written : WrittenFile) (parts : List BarePart) :
    marksFile opened (.file written :: parts) = marksFile true parts := by
  have noNote : ¬ (BarePart.file written).isNote = true := Bool.false_ne_true
  have first : (BarePart.file written).isNote = false := rfl
  cases opened with
  | false => simp only [marksFile, Bool.false_eq_true, if_false, List.dropWhile_cons_of_neg noNote,
      if_true, List.any_cons, first, Bool.false_or]
  | true => simp only [marksFile, if_true, List.any_cons, first, Bool.false_or]

theorem Between.run {files : List FileDiff} {marked : Bool} {scan : Scan}
    (between : Between files marked scan) {parts : List BarePart}
    (wellFormed : ∀ part ∈ parts, part.WellFormed) :
    ∃ next, scan.run (parts.flatMap BarePart.lines) = .ok next ∧
      Between (files ++ parts.filterMap BarePart.content?)
        (marked || marksFile (!files.isEmpty) parts) next := by
  induction parts generalizing files marked scan with
  | nil =>
    refine ⟨scan, rfl, ?_⟩
    simpa [marksFile] using between
  | cons part parts ih =>
    obtain ⟨first, rest⟩ := List.forall_mem_cons.mp wellFormed
    cases part with
    | note sides =>
      obtain ⟨middle, ran, marking⟩ := between.note sides
      obtain ⟨next, ranRest, done⟩ := ih marking rest
      refine ⟨next, ?_, ?_⟩
      · rw [List.flatMap_cons, Scan.run_append ran, ranRest]
      · rw [marksFile_note, ← Bool.or_assoc]
        exact done
    | file written =>
      obtain ⟨middle, ran, added⟩ := between.file first
      obtain ⟨next, ranRest, done⟩ := ih added rest
      refine ⟨next, ?_, ?_⟩
      · rw [List.flatMap_cons, BarePart.lines, Scan.run_append ran, ranRest]
      · have opened : (!(files ++ [written.content []]).isEmpty) = true := by simp
        rw [opened, List.append_assoc] at done
        rw [marksFile_file]
        exact done

/-- A note after the first file needs a file. -/
theorem BarePatch.content_ne_nil {patch : BarePatch} (notes : patch.notesFile = true) :
    patch.content ≠ [] := by
  intro empty
  have noFile : ∀ part ∈ patch.parts, part.isNote = true := by
    intro part member
    cases part with
    | note sides => rfl
    | file written =>
      have kept : written.content [] ∈ patch.content :=
        List.mem_filterMap.mpr ⟨.file written, member, rfl⟩
      rw [empty] at kept
      cases kept
  rw [notesFile, List.dropWhile_eq_nil_iff.mpr noFile] at notes
  cases notes

theorem BarePatch.read_eq {patch : BarePatch} (wellFormed : patch.WellFormed) :
    Diff.read patch.text =
      .ok (if patch.notesFile then patch.content.dropLast else patch.content) := by
  obtain ⟨scan, ran, between⟩ := Between.start.run wellFormed.parts
  rw [← lines] at ran
  rw [text, read_terminated wellFormed.isLine, ofLines_eq ran, between.finished]
  rfl

/-- A bare patch is read as its text files, without the last one where a note stands anywhere after the
first. So the files are all there exactly if the notes come before them. -/
theorem BarePatch.read_noted (patch : BarePatch) (wellFormed : patch.WellFormed) :
    Diff.read patch.text = .ok (if patch.notesFile then patch.content.dropLast else patch.content) ∧
    (Diff.read patch.text = .ok patch.content ↔ patch.notesFile = false) := by
  refine ⟨read_eq wellFormed, ?_⟩
  rw [read_eq wellFormed, Except.ok.injEq]
  cases notes : patch.notesFile with
  | false => simp
  | true =>
    simp only [if_true, Bool.true_eq_false, iff_false]
    intro same
    have positive := List.length_pos_iff.mpr (content_ne_nil notes)
    have lengths := congrArg List.length same
    rw [List.length_dropLast] at lengths
    omega

/-- Two text files with notes before, between and after them. -/
def notedPatch : BarePatch where
  parts := [.note "a/icon.png and b/icon.png".toList,
    .file ⟨"a/First.java".toList, "b/First.java".toList, [dashedHunk]⟩,
    .note "a/photo.png and /dev/null".toList,
    .file ⟨"/dev/null".toList, "b/Second.java".toList, [insertingHunk]⟩,
    .note "/dev/null and b/sound.wav".toList]

theorem notedPatch_wellFormed : notedPatch.WellFormed := by
  refine ⟨by decide, ?_⟩
  intro part member
  simp only [notedPatch, List.mem_cons, List.not_mem_nil, or_false] at member
  rcases member with rfl | rfl | rfl | rfl | rfl
  · trivial
  · exact ⟨List.cons_ne_nil _ _, by simpa using dashedHunk_wellFormed⟩
  · trivial
  · exact ⟨List.cons_ne_nil _ _, by simpa using insertingHunk_wellFormed⟩
  · trivial

/-- Only the first file of the patch. -/
def firstFile : FileDiff :=
  ⟨"First.java", "First.java", [dashedHunk.hunk], false, false, false⟩

theorem BarePatch.read_noted_twice :
    notedPatch.WellFormed ∧ Diff.read notedPatch.text = .ok [firstFile] := by
  refine ⟨notedPatch_wellFormed, ?_⟩
  have notes : notedPatch.notesFile = true := rfl
  have kept : notedPatch.content.dropLast = [firstFile] := by decide
  have read := (BarePatch.read_noted notedPatch notedPatch_wellFormed).1
  rwa [notes, if_pos rfl, kept] at read

/-- A note removes a text file. -/
theorem BarePatch.note_removes_file :
    ¬ ∀ patch : BarePatch, patch.WellFormed → Diff.read patch.text = .ok patch.content := by
  intro kept
  have read := kept notedPatch notedPatch_wellFormed
  rw [read_eq notedPatch_wellFormed, Except.ok.injEq] at read
  have counts : 1 = 2 := congrArg List.length read
  cases counts

end MergeRisk.Diff
