import MergeRisk.Proofs.DiffReading

/-! The sections of a diff. A line opens a file, and the section of the file goes on to the next line
that opens one; its lines outside hunks are its header lines. Every file of a diff has such a section,
which gives it where it ends. -/

namespace MergeRisk.Diff

/-! ### Reading a section -/

/-- Whether a `---` line opens a file at a place: no file is open there, or the open one has hunks. -/
def Place.startsFile : Place → Bool
  | outside => true
  | inFile file => !file.hunks.isEmpty
  | inHunk _ _ => false

def Place.isInHunk : Place → Bool
  | inHunk _ _ => true
  | _ => false

/-- Whether a line opens a file. A title does so anywhere. -/
def Scan.opensFile (scan : Scan) (line : List Char) : Bool :=
  Text.startsWith "diff --git ".toList line ||
    Text.startsWith "--- ".toList line && scan.place.startsFile

/-- Reading the section of a file from the line that opens it, before any other line does. The header
lines are those outside hunks. -/
inductive ReadsSection (start : Scan) : (own headers : List (List Char)) → Scan → Prop where
  | opening {line : List Char} {next : Scan} (opens : start.opensFile line = true)
      (read : start.step line = .ok next) : ReadsSection start [line] [line] next
  | header {own headers : List (List Char)} {scan next : Scan} {line : List Char}
      (earlier : ReadsSection start own headers scan) (stays : scan.opensFile line = false)
      (outside : scan.place.isInHunk = false) (read : scan.step line = .ok next) :
      ReadsSection start (own ++ [line]) (headers ++ [line]) next
  | row {own headers : List (List Char)} {scan next : Scan} {line : List Char}
      (earlier : ReadsSection start own headers scan) (stays : scan.opensFile line = false)
      (inside : scan.place.isInHunk = true) (read : scan.step line = .ok next) :
      ReadsSection start (own ++ [line]) headers next

/-- Among the lines is the section of a file, with its header lines. It starts with a line that opens
a file, ends with the last line or before the next one that opens a file, and gives the file there. -/
def HasSection (lines headers : List (List Char)) (file : FileDiff) : Prop :=
  ∃ before own after start stop, lines = before ++ own ++ after ∧ Scan.run {} before = .ok start ∧
    ReadsSection start own headers stop ∧ stop.place.file? = some file ∧
    ∀ line ∈ after.head?, stop.opensFile line = true

theorem ReadsSection.sublist {start stop : Scan} {own headers : List (List Char)}
    (reads : ReadsSection start own headers stop) : headers.Sublist own := by
  induction reads with
  | opening => exact List.Sublist.refl _
  | header _ _ _ _ ih => exact ih.append (List.Sublist.refl _)
  | row _ _ _ _ ih => exact ih.trans (List.sublist_append_left _ _)

theorem HasSection.sublist {lines headers : List (List Char)} {file : FileDiff}
    (has : HasSection lines headers file) : headers.Sublist lines := by
  obtain ⟨before, own, after, start, stop, rfl, _, reads, _⟩ := has
  have inOwn : own.Sublist (before ++ own) := List.sublist_append_right before own
  exact (reads.sublist.trans inOwn).trans (List.sublist_append_left _ after)

/-! ### Lines that open a file -/

section
variable {scan next : Scan} {line : List Char} {lines : List (List Char)}

theorem Scan.openFile_of_startsFile (starts : scan.place.startsFile = true) :
    scan.openFile = ⟨scan.files ++ scan.place.file?.toList, .inFile {}, scan.binary⟩ := by
  unfold openFile
  cases place : scan.place with
  | outside => simp [Place.file?]
  | inFile file =>
    rw [place, Place.startsFile, Bool.not_eq_true'] at starts
    simp [starts, Place.file?]
  | inHunk file hunk =>
    rw [place] at starts
    cases starts

theorem Scan.openFile_of_not_startsFile (stays : scan.place.startsFile = false) :
    scan.openFile = scan := by
  unfold openFile
  cases place : scan.place with
  | outside =>
    rw [place] at stays
    cases stays
  | inFile file =>
    rw [place, Place.startsFile, Bool.not_eq_false'] at stays
    exact if_pos stays
  | inHunk file hunk => rfl

theorem Scan.step_of_stays (stays : scan.opensFile line = false) :
    scan.step line = scan.fileLine line := by
  obtain ⟨untitled, unopened⟩ := Bool.or_eq_false_iff.mp stays
  rw [step, if_neg (Bool.not_eq_true _ ▸ untitled)]
  split
  · rename_i oldSide
    rw [oldSide, Bool.true_and] at unopened
    rw [openFile_of_not_startsFile unopened]
  · rfl

theorem Scan.step_of_oldSide (opens : scan.opensFile line = true)
    (untitled : ¬ Text.startsWith "diff --git ".toList line = true) :
    scan.step line =
      fileLine ⟨scan.files ++ scan.place.file?.toList, .inFile {}, scan.binary⟩ line := by
  rcases (Bool.or_eq_true _ _).mp opens with title | both
  · exact absurd title untitled
  · obtain ⟨oldSide, starts⟩ := (Bool.and_eq_true _ _).mp both
    rw [step, if_neg untitled, if_pos oldSide, openFile_of_startsFile starts]

/-! Only a line that opens a file finishes one. -/

theorem Scan.mem_of_mem_finished {scan : Scan} {file : FileDiff} (member : file ∈ scan.finished) :
    file ∈ scan.files ++ scan.place.file?.toList := by
  unfold finished at member
  split at member
  · exact List.mem_append_left _ member
  · exact member

theorem Scan.bodyLine_files (read : scan.bodyLine line = .ok next) : next.files = scan.files := by
  unfold bodyLine at read
  split at read
  · split at read
    · cases read
      rfl
    · cases header : readHeader line with
      | error fault =>
        rw [header] at read
        cases read
      | ok hunk =>
        rw [header] at read
        cases read
        rfl
  · split at read
    · cases read
      rfl
    · split at read <;> cases read <;> rfl

theorem Scan.fileLine_files (read : scan.fileLine line = .ok next) : next.files = scan.files := by
  unfold fileLine at read
  split at read
  · cases read
    rfl
  · split at read
    · cases read
      rfl
    · split at read
      · cases read
        rfl
      · exact bodyLine_files read
  · split at read
    · cases read
      rfl
    · exact bodyLine_files read

theorem Scan.step_files_of_opens (opens : scan.opensFile line = true)
    (read : scan.step line = .ok next) {file : FileDiff} (member : file ∈ next.files) :
    file ∈ scan.files ++ scan.place.file?.toList := by
  by_cases title : Text.startsWith "diff --git ".toList line = true
  · rw [step, if_pos title] at read
    cases read
    exact mem_of_mem_finished member
  · rw [step_of_oldSide opens title] at read
    rwa [fileLine_files read] at member

/-! ### Every file has a section -/

/-- The lines read so far are divided into sections: the finished files have theirs whatever comes
next, and the section of the open file goes on. -/
structure Scan.Sectioned (lines : List (List Char)) (scan : Scan) : Prop where
  finished : ∀ file ∈ scan.files, ∃ headers, ∀ more, HasSection (lines ++ more) headers file
  current : ∀ file, scan.place.file? = some file → ∃ before own headers start,
    lines = before ++ own ∧ Scan.run {} before = .ok start ∧ ReadsSection start own headers scan

namespace Scan.Sectioned

/-- The section of the open file ends where a line opens another one, or with the last line. -/
theorem ended (sectioned : scan.Sectioned lines) {file : FileDiff}
    (isOpen : scan.place.file? = some file) :
    ∃ headers, ∀ more, (∀ line ∈ more.head?, scan.opensFile line = true) →
      HasSection (lines ++ more) headers file := by
  obtain ⟨before, own, headers, start, rfl, ran, reads⟩ := sectioned.current file isOpen
  refine ⟨headers, ?_⟩
  intro more ends
  exact ⟨before, own, more, start, scan, rfl, ran, reads, isOpen, ends⟩

theorem kept (sectioned : scan.Sectioned lines) (line : List Char) {file : FileDiff}
    (member : file ∈ scan.files) :
    ∃ headers, ∀ more, HasSection (lines ++ [line] ++ more) headers file := by
  obtain ⟨headers, has⟩ := sectioned.finished file member
  refine ⟨headers, ?_⟩
  intro more
  rw [List.append_assoc]
  exact has ([line] ++ more)

theorem opened (sectioned : scan.Sectioned lines) (ran : Scan.run {} lines = .ok scan)
    (opens : scan.opensFile line = true) (read : scan.step line = .ok next) :
    next.Sectioned (lines ++ [line]) := by
  constructor
  · intro file member
    rcases List.mem_append.mp (step_files_of_opens opens read member) with earlier | isOpen
    · exact sectioned.kept line earlier
    · obtain ⟨headers, has⟩ := sectioned.ended (Option.mem_toList.mp isOpen)
      refine ⟨headers, ?_⟩
      intro more
      rw [List.append_assoc]
      apply has
      intro first isFirst
      cases isFirst
      exact opens
  · intro file isOpen
    exact ⟨lines, [line], [line], scan, rfl, ran, .opening opens read⟩

theorem stayed (sectioned : scan.Sectioned lines) (stays : scan.opensFile line = false)
    (read : scan.step line = .ok next) : next.Sectioned (lines ++ [line]) := by
  have within := read
  rw [step_of_stays stays] at within
  constructor
  · intro file member
    rw [fileLine_files within] at member
    exact sectioned.kept line member
  · intro file isOpen
    have wasOpen : ∃ earlier, scan.place.file? = some earlier := by
      cases place : scan.place with
      | outside =>
        simp only [fileLine, place] at within
        cases within
        rw [place] at isOpen
        cases isOpen
      | inFile earlier => exact ⟨_, rfl⟩
      | inHunk earlier hunk => exact ⟨_, rfl⟩
    obtain ⟨earlier, wasOpen⟩ := wasOpen
    obtain ⟨before, own, headers, start, rfl, ran, reads⟩ := sectioned.current earlier wasOpen
    rw [List.append_assoc]
    cases inside : scan.place.isInHunk with
    | false => exact ⟨before, own ++ [line], headers ++ [line], start, rfl, ran,
        .header reads stays inside read⟩
    | true => exact ⟨before, own ++ [line], headers, start, rfl, ran, .row reads stays inside read⟩

theorem step (sectioned : scan.Sectioned lines) (ran : Scan.run {} lines = .ok scan)
    (read : scan.step line = .ok next) : next.Sectioned (lines ++ [line]) := by
  cases opens : scan.opensFile line with
  | true => exact sectioned.opened ran opens read
  | false => exact sectioned.stayed opens read

theorem run {rest : List (List Char)} (sectioned : scan.Sectioned lines)
    (ran : Scan.run {} lines = .ok scan) (ranRest : scan.run rest = .ok next) :
    next.Sectioned (lines ++ rest) := by
  induction rest generalizing lines scan with
  | nil =>
    cases ranRest
    rwa [List.append_nil]
  | cons line rest ih =>
    cases read : scan.step line with
    | error fault =>
      rw [Scan.run, List.foldlM_cons, read] at ranRest
      cases ranRest
    | ok middle =>
      rw [Scan.run_cons read] at ranRest
      have ranLine : Scan.run {} (lines ++ [line]) = .ok middle := by
        rw [Scan.run_append ran, Scan.run_cons read, Scan.run_nil]
      rw [List.append_cons]
      exact ih (sectioned.step ran read) ranLine ranRest

end Scan.Sectioned

end

/-- Each file of a diff has a section of its own in it. -/
theorem exists_hasSection {source : String} {files : List FileDiff}
    (accepted : read source = .ok files) {file : FileDiff} (member : file ∈ files) :
    ∃ headers, HasSection (Text.lines source.toList) headers file := by
  obtain ⟨scan, ran, rfl⟩ := exists_run_of_read accepted
  have start : Scan.Sectioned [] {} := by
    constructor
    · intro file finished
      cases finished
    · intro file isOpen
      cases isOpen
  have sectioned : scan.Sectioned (Text.lines source.toList) := start.run (Scan.run_nil {}) ran
  rw [← List.append_nil (Text.lines source.toList)]
  rcases List.mem_append.mp (Scan.mem_of_mem_finished member) with finished | isOpen
  · obtain ⟨headers, has⟩ := sectioned.finished file finished
    exact ⟨headers, has []⟩
  · obtain ⟨headers, has⟩ := sectioned.ended (Option.mem_toList.mp isOpen)
    refine ⟨headers, has [] ?_⟩
    intro line isFirst
    cases isFirst

end MergeRisk.Diff
