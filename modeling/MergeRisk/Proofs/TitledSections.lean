import MergeRisk.Proofs.DiffReading

/-! Sections below titles that name both sides of a file. The title is not read: the paths of a file
come from its two side lines, so a section without them, such as that of a pure rename, a change of
mode or an empty file, gives a file without a path. -/

namespace MergeRisk

/-- The paths that a file was read with. -/
def FileDiff.paths (file : FileDiff) : String × String :=
  (file.oldPath, file.newPath)

namespace Diff

/-- A section below `diff --git a/old b/new`. It may lack either side line and all hunks. -/
structure TitledSection where
  oldName : List Char
  newName : List Char
  /-- Lines such as `rename from old`, `new file mode 100644` or `index 1..2`. -/
  headers : List (List Char)
  /-- What stands between `Binary files ` and ` differ`, in a binary section. -/
  binary? : Option (List Char) := none
  showsOld : Bool := false
  showsNew : Bool := false
  hunks : List WrittenHunk := []

namespace TitledSection

/-- Whether header lines say that there is no old side. -/
def isNew (written : TitledSection) : Bool :=
  written.headers.any (Text.startsWith "new file mode".toList)

/-- Whether header lines say that there is no new side. -/
def isDeleted (written : TitledSection) : Bool :=
  written.headers.any (Text.startsWith "deleted file mode".toList)

/-- The old and the new path of a section, by its title and its header lines. -/
def paths (written : TitledSection) : String × String :=
  (if written.isNew then missingPath else String.ofList written.oldName,
    if written.isDeleted then missingPath else String.ofList written.newName)

def oldSide (written : TitledSection) : List Char :=
  if written.isNew then missingPath.toList else 'a' :: '/' :: written.oldName

def newSide (written : TitledSection) : List Char :=
  if written.isDeleted then missingPath.toList else 'b' :: '/' :: written.newName

def lines (written : TitledSection) : List (List Char) :=
  ("diff --git ".toList ++ ("a/".toList ++ written.oldName ++ " b/".toList ++ written.newName)) ::
    (written.headers ++
    (written.binary?.toList.map (fun sides => "Binary files ".toList ++ sides ++ " differ".toList) ++
    ((if written.showsOld then ["--- ".toList ++ written.oldSide] else []) ++
    ((if written.showsNew then ["+++ ".toList ++ written.newSide] else []) ++
    written.hunks.flatMap WrittenHunk.lines))))

/-- A path that a title can name without quotes. -/
structure IsName (name : List Char) : Prop where
  nonempty : name ≠ []
  noSpace : ' ' ∉ name
  noQuote : '"' ∉ name
  noFeed : '\n' ∉ name
  noReturn : '\r' ∉ name

structure WellFormed (written : TitledSection) : Prop where
  oldName : IsName written.oldName
  newName : IsName written.newName
  headers : ∀ line ∈ written.headers, isStructural line = false
  hunks : ∀ hunk ∈ written.hunks, hunk.WellFormed

/-- What is read from a section. -/
def content (written : TitledSection) : FileDiff where
  oldPath := if written.showsOld then pathOf written.oldSide else ""
  newPath := if written.showsNew then pathOf written.newSide else ""
  hunks := written.hunks.map WrittenHunk.hunk
  isNew := written.isNew
  isDeleted := written.isDeleted
  isRename := written.headers.any fun line =>
    Text.startsWith "rename from ".toList line || Text.startsWith "rename to ".toList line

theorem oldSide_eq_missing (written : TitledSection) :
    decide (written.oldSide = missingPath.toList) = written.isNew := by
  rw [oldSide]
  cases written.isNew with
  | true => rfl
  | false => rfl

theorem newSide_eq_missing (written : TitledSection) :
    decide (written.newSide = missingPath.toList) = written.isDeleted := by
  rw [newSide]
  cases written.isDeleted with
  | true => rfl
  | false => rfl

end TitledSection

/-! ### Reading sections -/

section
variable {files : List FileDiff} {file : FileDiff} {binary : Bool}

theorem Scan.run_note? (sides? : Option (List Char)) :
    Scan.run ⟨files, .inFile file, binary⟩ (sides?.toList.map fun sides =>
      "Binary files ".toList ++ sides ++ " differ".toList) =
        .ok ⟨files, .inFile file, binary || sides?.isSome⟩ := by
  cases sides? with
  | none =>
    rw [Option.isSome_none, Bool.or_false]
    rfl
  | some sides =>
    rw [Option.isSome_some, Bool.or_true]
    exact run_cons (step_binary sides) []

/-- A side line that may be missing, before the first hunk. -/
theorem Scan.run_oldSide? (unfilled : file.hunks = []) (shown : Bool) (side : List Char) :
    Scan.run ⟨files, .inFile file, binary⟩ (if shown then ["--- ".toList ++ side] else []) =
      .ok ⟨files, .inFile { file with
        oldPath := if shown then pathOf side else file.oldPath
        isNew := file.isNew || (shown && decide (side = missingPath.toList)) }, binary⟩ := by
  cases shown with
  | false => simp [run_nil]
  | true =>
    have opened : Scan.openFile ⟨files, .inFile file, binary⟩ = ⟨files, .inFile file, binary⟩ := by
      simp [openFile, unfilled]
    simpa [run_nil] using run_cons (step_oldSide opened side) []

theorem Scan.run_newSide? (shown : Bool) (side : List Char) :
    Scan.run ⟨files, .inFile file, binary⟩ (if shown then ["+++ ".toList ++ side] else []) =
      .ok ⟨files, .inFile { file with
        newPath := if shown then pathOf side else file.newPath
        isDeleted := file.isDeleted || (shown && decide (side = missingPath.toList)) }, binary⟩ := by
  cases shown with
  | false => simp [run_nil]
  | true => simpa [run_nil] using run_cons (step_newSide side) []

end

/-- A section is read as its content, and marked if it is binary. -/
theorem Scan.run_titled (scan : Scan) {written : TitledSection} (wellFormed : written.WellFormed) :
    scan.run written.lines =
      .ok ⟨scan.finished, .inFile written.content, written.binary?.isSome⟩ := by
  have unfilled : (marked {} written.headers).hunks = [] := rfl
  rw [TitledSection.lines, run_cons (scan.step_title _), run_append (run_extended wellFormed.headers),
    run_append (run_note? _), run_append (run_oldSide? unfilled ..), run_append (run_newSide? ..),
    run_hunks wellFormed.hunks, written.oldSide_eq_missing, written.newSide_eq_missing]
  simp [TitledSection.content, marked, TitledSection.isNew, TitledSection.isDeleted]

/-- The sections of a diff in order. -/
structure TitledDiff where
  sections : List TitledSection

namespace TitledDiff

def lines (diff : TitledDiff) : List (List Char) :=
  diff.sections.flatMap TitledSection.lines

def text (diff : TitledDiff) : String :=
  String.ofList (Text.terminated diff.lines)

/-- The sections are well formed, and each line is a line when it is read. -/
structure WellFormed (diff : TitledDiff) : Prop where
  isLine : ∀ line ∈ diff.lines, Text.IsLine line
  sections : ∀ written ∈ diff.sections, written.WellFormed

/-- The sections of text files. -/
def textual (diff : TitledDiff) : List TitledSection :=
  diff.sections.filter (·.binary?.isNone)

def content (diff : TitledDiff) : List FileDiff :=
  diff.textual.map TitledSection.content

theorem read_eq {diff : TitledDiff} (wellFormed : diff.WellFormed) :
    Diff.read diff.text = .ok diff.content := by
  have adds : ∀ written ∈ diff.sections, ∀ scan : Scan, ∃ next,
      scan.run written.lines = .ok next ∧ next.finished = scan.finished ++
        if written.binary?.isNone then [written.content] else [] := by
    intro written member scan
    refine ⟨_, scan.run_titled (wellFormed.sections written member), ?_⟩
    cases written.binary? <;> simp [Scan.finished, Place.file?]
  have added (sections : List TitledSection) : (sections.flatMap fun written =>
      if written.binary?.isNone then [written.content] else []) =
        (sections.filter (·.binary?.isNone)).map TitledSection.content := by
    induction sections with
    | nil => rfl
    | cons written sections ih =>
      rw [List.flatMap_cons, ih, List.filter_cons]
      split <;> rfl
  obtain ⟨scan, ran, finished⟩ := Scan.run_parts adds {}
  rw [text, read_terminated wellFormed.isLine, lines, ofLines_eq ran, finished, added]
  rfl

end TitledDiff

/-! ### Files that can be told apart -/

/-- Files that are identified by the sections they were read from: they have the paths of these, their
own path is not empty, and they differ in their paths where the sections do. -/
structure Identified (sections : List TitledSection) (files : List FileDiff) : Prop where
  paths : files.map FileDiff.paths = sections.map TitledSection.paths
  named : ∀ file ∈ files, file.path ≠ ""
  apart : (sections.map TitledSection.paths).Nodup → (files.map FileDiff.paths).Nodup

namespace TitledSection
variable {written : TitledSection}

/-- A section shows both its sides, and whole: a name would be cut at a tab. -/
structure ShowsPaths (written : TitledSection) : Prop where
  old : written.showsOld = true
  new : written.showsNew = true
  oldWhole : written.isNew = true ∨ '\t' ∉ written.oldName
  newWhole : written.isDeleted = true ∨ '\t' ∉ written.newName

theorem ofList_ne_empty {name : List Char} (nonempty : name ≠ []) : String.ofList name ≠ "" := by
  rw [ne_eq, ← String.toList_inj, String.toList_ofList]
  exact nonempty

/-- A side line gives the path of its side unless a tab cuts it; without the line the path is empty. -/
theorem side_eq_iff {c : Char} (isSide : c = 'a' ∨ c = 'b') {name : List Char} (isName : IsName name)
    (shown missing : Bool) :
    ((if shown then pathOf (if missing then missingPath.toList else c :: '/' :: name) else "") =
      if missing then missingPath else String.ofList name) ↔
      shown = true ∧ (missing = true ∨ '\t' ∉ name) := by
  cases missing with
  | true =>
    cases shown with
    | true =>
      have read : pathOf missingPath.toList = missingPath := by decide
      simp [read]
    | false =>
      have named : "" ≠ missingPath := by decide
      simp [named]
  | false =>
    cases shown with
    | true =>
      rw [← Text.before_eq_self_iff]
      simp [pathOf_unquoted isSide isName.noQuote, ← String.toList_inj]
    | false => simp [Ne.symm (ofList_ne_empty isName.nonempty)]

theorem paths_content_iff (wellFormed : written.WellFormed) :
    written.content.paths = written.paths ↔ written.ShowsPaths := by
  have old := side_eq_iff (.inl rfl) wellFormed.oldName written.showsOld written.isNew
  have new := side_eq_iff (.inr rfl) wellFormed.newName written.showsNew written.isDeleted
  rw [FileDiff.paths, paths, Prod.mk.injEq]
  constructor
  · rintro ⟨oldPath, newPath⟩
    obtain ⟨showsOld, oldWhole⟩ := old.mp oldPath
    obtain ⟨showsNew, newWhole⟩ := new.mp newPath
    exact ⟨showsOld, showsNew, oldWhole, newWhole⟩
  · intro shows
    exact ⟨old.mpr ⟨shows.old, shows.oldWhole⟩, new.mpr ⟨shows.new, shows.newWhole⟩⟩

/-- The sides of a section are never empty. -/
theorem path_ne_empty (wellFormed : written.WellFormed)
    (same : written.content.paths = written.paths) : written.content.path ≠ "" := by
  obtain ⟨oldPath, newPath⟩ := Prod.mk.inj same
  have named : missingPath ≠ "" := by decide
  rw [FileDiff.path]
  split
  · rw [oldPath]
    split
    · exact named
    · exact ofList_ne_empty wellFormed.oldName.nonempty
  · rw [newPath]
    split
    · exact named
    · exact ofList_ne_empty wellFormed.newName.nonempty

end TitledSection

/-- The files of a diff are identified by their sections exactly when each section of a text file has
both side lines. -/
theorem TitledDiff.identified_iff (diff : TitledDiff) (wellFormed : diff.WellFormed) :
    Diff.read diff.text = .ok diff.content ∧
    (Identified diff.textual diff.content ↔ ∀ written ∈ diff.textual, written.ShowsPaths) := by
  refine ⟨read_eq wellFormed, ?_⟩
  have sections : ∀ written ∈ diff.textual, written.WellFormed := fun written member =>
    wellFormed.sections written (List.mem_filter.mp member).1
  have paths : diff.content.map FileDiff.paths = diff.textual.map TitledSection.paths ↔
      ∀ written ∈ diff.textual, written.ShowsPaths := by
    rw [content, List.map_map, List.map_inj_left]
    constructor
    · intro same written member
      exact (TitledSection.paths_content_iff (sections written member)).mp (same written member)
    · intro shows written member
      exact (TitledSection.paths_content_iff (sections written member)).mpr (shows written member)
  rw [← paths]
  constructor
  · exact Identified.paths
  · intro same
    refine ⟨same, ?_, ?_⟩
    · intro file member
      obtain ⟨written, inside, rfl⟩ := List.mem_map.mp member
      apply TitledSection.path_ne_empty (sections written inside)
      exact (TitledSection.paths_content_iff (sections written inside)).mpr
        (paths.mp same written inside)
    · intro distinct
      rwa [same]

/-- A renamed file with a hunk, and a binary one. -/
def movedDiff : TitledDiff where
  sections :=
    [{ oldName := "A.java".toList
       newName := "b/B.java".toList
       headers := ["similarity index 90%".toList, "rename from A.java".toList]
       showsOld := true
       showsNew := true
       hunks := [dashedHunk] },
     { oldName := "logo.png".toList
       newName := "logo.png".toList
       headers := ["index 1..2 100644".toList]
       binary? := some "a/logo.png and b/logo.png".toList }]

theorem movedDiff_wellFormed : movedDiff.WellFormed := by
  refine ⟨by decide, ?_⟩
  intro written member
  simp only [movedDiff, List.mem_cons, List.not_mem_nil, or_false] at member
  rcases member with rfl | rfl
  · refine ⟨?_, ?_, by decide, by simpa using dashedHunk_wellFormed⟩
    · constructor <;> decide
    · constructor <;> decide
  · refine ⟨?_, ?_, by decide, by simp⟩
    · constructor <;> decide
    · constructor <;> decide

theorem TitledDiff.identified_iff_moved : movedDiff.WellFormed ∧
    Diff.read movedDiff.text =
      .ok [⟨"A.java", "b/B.java", [dashedHunk.hunk], false, false, true⟩] ∧
    Identified movedDiff.textual movedDiff.content := by
  obtain ⟨read, identified⟩ := TitledDiff.identified_iff movedDiff movedDiff_wellFormed
  refine ⟨movedDiff_wellFormed, read, identified.mpr ?_⟩
  intro written member
  obtain rfl := List.mem_singleton.mp member
  exact ⟨rfl, rfl, .inr (by decide), .inr (by decide)⟩

/-- A pure rename. -/
def renameDiff : TitledDiff where
  sections :=
    [{ oldName := "Old.java".toList
       newName := "New.java".toList
       headers := ["similarity index 100%".toList, "rename from Old.java".toList,
         "rename to New.java".toList] }]

theorem renameDiff_wellFormed : renameDiff.WellFormed := by
  refine ⟨by decide, List.forall_mem_singleton.mpr ⟨?_, ?_, by decide, by simp⟩⟩
  · constructor <;> decide
  · constructor <;> decide

/-- The files of a diff are not always identified by their sections. -/
theorem TitledDiff.rename_unidentified :
    ¬ ∀ diff : TitledDiff, diff.WellFormed →
      ∃ files, Diff.read diff.text = .ok files ∧ Identified diff.textual files := by
  intro identifies
  obtain ⟨files, read, identified⟩ := identifies renameDiff renameDiff_wellFormed
  rw [read_eq renameDiff_wellFormed] at read
  obtain rfl := Except.ok.inj read
  have paths := identified.paths
  revert paths
  decide

end Diff

end MergeRisk
