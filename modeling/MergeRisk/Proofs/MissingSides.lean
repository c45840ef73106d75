import MergeRisk.Proofs.FileSections

/-! Files without an old or a new side. The paths of a file are read from the header lines of its own
section with times, quotes and directories taken off, but only the bare path of a missing side marks
the file as new or deleted. A side that is missing in any other spelling leaves the file unmarked. -/

namespace MergeRisk.Diff

/-! ### What header lines say -/

/-- What follows a mark such as `+++ ` in the last of the lines that start with it. -/
def lastSide? (mark : List Char) (headers : List (List Char)) : Option (List Char) :=
  (headers.filterMap (Text.stripStart? mark)).getLast?

/-- Whether a line says that a side is missing, by a declaration such as `deleted file mode` or by the
bare path after the mark of the side. -/
def saysMissing (mark declaration line : List Char) : Bool :=
  Text.startsWith declaration line || line = mark ++ missingPath.toList

/-- A file as header lines make it, whatever its hunks are. -/
structure HeadedBy (headers : List (List Char)) (file : FileDiff) : Prop where
  oldPath : file.oldPath = (lastSide? "--- ".toList headers).elim "" pathOf
  newPath : file.newPath = (lastSide? "+++ ".toList headers).elim "" pathOf
  isNew : file.isNew = headers.any (saysMissing "--- ".toList "new file mode".toList)
  isDeleted : file.isDeleted = headers.any (saysMissing "+++ ".toList "deleted file mode".toList)
  isRename : file.isRename = headers.any fun line =>
    Text.startsWith "rename from ".toList line || Text.startsWith "rename to ".toList line

theorem lastSide?_concat (mark : List Char) (headers : List (List Char)) (line : List Char) :
    lastSide? mark (headers ++ [line]) = (Text.stripStart? mark line).or (lastSide? mark headers) := by
  rw [lastSide?, List.filterMap_append, List.getLast?_append]
  cases found : Text.stripStart? mark line with
  | none => simp [found, lastSide?]
  | some side => simp [found]

theorem ne_append_of_stripStart?_eq_none {mark text : List Char}
    (unmarked : Text.stripStart? mark text = none) (rest : List Char) : text ≠ mark ++ rest := by
  rintro rfl
  rw [Text.stripStart?_append] at unmarked
  cases unmarked

theorem saysMissing_of_stripStart?_eq_none {mark line : List Char}
    (unmarked : Text.stripStart? mark line = none) (declaration : List Char) :
    saysMissing mark declaration line = Text.startsWith declaration line := by
  have other := ne_append_of_stripStart?_eq_none unmarked missingPath.toList
  rw [saysMissing, decide_eq_false other, Bool.or_false]

/-- A line outside hunks sets the path of the side that it names and adds the marks that it bears. -/
theorem headerLine?_getD (file : FileDiff) (line : List Char) :
    (headerLine? file line).getD file = { file with
      oldPath := (Text.stripStart? "--- ".toList line).elim file.oldPath pathOf
      newPath := (Text.stripStart? "+++ ".toList line).elim file.newPath pathOf
      isNew := file.isNew || saysMissing "--- ".toList "new file mode".toList line
      isDeleted := file.isDeleted || saysMissing "+++ ".toList "deleted file mode".toList line
      isRename := file.isRename || (Text.startsWith "rename from ".toList line ||
        Text.startsWith "rename to ".toList line) } := by
  cases oldSide : Text.stripStart? "--- ".toList line with
  | some side =>
    obtain rfl := Text.stripStart?_eq_some_iff.mp oldSide
    simp [headerLine?, saysMissing, Text.startsWith, Text.stripStart?]
  | none =>
    cases newSide : Text.stripStart? "+++ ".toList line with
    | some side =>
      obtain rfl := Text.stripStart?_eq_some_iff.mp newSide
      simp [headerLine?, saysMissing, Text.startsWith, Text.stripStart?]
    | none =>
      rw [headerLine?_unsided oldSide newSide, saysMissing_of_stripStart?_eq_none oldSide,
        saysMissing_of_stripStart?_eq_none newSide]
      simp only [marked, List.any_cons, List.any_nil, Bool.or_false, Option.elim_none]

theorem HeadedBy.empty : HeadedBy [] {} :=
  ⟨rfl, rfl, rfl, rfl, rfl⟩

theorem HeadedBy.withHunks {headers : List (List Char)} {file : FileDiff}
    (headed : HeadedBy headers file) (hunks : List Hunk) :
    HeadedBy headers { file with hunks := hunks } :=
  ⟨headed.oldPath, headed.newPath, headed.isNew, headed.isDeleted, headed.isRename⟩

theorem HeadedBy.line {headers : List (List Char)} {file : FileDiff}
    (headed : HeadedBy headers file) (line : List Char) :
    HeadedBy (headers ++ [line]) ((headerLine? file line).getD file) := by
  -- The path that a line leaves alone is still that of the last line before it.
  have path (mark : List Char) : (Text.stripStart? mark line).elim
      ((lastSide? mark headers).elim "" pathOf) pathOf =
        (lastSide? mark (headers ++ [line])).elim "" pathOf := by
    rw [lastSide?_concat]
    cases Text.stripStart? mark line <;> rfl
  have any (isMark : List Char → Bool) :
      (headers.any isMark || isMark line) = (headers ++ [line]).any isMark := by
    rw [List.any_append, List.any_cons, List.any_nil, Bool.or_false]
  rw [headerLine?_getD]
  constructor
  · rw [headed.oldPath, path]
  · rw [headed.newPath, path]
  · rw [headed.isNew, any]
  · rw [headed.isDeleted, any]
  · rw [headed.isRename, any]

/-! ### The header lines of a section make its file -/

/-- A row goes to the last hunk of its file, whether that is then closed or not. -/
theorem file?_fillHunk (file : FileDiff) (hunk : Hunk) (line : List Char) :
    (fillHunk file hunk line).file? = some { file with
      hunks := file.hunks ++ [{ hunk with rows := hunk.rows ++ (rowOf? line).toList }] } := by
  simp only [fillHunk]
  split <;> rfl

/-- A title and a note on a binary file say nothing about paths. -/
theorem headerLine?_eq_none {mark line : List Char}
    (isMark : mark = "diff --git ".toList ∨ mark = "Binary files ".toList)
    (marked : Text.startsWith mark line = true) (file : FileDiff) : headerLine? file line = none := by
  obtain ⟨rest, rfl⟩ := Text.startsWith_iff.mp marked
  rcases isMark with rfl | rfl <;> simp [headerLine?, Text.startsWith, Text.stripStart?]

section
variable {scan next : Scan} {line : List Char} {headers lines : List (List Char)}

/-- The file at a place is made by header lines. -/
def Place.IsHeadedBy (headers : List (List Char)) (place : Place) : Prop :=
  ∃ file, place.file? = some file ∧ HeadedBy headers file

theorem Scan.bodyLine_isHeadedBy (headed : scan.place.IsHeadedBy headers)
    (read : scan.bodyLine line = .ok next) : next.place.IsHeadedBy headers := by
  obtain ⟨file, isOpen, made⟩ := headed
  unfold bodyLine at read
  split at read
  · rw [isOpen] at read
    cases header : readHeader line with
    | error fault =>
      rw [header] at read
      cases read
    | ok hunk =>
      rw [header] at read
      cases read
      exact ⟨_, rfl, made.withHunks _⟩
  · split at read
    · cases read
      exact ⟨file, isOpen, made⟩
    · split at read
      · rename_i inner hunk place
        cases read
        rw [place] at isOpen
        cases isOpen
        exact ⟨_, file?_fillHunk inner hunk line, made.withHunks _⟩
      · cases read
        exact ⟨file, isOpen, made⟩

/-- A line outside hunks, whether it is a header line by its form or not. -/
theorem Scan.fileLine_isHeadedBy {file : FileDiff} (place : scan.place = .inFile file)
    (made : HeadedBy headers file) (read : scan.fileLine line = .ok next) :
    next.place.IsHeadedBy (headers ++ [line]) := by
  have withLine := made.line line
  simp only [fileLine, place] at read
  split at read
  · rename_i note
    cases read
    obtain ⟨begins, _⟩ := (Bool.and_eq_true _ _).mp note
    rw [headerLine?_eq_none (.inr rfl) begins] at withLine
    exact ⟨file, rfl, withLine⟩
  · cases header : headerLine? file line with
    | some changed =>
      simp only [header] at read
      cases read
      rw [header] at withLine
      exact ⟨changed, rfl, withLine⟩
    | none =>
      simp only [header] at read
      rw [header] at withLine
      exact bodyLine_isHeadedBy ⟨file, by rw [place]; rfl, withLine⟩ read

theorem Scan.step_isHeadedBy_of_opens (opens : scan.opensFile line = true)
    (read : scan.step line = .ok next) : next.place.IsHeadedBy [line] := by
  by_cases title : Text.startsWith "diff --git ".toList line = true
  · rw [step, if_pos title] at read
    cases read
    have withLine := HeadedBy.empty.line line
    rw [headerLine?_eq_none (.inl rfl) title] at withLine
    exact ⟨{}, rfl, withLine⟩
  · rw [step_of_oldSide opens title] at read
    exact fileLine_isHeadedBy rfl .empty read

theorem ReadsSection.isHeadedBy {start stop : Scan} {own : List (List Char)}
    (reads : ReadsSection start own headers stop) : stop.place.IsHeadedBy headers := by
  induction reads with
  | opening opens read => exact Scan.step_isHeadedBy_of_opens opens read
  | @header own headers scan next line _ stays outside read ih =>
    obtain ⟨file, isOpen, made⟩ := ih
    rw [Scan.step_of_stays stays] at read
    cases place : scan.place with
    | outside =>
      rw [place] at isOpen
      cases isOpen
    | inFile current =>
      rw [place] at isOpen
      cases isOpen
      exact Scan.fileLine_isHeadedBy place made read
    | inHunk file hunk =>
      rw [place] at outside
      cases outside
  | @row own headers scan next line _ stays inside read ih =>
    rw [Scan.step_of_stays stays] at read
    cases place : scan.place with
    | inHunk file hunk =>
      simp only [Scan.fileLine, place] at read
      split at read
      · cases read
        rwa [place] at ih
      · exact Scan.bodyLine_isHeadedBy ih read
    | _ =>
      rw [place] at inside
      cases inside

theorem HasSection.headedBy {file : FileDiff} (has : HasSection lines headers file) :
    HeadedBy headers file := by
  obtain ⟨before, own, after, start, stop, _, _, reads, gives, _⟩ := has
  obtain ⟨other, isOpen, made⟩ := reads.isHeadedBy
  rw [gives] at isOpen
  cases isOpen
  exact made

end

/-! ### Spellings of a missing side -/

/-- A side that is missing, in any spelling: with a time after a tab, in quotes, or below the directory
of a side. -/
def SpellsMissing (side : List Char) : Prop :=
  ∃ directory ∈ [[], ['a', '/'], ['b', '/']],
    Text.strip (· == '"') (Text.before '\t' side) = directory ++ missingPath.toList

theorem pathOf_eq_missingPath_iff {side : List Char} :
    pathOf side = missingPath ↔ SpellsMissing side := by
  have same (text : List Char) : String.ofList text = missingPath ↔ text = missingPath.toList := by
    rw [← String.toList_inj, String.toList_ofList]
  simp only [pathOf, SpellsMissing, List.mem_cons, List.not_mem_nil, or_false, exists_eq_or_imp,
    exists_eq_left, List.nil_append]
  generalize Text.strip (· == '"') (Text.before '\t' side) = name
  by_cases bare : name = missingPath.toList
  · simp [bare]
  rw [if_neg bare, same]
  cases old : Text.stripStart? ['a', '/'] name with
  | some rest =>
    obtain rfl := Text.stripStart?_eq_some_iff.mp old
    simp [missingPath]
  | none =>
    have notOld := ne_append_of_stripStart?_eq_none old missingPath.toList
    cases new : Text.stripStart? ['b', '/'] name with
    | some rest =>
      obtain rfl := Text.stripStart?_eq_some_iff.mp new
      simp [missingPath]
    | none =>
      have notNew := ne_append_of_stripStart?_eq_none new missingPath.toList
      rw [Option.getD_none]
      simp only [bare, notOld, notNew, or_self]

/-- The last of the sides is missing, but no line says so. -/
structure Disguised (mark declaration : List Char) (headers : List (List Char)) : Prop where
  missing : ∃ side, lastSide? mark headers = some side ∧ SpellsMissing side
  unsaid : headers.any (saysMissing mark declaration) = false

theorem elim_pathOf_eq_missingPath_iff {side? : Option (List Char)} :
    side?.elim "" pathOf = missingPath ↔ ∃ side, side? = some side ∧ SpellsMissing side := by
  cases side? with
  | none =>
    have named : "" ≠ missingPath := by decide
    simp [named]
  | some side => simp [pathOf_eq_missingPath_iff]

/-- A path that is read from header lines is missing only where they say so, exactly unless they
disguise it. -/
theorem marked_iff_not_disguised {mark declaration : List Char} {headers : List (List Char)} :
    ((lastSide? mark headers).elim "" pathOf = missingPath →
      headers.any (saysMissing mark declaration) = true) ↔ ¬ Disguised mark declaration headers := by
  rw [elim_pathOf_eq_missingPath_iff]
  constructor
  · intro said disguised
    have contradictory := (said disguised.missing).symm.trans disguised.unsaid
    cases contradictory
  · intro undisguised missing
    rw [← Bool.not_eq_false]
    intro unsaid
    exact undisguised ⟨missing, unsaid⟩

/-- Each file is made by the header lines of its own section. A file whose new side is read as missing
is marked as deleted, and then has its old path, exactly unless these lines disguise that; and likewise
a file whose old side is read as missing is marked as new. -/
theorem read_missingSides {source : String} {files : List FileDiff}
    (accepted : read source = .ok files) {file : FileDiff} (member : file ∈ files) :
    ∃ headers, headers.Sublist (Text.lines source.toList) ∧
      HasSection (Text.lines source.toList) headers file ∧ HeadedBy headers file ∧
      ((file.newPath = missingPath → file.isDeleted = true ∧ file.path = file.oldPath) ↔
        ¬ Disguised "+++ ".toList "deleted file mode".toList headers) ∧
      ((file.oldPath = missingPath → file.isNew = true) ↔
        ¬ Disguised "--- ".toList "new file mode".toList headers) := by
  obtain ⟨headers, has⟩ := exists_hasSection accepted member
  have headed : HeadedBy headers file := has.headedBy
  refine ⟨headers, has.sublist, has, headed, ?_, ?_⟩
  · have path : (file.isDeleted = true ∧ file.path = file.oldPath) ↔ file.isDeleted = true := by
      refine ⟨And.left, ?_⟩
      intro isDeleted
      exact ⟨isDeleted, by rw [FileDiff.path, if_pos isDeleted]⟩
    rw [path, headed.newPath, headed.isDeleted]
    exact marked_iff_not_disguised
  · rw [headed.oldPath, headed.isNew]
    exact marked_iff_not_disguised

/-- A deleted file whose missing side has a time. -/
def timedDiff : String :=
  "--- a/x\n+++ /dev/null\t1970\n@@ -1 +0,0 @@\n-a\n"

def timedFile : FileDiff :=
  ⟨"x", "/dev/null", [⟨1, 1, 0, 0, [⟨.removed, "a"⟩]⟩], false, false, false⟩

theorem read_timedDiff : read timedDiff = .ok [timedFile] := by decide +kernel

theorem read_missingSides_timed :
    read timedDiff = .ok [timedFile] ∧ timedFile ∈ [timedFile] ∧
    ∃ headers, headers.Sublist (Text.lines timedDiff.toList) ∧
      HasSection (Text.lines timedDiff.toList) headers timedFile ∧ HeadedBy headers timedFile ∧
      Disguised "+++ ".toList "deleted file mode".toList headers := by
  have member : timedFile ∈ [timedFile] := List.mem_singleton_self timedFile
  obtain ⟨headers, inside, has, headed, deleted, _⟩ := read_missingSides read_timedDiff member
  refine ⟨read_timedDiff, member, headers, inside, has, headed, ?_⟩
  have unmarked : ¬ (timedFile.newPath = missingPath →
      timedFile.isDeleted = true ∧ timedFile.path = timedFile.oldPath) := by decide
  exact Classical.not_not.mp (mt deleted.mpr unmarked)

/-- A file without a new side is not always marked as deleted. -/
theorem missing_unmarked :
    ¬ ∀ (source : String) (files : List FileDiff), read source = .ok files → ∀ file ∈ files,
      (file.newPath = missingPath → file.isDeleted = true ∧ file.path = file.oldPath) ∧
        (file.oldPath = missingPath → file.isNew = true) := by
  intro marks
  have claimed := (marks timedDiff [timedFile] read_timedDiff timedFile
    (List.mem_singleton_self timedFile)).1 rfl
  cases claimed.1

end MergeRisk.Diff
