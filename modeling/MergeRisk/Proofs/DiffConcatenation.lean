import Mathlib.Data.List.Forall2
import MergeRisk.Proofs.DiffReading

/-! Diffs that are put one after the other. Whatever stands before it, a `diff --git` line acts as
the end of the one diff and the start of the next: reading goes on as from nothing, and only the
finished files are kept. -/

namespace MergeRisk.Diff

/-! ### Files that came before -/

/-- A scan with other files before its own. -/
def Scan.after (earlier : List FileDiff) (scan : Scan) : Scan :=
  { scan with files := earlier ++ scan.files }

section
variable (earlier : List FileDiff) (scan : Scan)

theorem Scan.finished_after :
    (scan.after earlier).finished = earlier ++ scan.finished := by
  unfold finished
  by_cases isBinary : scan.binary = true
  · simp [after, isBinary]
  · simp [after, isBinary]

theorem Scan.openFile_after : (scan.after earlier).openFile = scan.openFile.after earlier := by
  obtain ⟨files, place, binary⟩ := scan
  cases place with
  | outside => rfl
  | inFile file =>
    simp only [openFile, after]
    split
    · rfl
    · rw [List.append_assoc]
  | inHunk file hunk => rfl

theorem Scan.bodyLine_after (line : List Char) :
    (scan.after earlier).bodyLine line = (scan.bodyLine line).map (after earlier) := by
  unfold bodyLine
  split
  · cases opened : scan.place.file? with
    | none => simp only [after, opened, Except.map]
    | some file =>
      simp only [after, opened]
      cases readHeader line <;> rfl
  · split
    · rfl
    · cases place : scan.place <;> simp only [after, place, Except.map]

theorem Scan.fileLine_after (line : List Char) :
    (scan.after earlier).fileLine line = (scan.fileLine line).map (after earlier) := by
  have body := scan.bodyLine_after earlier line
  unfold fileLine
  cases place : scan.place with
  | outside => simp only [after, place, Except.map]
  | inFile file =>
    simp only [after, place] at body ⊢
    split
    · rfl
    · cases headerLine? file line with
      | none => exact body
      | some next => rfl
  | inHunk file hunk =>
    simp only [after, place] at body ⊢
    split
    · rfl
    · exact body

/-- No line looks at the files that came before. -/
theorem Scan.step_after (line : List Char) :
    (scan.after earlier).step line = (scan.step line).map (after earlier) := by
  unfold step
  split
  · rw [finished_after]
    rfl
  · split
    · rw [openFile_after, fileLine_after]
    · exact scan.fileLine_after earlier line

end

theorem Scan.run_after (earlier : List FileDiff) (scan : Scan) (lines : List (List Char)) :
    (scan.after earlier).run lines = (scan.run lines).map (after earlier) := by
  induction lines generalizing scan with
  | nil => rfl
  | cons line lines ih =>
    rw [run, run, List.foldlM_cons, List.foldlM_cons, step_after]
    cases scan.step line with
    | error fault => rfl
    | ok next => exact ih next

/-! ### A title between two diffs -/

/-- The scan after a title with nothing before it. -/
def Scan.titled : Scan := { place := .inFile {} }

theorem Scan.run_title (scan : Scan) (title : List Char) (rest : List (List Char)) :
    scan.run (("diff --git ".toList ++ title) :: rest) =
      (titled.run rest).map (after scan.finished) := by
  have fresh : (⟨scan.finished, .inFile {}, false⟩ : Scan) = titled.after scan.finished := by
    simp [titled, after]
  rw [run_cons (scan.step_title title), fresh, run_after]

theorem ofLines_eq_map (lines : List (List Char)) :
    ofLines lines = (Scan.run {} lines).map Scan.finished := by
  rw [ofLines, ← Scan.run]
  cases Scan.run {} lines <;> rfl

/-- The first part is read, then the second as if it stood alone; the first fault is that of the
whole. -/
theorem ofLines_append_title (first : List (List Char)) (title : List Char)
    (rest : List (List Char)) :
    ofLines (first ++ ("diff --git ".toList ++ title) :: rest) = (do
      let files ← ofLines first
      let others ← ofLines (("diff --git ".toList ++ title) :: rest)
      return files ++ others) := by
  have both : Scan.run {} (first ++ ("diff --git ".toList ++ title) :: rest) =
      Scan.run {} first >>= fun scan => scan.run (("diff --git ".toList ++ title) :: rest) :=
    List.foldlM_append
  rw [ofLines_eq_map, ofLines_eq_map, ofLines_eq_map, both, Scan.run_title {} title rest]
  cases Scan.run {} first with
  | error fault => rfl
  | ok scan =>
    simp only [bind, Except.bind, Except.map, Scan.run_title scan title rest]
    cases Scan.titled.run rest with
    | error fault => rfl
    | ok next =>
      simp only [Scan.finished_after]
      rfl

theorem lines_titled (rest : List Char) : ∃ title others,
    Text.lines ("diff --git ".toList ++ rest) = ("diff --git ".toList ++ title) :: others :=
  ⟨_, _, Text.lines_mark_append (by decide) (by decide) (by decide) rest⟩

/-- A diff of whole lines and a diff that starts with a title, read one after the other. -/
theorem read_append_bind {first second : String} (ended : first = "" ∨ ∃ text, first = text ++ "\n")
    (titled : ∃ rest, second = "diff --git " ++ rest) :
    read (first ++ second) = (do
      let files ← read first
      let others ← read second
      return files ++ others) := by
  obtain ⟨rest, rfl⟩ := titled
  obtain ⟨title, others, lines⟩ := lines_titled rest.toList
  have apart : Text.lines (first ++ ("diff --git " ++ rest)).toList =
      Text.lines first.toList ++ Text.lines ("diff --git " ++ rest).toList := by
    rw [String.toList_append]
    rcases ended with rfl | ⟨text, rfl⟩
    · rfl
    · apply Text.lines_append
      rw [String.toList_append]
      exact List.getLast?_concat
  rw [read, read, read, apart, String.toList_append, lines]
  exact ofLines_append_title (Text.lines first.toList) title others

/-- Diffs of whole lines that each start with a title and show one file, read one after the other. -/
theorem read_join {texts : List String} {files : List FileDiff}
    (each : List.Forall₂ (fun text file => read text = .ok [file]) texts files)
    (titled : ∀ text ∈ texts, ∃ rest, text = "diff --git " ++ rest)
    (ended : ∀ text ∈ texts, ∃ start, text = start ++ "\n") :
    read (String.join texts) = .ok files := by
  induction each with
  | nil => rfl
  | @cons text file texts files first others ih =>
    obtain ⟨_, othersTitled⟩ := List.forall_mem_cons.mp titled
    obtain ⟨textEnded, othersEnded⟩ := List.forall_mem_cons.mp ended
    rw [String.join_cons]
    cases others with
    | nil => simpa using first
    | cons second later =>
      obtain ⟨rest, rfl⟩ := othersTitled _ List.mem_cons_self
      rw [read_append_bind (.inr textEnded) ⟨_, by rw [String.join_cons, String.append_assoc]⟩, first,
        ih othersTitled othersEnded]
      rfl

/-- Reading two diffs in one text, the first of whole lines and the second with a title: a fault of
the first is the fault of both, else a fault of the second is, and else the files of the second
follow those of the first. -/
theorem read_append {first second : String} (ended : first = "" ∨ ∃ text, first = text ++ "\n")
    (titled : ∃ rest, second = "diff --git " ++ rest) :
    (∀ fault, read first = .error fault → read (first ++ second) = .error fault) ∧
    ∀ files, read first = .ok files →
      (∀ fault, read second = .error fault → read (first ++ second) = .error fault) ∧
      ∀ others, read second = .ok others → read (first ++ second) = .ok (files ++ others) := by
  rw [read_append_bind ended titled]
  refine ⟨?_, ?_⟩
  · intro fault failed
    rw [failed]
    rfl
  · intro files succeeded
    rw [succeeded]
    refine ⟨?_, ?_⟩
    · intro fault failed
      rw [failed]
      rfl
    · intro others succeededToo
      rw [succeededToo]
      rfl

/-- A new file whose only hunk breaks off. -/
def brokenDiff : String :=
  "--- /dev/null\n+++ b/x\n@@ -0,0 +1,9 @@\n+one\n"

/-- A binary file and one with nothing but a path. -/
def logoDiff : String :=
  "diff --git a/l b/l\nBinary files a/l and b/l differ\ndiff --git a/y b/y\n+++ b/y\n"

theorem read_append_broken :
    (∃ text, brokenDiff = text ++ "\n") ∧ (∃ rest, logoDiff = "diff --git " ++ rest) ∧
    read (brokenDiff ++ logoDiff) =
      .ok [⟨"/dev/null", "x", [⟨0, 0, 1, 9, [⟨.added, "one"⟩]⟩], true, false, false⟩,
        ⟨"", "y", [], false, false, false⟩] := by
  have ended : ∃ text, brokenDiff = text ++ "\n" :=
    ⟨"--- /dev/null\n+++ b/x\n@@ -0,0 +1,9 @@\n+one", by decide⟩
  have titled : ∃ rest, logoDiff = "diff --git " ++ rest :=
    ⟨"a/l b/l\nBinary files a/l and b/l differ\ndiff --git a/y b/y\n+++ b/y\n", by decide⟩
  refine ⟨ended, titled, ?_⟩
  exact ((read_append (.inr ended) titled).2
    [⟨"/dev/null", "x", [⟨0, 0, 1, 9, [⟨.added, "one"⟩]⟩], true, false, false⟩]
    (by decide +kernel)).2 [⟨"", "y", [], false, false, false⟩] (by decide +kernel)

end MergeRisk.Diff
