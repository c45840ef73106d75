import Mathlib.Data.List.Basic
import Mathlib.Data.List.Forall2
import MergeRisk.Proofs.DiffConcatenation
import MergeRisk.Proofs.ScriptDiff
import MergeRisk.Repository.Patch

/-! Patches that are rendered and read back. Notes are not rendered. Rows say all there is to say
without the notes about last lines, but a binary file is told by its note alone. -/

namespace MergeRisk.Repository

open Diff
open Text (IsLine dropReturn terminated)

/-! ### Printed patches -/

/-- The text of a line, with its line feed or without. -/
def HoldsLine (line : List Char) (text : String) : Prop :=
  text.toList = line ∨ text.toList = line ++ ['\n']

/-- Pieces that print rows, with so many notes after each. -/
inductive PrintsRows : (notes : Nat → Nat) → List Row → List PatchPiece → Prop where
  | done {notes : Nat → Nat} : PrintsRows notes [] []
  | row {notes : Nat → Nat} {kind : RowKind} {text shown : String} {rows : List Row}
      {pieces : List PatchPiece} (holds : HoldsLine text.toList shown) (noted : List String)
      (count : noted.length = notes 0)
      (rest : PrintsRows (fun index => notes (index + 1)) rows pieces) :
      PrintsRows notes (⟨kind, text⟩ :: rows)
        (.row ⟨kind, shown⟩ :: (noted.map .lastLine ++ pieces))

/-- Pieces that print hunks, each below its header. -/
inductive PrintsHunks : List WrittenHunk → List PatchPiece → Prop where
  | done : PrintsHunks [] []
  | hunk {written : WrittenHunk} {shown : String} {body : List PatchPiece}
      {hunks : List WrittenHunk} {pieces : List PatchPiece} (holds : HoldsLine written.header shown)
      (rows : PrintsRows written.notes written.hunk.rows body) (rest : PrintsHunks hunks pieces) :
      PrintsHunks (written :: hunks) (.hunkHeader shown :: (body ++ pieces))

/-- Pieces that print a section. All lines above the hunks are one piece, and a binary section has
one more, its note. -/
inductive Prints : GitSection → List PatchPiece → Prop where
  | text {title : List Char} {headers : List (List Char)} {file : WrittenFile}
      {pieces : List PatchPiece} (hunks : PrintsHunks file.hunks pieces) :
      Prints (.text title headers file)
        (.fileHeader (String.ofList (terminated (("diff --git ".toList ++ title) :: (headers ++
          ["--- ".toList ++ file.oldSide, "+++ ".toList ++ file.newSide])))) :: pieces)
  | binary {title : List Char} {headers : List (List Char)} {sides : List Char} {shown : String}
      (holds : HoldsLine ("Binary files ".toList ++ sides ++ " differ".toList) shown) :
      Prints (.binary title headers sides)
        [.fileHeader (String.ofList (terminated (("diff --git ".toList ++ title) :: headers))),
          .binary shown]

/-- The lines above the sides or the note of a section are lines that say no more than they do. -/
structure Headed (title : List Char) (headers : List (List Char)) : Prop where
  titleIsLine : IsLine title
  headersAreLines : ∀ line ∈ headers, IsLine line
  plain : ∀ line ∈ headers, isStructural line = false

/-- A file whose lines are told apart when they are read, with well-formed hunks. -/
structure Legible (file : WrittenFile) : Prop where
  shows : file.Shows (file.hunks.map WrittenHunk.hunk)
  wellFormed : ∀ written ∈ file.hunks, written.WellFormed
  rows : ∀ hunk ∈ file.hunks.map WrittenHunk.hunk, ∀ row ∈ hunk.rows, '\n' ∉ row.text.toList

def Printable : GitSection → Prop
  | .text title headers file => Headed title headers ∧ Legible file
  | .binary title headers _ => Headed title headers

/-- The file of a text section; reading takes a carriage return from the end of each row. -/
def textFile? : GitSection → Option FileDiff
  | .text _ headers file => some (file.dropReturns.content headers)
  | .binary .. => none

/-- What a section is read as without its notes: of a binary one there are the marks of its
headers. -/
def unnotedFile : GitSection → FileDiff
  | .text _ headers file => file.dropReturns.content headers
  | .binary _ headers _ => marked {} headers

/-! ### Rendering -/

theorem ended_append (start : String) : PatchPiece.ended (start ++ "\n") = start ++ "\n" := by
  have ends : Text.endsWith ['\n'] (start ++ "\n").toList = true := by
    rw [String.toList_append, Text.endsWith]
    exact congrArg Option.isSome (Text.stripEnd?_append start.toList ['\n'])
  rw [PatchPiece.ended, if_pos ends]

theorem toList_ended {line : List Char} {text : String} (holds : HoldsLine line text)
    (noFeed : '\n' ∉ line) : (PatchPiece.ended text).toList = line ++ ['\n'] := by
  rcases holds with rfl | isClosed
  · have unended : ¬ Text.endsWith ['\n'] text.toList = true := by
      intro ends
      obtain ⟨kept, found⟩ := Option.isSome_iff_exists.mp ends
      rw [Text.stripEnd?_eq_some_iff] at found
      exact noFeed (by simp [found])
    rw [PatchPiece.ended, if_neg unended, String.toList_append]
    rfl
  · have ends : text = String.ofList line ++ "\n" := by
      apply String.toList_inj.mp
      rw [isClosed, String.toList_append, String.toList_ofList]
      rfl
    rw [ends, ended_append, ← ends, isClosed]

/-- Lines that were written end with a line feed. -/
theorem exists_terminated_eq (line : List Char) (lines : List (List Char)) :
    ∃ start, String.ofList (terminated (line :: lines)) = start ++ "\n" := by
  induction lines generalizing line with
  | nil => exact ⟨String.ofList line, by simp [terminated]⟩
  | cons next lines ih =>
    obtain ⟨start, ends⟩ := ih next
    refine ⟨String.ofList (line ++ ['\n']) ++ start, ?_⟩
    rw [Text.terminated_cons, String.ofList_append, ends, String.append_assoc]

theorem toList_renderPatch_cons (piece : PatchPiece) (pieces : List PatchPiece) :
    (renderPatch (piece :: pieces)).toList = piece.render.toList ++ (renderPatch pieces).toList := by
  simp [renderPatch, String.toList_join]

theorem toList_renderPatch_append (first second : List PatchPiece) :
    (renderPatch (first ++ second)).toList =
      (renderPatch first).toList ++ (renderPatch second).toList := by
  simp [renderPatch, String.toList_join]

theorem renderPatch_flatten (parts : List (List PatchPiece)) :
    renderPatch parts.flatten = String.join (parts.map renderPatch) := by
  apply String.toList_inj.mp
  induction parts with
  | nil => rfl
  | cons part parts ih =>
    rw [List.flatten_cons, toList_renderPatch_append, ih, List.map_cons, String.join_cons,
      String.toList_append]

theorem toList_renderPatch_notes (noted : List String) (pieces : List PatchPiece) :
    (renderPatch (noted.map .lastLine ++ pieces)).toList = (renderPatch pieces).toList := by
  induction noted with
  | nil => rfl
  | cons note noted ih =>
    rw [List.map_cons, List.cons_append, toList_renderPatch_cons, ih]
    rfl

def unnotedHunk (written : WrittenHunk) : WrittenHunk :=
  { written with notes := fun _ => 0 }

def unnoted (file : WrittenFile) : WrittenFile :=
  { file with hunks := file.hunks.map unnotedHunk }

theorem HoldsLine.row {text shown : String} (holds : HoldsLine text.toList shown) (kind : RowKind) :
    HoldsLine (Row.render ⟨kind, text⟩).toList (Row.render ⟨kind, shown⟩) := by
  simp only [HoldsLine, Row.render, String.toList_ofList, List.cons_append, List.cons.injEq, true_and]
  exact holds

theorem PrintsRows.toList_renderPatch {notes : Nat → Nat} {rows : List Row}
    {pieces : List PatchPiece} (prints : PrintsRows notes rows pieces)
    (noFeed : ∀ row ∈ rows, '\n' ∉ row.text.toList) :
    (renderPatch pieces).toList = terminated (bodyLines (fun _ => 0) rows) := by
  induction prints with
  | done => rfl
  | @row notes kind text shown rows pieces holds noted count rest ih =>
    obtain ⟨first, others⟩ := List.forall_mem_cons.mp noFeed
    have rowNoFeed : '\n' ∉ (Row.render ⟨kind, text⟩).toList := by
      cases kind <;> simpa [Row.render, RowKind.mark] using first
    rw [toList_renderPatch_cons, toList_renderPatch_notes, ih others, PatchPiece.render,
      toList_ended (holds.row kind) rowNoFeed, bodyLines, List.replicate_zero, List.nil_append,
      Text.terminated_cons]

theorem PrintsHunks.toList_renderPatch {hunks : List WrittenHunk} {pieces : List PatchPiece}
    (prints : PrintsHunks hunks pieces) (headers : ∀ written ∈ hunks, IsLine written.header)
    (noFeed : ∀ written ∈ hunks, ∀ row ∈ written.hunk.rows, '\n' ∉ row.text.toList) :
    (renderPatch pieces).toList =
      terminated ((hunks.map unnotedHunk).flatMap WrittenHunk.lines) := by
  induction prints with
  | done => rfl
  | @hunk written shown body hunks pieces holds rows rest ih =>
    obtain ⟨header, otherHeaders⟩ := List.forall_mem_cons.mp headers
    obtain ⟨first, others⟩ := List.forall_mem_cons.mp noFeed
    rw [toList_renderPatch_cons, toList_renderPatch_append, rows.toList_renderPatch first,
      ih otherHeaders others, PatchPiece.render, toList_ended holds header.noFeed, List.map_cons,
      List.flatMap_cons, Text.terminated_append, WrittenHunk.lines, Text.terminated_cons]
    simp only [unnotedHunk, List.append_assoc]

/-! ### Reading -/

theorem unnoted_content (headers : List (List Char)) (file : WrittenFile) :
    (unnoted file).dropReturns.content headers = file.dropReturns.content headers := by
  simp only [WrittenFile.content, WrittenFile.dropReturns, unnoted, List.map_map]
  rfl

theorem Legible.unnoted {file : WrittenFile} (legible : Legible file) :
    Legible (Repository.unnoted file) := by
  have hunks : (file.hunks.map unnotedHunk).map WrittenHunk.hunk = file.hunks.map WrittenHunk.hunk :=
    List.map_map
  have wellFormed : ∀ written ∈ (Repository.unnoted file).hunks, written.WellFormed := by
    intro written member
    obtain ⟨original, inFile, rfl⟩ := List.mem_map.mp member
    obtain ⟨spells, numbered, oldRows, newRows, nonempty⟩ := legible.wellFormed original inFile
    exact ⟨spells, numbered, oldRows, newRows, nonempty⟩
  have headers : ∀ written ∈ (Repository.unnoted file).hunks, IsLine written.header := by
    intro written member
    obtain ⟨original, inFile, rfl⟩ := List.mem_map.mp member
    exact legible.shows.headers original inFile
  refine ⟨⟨rfl, fun written member => (wellFormed written member).spells, headers,
    legible.shows.oldSide, legible.shows.newSide⟩, wellFormed, ?_⟩
  exact hunks ▸ legible.rows

/-- The lines of a section that are rendered. -/
def renderedLines : GitSection → List (List Char)
  | .text title headers file =>
      ("diff --git ".toList ++ title) :: (headers ++ (unnoted file).lines)
  | .binary title headers _ => ("diff --git ".toList ++ title) :: headers

theorem Prints.renderPatch_eq {delta : GitSection} {pieces : List PatchPiece}
    (prints : Prints delta pieces) (printable : Printable delta) :
    renderPatch pieces = String.ofList (terminated (renderedLines delta)) := by
  apply String.toList_inj.mp
  cases prints with
  | @text title headers file pieces hunks =>
    obtain ⟨_, legible⟩ := printable
    obtain ⟨start, ends⟩ := exists_terminated_eq ("diff --git ".toList ++ title) (headers ++
      ["--- ".toList ++ file.oldSide, "+++ ".toList ++ file.newSide])
    have rows : ∀ written ∈ file.hunks, ∀ row ∈ written.hunk.rows, '\n' ∉ row.text.toList :=
      fun written member => legible.rows _ (List.mem_map_of_mem member)
    rw [toList_renderPatch_cons, hunks.toList_renderPatch legible.shows.headers rows,
      PatchPiece.render, ends, ended_append, ← ends, String.toList_ofList, String.toList_ofList,
      ← Text.terminated_append]
    simp [renderedLines, WrittenFile.lines, unnoted]
  | @binary title headers sides shown holds =>
    obtain ⟨start, ends⟩ := exists_terminated_eq ("diff --git ".toList ++ title) headers
    rw [toList_renderPatch_cons, PatchPiece.render, ends, ended_append, ← ends]
    simp [renderedLines, renderPatch, PatchPiece.render]

theorem Headed.isLine {title : List Char} {headers : List (List Char)} (headed : Headed title headers) :
    ∀ line ∈ ("diff --git ".toList ++ title) :: headers, IsLine line :=
  (Opening.git headed.titleIsLine headed.headersAreLines headed.plain).isLine

/-- A rendered section is read as one file, whether it is text or not. -/
theorem read_renderedLines {delta : GitSection} (printable : Printable delta) :
    Diff.read (String.ofList (terminated (renderedLines delta))) = .ok [unnotedFile delta] := by
  cases delta with
  | text title headers file =>
    obtain ⟨headed, legible⟩ := printable
    have read := legible.unnoted.shows.read_below headed.isLine (Scan.run_opening headed.plain) rfl
      legible.unnoted.wellFormed legible.unnoted.rows
    rw [unnoted_content] at read
    exact read
  | binary title headers sides =>
    have headed : Headed title headers := printable
    rw [renderedLines, read_terminated headed.isLine, ofLines_eq (Scan.run_opening headed.plain)]
    rfl

theorem exists_title (delta : GitSection) :
    ∃ rest, String.ofList (terminated (renderedLines delta)) = "diff --git " ++ rest := by
  have starts (title : List Char) (others : List (List Char)) :
      String.ofList (terminated (("diff --git ".toList ++ title) :: others)) =
        "diff --git " ++ String.ofList (title ++ ['\n'] ++ terminated others) := by
    apply String.toList_inj.mp
    simp only [String.toList_append, String.toList_ofList, Text.terminated_cons, List.append_assoc]
  cases delta with
  | text title headers file => exact ⟨_, starts title _⟩
  | binary title headers sides => exact ⟨_, starts title _⟩

theorem map_renderPatch {deltas : List GitSection} {parts : List (List PatchPiece)}
    (printed : List.Forall₂ Prints deltas parts) (printable : ∀ delta ∈ deltas, Printable delta) :
    parts.map renderPatch =
      deltas.map fun delta => String.ofList (terminated (renderedLines delta)) := by
  induction printed with
  | nil => rfl
  | cons prints others ih =>
    obtain ⟨first, rest⟩ := List.forall_mem_cons.mp printable
    rw [List.map_cons, List.map_cons, prints.renderPatch_eq first, ih rest]

theorem textFile?_eq_some_iff {delta : GitSection} :
    textFile? delta = some (unnotedFile delta) ↔ (textFile? delta).isSome = true := by
  cases delta with
  | text title headers file => exact ⟨fun _ => rfl, fun _ => rfl⟩
  | binary title headers sides => exact ⟨nofun, nofun⟩

/-- A patch that was printed is read as one file for each of its sections, in order. A binary section
is no exception: its note is not rendered, so it is read as a file without paths and hunks, and binary
files are left out exactly where there are none. -/
theorem read_renderPatch {deltas : List GitSection} {parts : List (List PatchPiece)}
    (printed : List.Forall₂ Prints deltas parts) (printable : ∀ delta ∈ deltas, Printable delta) :
    Diff.read (renderPatch parts.flatten) = .ok (deltas.map unnotedFile) ∧
    (Diff.read (renderPatch parts.flatten) = .ok (deltas.filterMap textFile?) ↔
      ∀ delta ∈ deltas, (textFile? delta).isSome = true) := by
  have read : Diff.read (renderPatch parts.flatten) = .ok (deltas.map unnotedFile) := by
    rw [renderPatch_flatten, map_renderPatch printed printable]
    apply read_join
    · rw [List.forall₂_map_left_iff, List.forall₂_map_right_iff, List.forall₂_same]
      intro delta member
      exact read_renderedLines (printable delta member)
    · intro text member
      obtain ⟨delta, _, rfl⟩ := List.mem_map.mp member
      exact exists_title delta
    · intro text member
      obtain ⟨delta, _, rfl⟩ := List.mem_map.mp member
      cases delta with
      | text title headers file => exact exists_terminated_eq ..
      | binary title headers sides => exact exists_terminated_eq ..
  refine ⟨read, ?_⟩
  rw [read, Except.ok.injEq, eq_comm, List.filterMap_eq_map_iff_forall_eq_some]
  simp only [textFile?_eq_some_iff]

/-- A change to a file with a zero byte. -/
def imageDelta : Delta where
  path := "image.png"
  old := some [0x89, 0x00]
  new := some [0x89, 0x00, 0x01]

/-- A line `b` without a line feed that comes below a line `a`. -/
def codeDelta : Delta where
  path := "Code.java"
  old := some [0x61, 0x0A]
  new := some [0x61, 0x0A, 0x62]

def imageSection : GitSection :=
  .binary "a/image.png b/image.png".toList [] "a/image.png and b/image.png".toList

def codeHunk : WrittenHunk where
  hunk := ⟨1, 1, 1, 2, [⟨.kept, "a"⟩, ⟨.added, "b"⟩]⟩
  header := "@@ -1 +1,2 @@".toList
  notes index := index

def codeSection : GitSection :=
  .text "a/Code.java b/Code.java".toList []
    ⟨"a/Code.java".toList, "b/Code.java".toList, [codeHunk]⟩

theorem imageDelta_printed : Prints imageSection imageDelta.pieces := by
  have pieces : imageDelta.pieces =
      [.fileHeader (String.ofList (terminated ["diff --git ".toList ++
        "a/image.png b/image.png".toList])),
        .binary "Binary files a/image.png and b/image.png differ"] := by
    decide +kernel
  rw [pieces]
  exact .binary (.inl rfl)

theorem codeDelta_printed : Prints codeSection codeDelta.pieces := by
  have pieces : codeDelta.pieces =
      [.fileHeader (String.ofList (terminated ["diff --git ".toList ++
        "a/Code.java b/Code.java".toList, "--- ".toList ++ "a/Code.java".toList,
        "+++ ".toList ++ "b/Code.java".toList])),
        .hunkHeader "@@ -1 +1,2 @@", .row ⟨.kept, "a"⟩, .row ⟨.added, "b"⟩,
        .lastLine "\\ No newline at end of file"] := by
    decide +kernel
  have added : PrintsRows (fun index => codeHunk.notes (index + 1)) [⟨.added, "b"⟩]
      [.row ⟨.added, "b"⟩, .lastLine "\\ No newline at end of file"] :=
    .row (.inl rfl) ["\\ No newline at end of file"] rfl .done
  have rows : PrintsRows codeHunk.notes codeHunk.hunk.rows
      [.row ⟨.kept, "a"⟩, .row ⟨.added, "b"⟩, .lastLine "\\ No newline at end of file"] :=
    .row (.inl rfl) [] rfl added
  rw [pieces]
  exact .text (.hunk (.inl rfl) rows .done)

theorem imageSection_printable : Printable imageSection :=
  ⟨by decide, nofun, nofun⟩

theorem codeSection_printable : Printable codeSection := by
  have spells : SpellsHeader codeHunk.header codeHunk.hunk :=
    SpellsHeader.headerText codeHunk.hunk []
  have wellFormed : codeHunk.WellFormed :=
    ⟨spells, by constructor <;> decide, rfl, rfl, by decide⟩
  refine ⟨⟨by decide, nofun, nofun⟩, ⟨rfl, ?_, by decide, by decide, by decide⟩, ?_, by decide⟩
  · simpa using spells
  · simpa using wellFormed

theorem sections_printed : List.Forall₂ Prints [imageSection, codeSection]
    [imageDelta.pieces, codeDelta.pieces] :=
  .cons imageDelta_printed (.cons codeDelta_printed .nil)

theorem sections_printable : ∀ delta ∈ [imageSection, codeSection], Printable delta := by
  simpa using ⟨imageSection_printable, codeSection_printable⟩

theorem read_renderPatch_image :
    List.Forall₂ Prints [imageSection, codeSection] [imageDelta.pieces, codeDelta.pieces] ∧
    (∀ delta ∈ [imageSection, codeSection], Printable delta) ∧
    Diff.read (renderPatch [imageDelta.pieces, codeDelta.pieces].flatten) =
      .ok [{}, ⟨"Code.java", "Code.java", [codeHunk.hunk], false, false, false⟩] :=
  ⟨sections_printed, sections_printable, (read_renderPatch sections_printed sections_printable).1⟩

/-- A binary file next to a text file is not left out. -/
theorem binary_not_left_out :
    ¬ ∀ (deltas : List GitSection) (parts : List (List PatchPiece)),
      List.Forall₂ Prints deltas parts → (∀ delta ∈ deltas, Printable delta) →
      Diff.read (renderPatch parts.flatten) = .ok (deltas.filterMap textFile?) := by
  intro leftOut
  have kept : Diff.read (renderPatch [imageDelta.pieces, codeDelta.pieces].flatten) =
      .ok [{}, ⟨"Code.java", "Code.java", [codeHunk.hunk], false, false, false⟩] := by
    decide +kernel
  have read := leftOut _ _ sections_printed sections_printable
  rw [kept, Except.ok.injEq] at read
  have counts : 2 = 1 := congrArg List.length read
  cases counts

end MergeRisk.Repository
