import Mathlib.Data.List.TakeWhile
import MergeRisk.Text.Blank
import MergeRisk.Text.Cut

/-! Writing lines one below the other and reading them back. Reading takes one carriage return from
the end of a line. -/

namespace MergeRisk.Text

/-- The text of lines that each end with a line feed. -/
def terminated (lines : List (List Char)) : List Char :=
  lines.flatMap (· ++ ['\n'])

theorem terminated_cons (line : List Char) (lines : List (List Char)) :
    terminated (line :: lines) = line ++ ['\n'] ++ terminated lines :=
  List.flatMap_cons

theorem terminated_append (first second : List (List Char)) :
    terminated (first ++ second) = terminated first ++ terminated second :=
  List.flatMap_append

/-- A line without a carriage return at its end. -/
def dropReturn : List Char → List Char
  | [] => []
  | ['\r'] => []
  | c :: line => c :: dropReturn line

theorem dropReturn_cons {c : Char} {line : List Char} (kept : ¬ (c = '\r' ∧ line = [])) :
    dropReturn (c :: line) = c :: dropReturn line := by
  rw [dropReturn]
  intro isReturn empty
  exact kept ⟨isReturn, empty⟩

/-- A text that is read back unchanged as one line. -/
structure IsLine (line : List Char) : Prop where
  noFeed : '\n' ∉ line
  noReturn : line.getLast? ≠ some '\r'

instance (line : List Char) : Decidable (IsLine line) :=
  decidable_of_iff ('\n' ∉ line ∧ line.getLast? ≠ some '\r')
    ⟨fun ⟨noFeed, noReturn⟩ => ⟨noFeed, noReturn⟩, fun isLine => ⟨isLine.noFeed, isLine.noReturn⟩⟩

theorem IsLine.tail {c : Char} {line : List Char} (isLine : IsLine (c :: line)) : IsLine line where
  noFeed member := isLine.noFeed (List.mem_cons_of_mem c member)
  noReturn ends := by
    apply isLine.noReturn
    rw [List.getLast?_cons, ends]
    rfl

theorem IsLine.append {first second : List Char} (firstIsLine : IsLine first)
    (secondIsLine : IsLine second) : IsLine (first ++ second) where
  noFeed member := by
    rcases List.mem_append.mp member with inFirst | inSecond
    · exact firstIsLine.noFeed inFirst
    · exact secondIsLine.noFeed inSecond
  noReturn ends := by
    rw [List.getLast?_append, Option.or_eq_some_iff] at ends
    rcases ends with ends | ⟨_, ends⟩
    · exact secondIsLine.noReturn ends
    · exact firstIsLine.noReturn ends

theorem IsLine.dropReturn_eq {line : List Char} (isLine : IsLine line) :
    dropReturn line = line := by
  induction line with
  | nil => rfl
  | cons c line ih =>
    have kept : ¬ (c = '\r' ∧ line = []) := by
      rintro ⟨rfl, rfl⟩
      exact isLine.noReturn rfl
    rw [dropReturn_cons kept, ih isLine.tail]

/-- A character that ends no line stands at the start of the first line. -/
theorem lines_cons {c : Char} {text line : List Char} {others : List (List Char)}
    (noFeed : c ≠ '\n') (noReturn : ¬ (c = '\r' ∧ text.head? = some '\n'))
    (later : lines text = line :: others) : lines (c :: text) = (c :: line) :: others := by
  rw [lines, later]
  · intro feed
    exact noFeed feed
  · rintro rest rfl rfl
    exact noReturn ⟨rfl, rfl⟩

/-- A line feed ends the first line. -/
theorem lines_append_feed {line : List Char} (noFeed : '\n' ∉ line) (text : List Char) :
    lines (line ++ '\n' :: text) = dropReturn line :: lines text := by
  induction line with
  | nil => rfl
  | cons c line ih =>
    have notFeed : c ≠ '\n' := by
      intro feed
      exact noFeed (feed ▸ List.mem_cons_self)
    have later : '\n' ∉ line := fun member => noFeed (List.mem_cons_of_mem c member)
    by_cases last : c = '\r' ∧ line = []
    · obtain ⟨rfl, rfl⟩ := last
      rfl
    · have notEnding : ¬ (c = '\r' ∧ (line ++ '\n' :: text).head? = some '\n') := by
        rintro ⟨rfl, first⟩
        cases line with
        | nil => exact last ⟨rfl, rfl⟩
        | cons d _ =>
          have same : d = '\n' := by simpa using first
          exact later (same ▸ List.mem_cons_self)
      rw [List.cons_append, lines_cons notFeed notEnding (ih later), dropReturn_cons last]

/-- Lines do not reach across a line feed. -/
theorem lines_append {text : List Char} (ended : text.getLast? = some '\n') (rest : List Char) :
    lines (text ++ rest) = lines text ++ lines rest := by
  -- One line is taken off at a time, up to the line feed that ends the text.
  induction length : text.length using Nat.strongRecOn generalizing text with
  | ind count ih =>
    obtain ⟨line, later, rfl, noFeed⟩ :=
      List.eq_append_cons_of_mem (List.mem_of_getLast? ended)
    rw [List.append_assoc, List.cons_append, lines_append_feed noFeed, lines_append_feed noFeed]
    cases later with
    | nil => rfl
    | cons c later =>
      have stillEnded : (c :: later).getLast? = some '\n' := by
        simpa [List.getLast?_append] using ended
      rw [ih (c :: later).length (by simp at length ⊢; omega) stillEnded rfl, List.cons_append]

/-- A line holds no line feed, wherever carriage returns stand. -/
theorem not_mem_of_mem_lines {text line : List Char} (member : line ∈ lines text) : '\n' ∉ line := by
  fun_induction lines text generalizing line with
  | case1 => cases member
  | case2 text ih =>
    rcases List.mem_cons.mp member with rfl | later
    · exact List.not_mem_nil
    · exact ih later
  | case3 text ih =>
    rcases List.mem_cons.mp member with rfl | later
    · exact List.not_mem_nil
    · exact ih later
  | case4 c text noFeed _ _ _ =>
    cases List.mem_singleton.mp member
    exact fun isFeed => noFeed (List.mem_singleton.mp isFeed).symm
  | case5 c text noFeed _ first others rest ih =>
    rw [rest] at ih
    rcases List.mem_cons.mp member with rfl | later
    · intro isFeed
      rcases List.mem_cons.mp isFeed with here | further
      · exact noFeed here.symm
      · exact ih List.mem_cons_self further
    · exact ih (List.mem_cons_of_mem first later)

/-- What stands before the first end of a line stands at the start of the first line. -/
theorem lines_mark_append {mark : List Char} (nonempty : mark ≠ []) (noFeed : '\n' ∉ mark)
    (noReturn : '\r' ∉ mark) (text : List Char) :
    lines (mark ++ text) = (mark ++ (lines text).headD []) :: (lines text).tail := by
  induction mark with
  | nil => exact absurd rfl nonempty
  | cons c mark ih =>
    rw [List.mem_cons, not_or] at noFeed noReturn
    have first (text : List Char) :
        lines (c :: text) = (c :: (lines text).headD []) :: (lines text).tail := by
      rw [lines]
      · cases lines text <;> rfl
      · exact fun feed => noFeed.1 feed.symm
      · exact fun _ isReturn _ => noReturn.1 isReturn.symm
    rw [List.cons_append, first]
    by_cases last : mark = []
    · rw [last, List.nil_append, List.cons_append, List.nil_append]
    · rw [ih last noFeed.2 noReturn.2]
      rfl

/-- Lines that were written are read back, each without a carriage return at its end. -/
theorem lines_terminated {written : List (List Char)} (noFeed : ∀ line ∈ written, '\n' ∉ line) :
    lines (terminated written) = written.map dropReturn := by
  induction written with
  | nil => rfl
  | cons line written ih =>
    obtain ⟨first, later⟩ := List.forall_mem_cons.mp noFeed
    rw [terminated_cons, List.append_assoc, List.singleton_append, lines_append_feed first, ih later,
      List.map_cons]

theorem lines_terminated_of_isLine {written : List (List Char)}
    (isLine : ∀ line ∈ written, IsLine line) : lines (terminated written) = written := by
  rw [lines_terminated fun line member => (isLine line member).noFeed]
  have kept : written.map dropReturn = written.map id :=
    List.map_congr_left fun line member => (isLine line member).dropReturn_eq
  rw [kept, List.map_id]

/-- Splitting at line feeds finds the lines, and nothing after the last one. -/
theorem splitOn_terminated {written : List (List Char)} (noFeed : ∀ line ∈ written, '\n' ∉ line) :
    (terminated written).splitOn '\n' = written ++ [[]] := by
  induction written with
  | nil => rfl
  | cons line written ih =>
    obtain ⟨first, later⟩ := List.forall_mem_cons.mp noFeed
    rw [terminated_cons, List.append_assoc, List.singleton_append,
      List.splitOn_append_cons_self_of_not_mem first, ih later, List.cons_append]

theorem before_eq_self_iff {separator : Char} {text : List Char} :
    before separator text = text ↔ separator ∉ text := by
  rw [before, List.takeWhile_eq_self_iff]
  constructor
  · intro others member
    exact absurd rfl (bne_iff_ne.mp (others separator member))
  · intro absent c member
    rw [bne_iff_ne]
    rintro rfl
    exact absent member

theorem strip_of_not_mem {c : Char} {text : List Char} (absent : c ∉ text) :
    strip (· == c) text = text := by
  have kept : ∀ d ∈ text, (d == c) = false := by
    intro d member
    rw [beq_eq_false_iff_ne]
    rintro rfl
    exact absent member
  apply strip_fixed
  · intro d first
    exact kept d (List.mem_of_mem_head? first)
  · intro d last
    exact kept d (List.mem_of_getLast? last)

/-- A text with a character that stripping keeps is not stripped away. -/
theorem strip_ne_nil {drops : Char → Bool} {text : List Char} {c : Char} (member : c ∈ text)
    (kept : drops c = false) : strip drops text ≠ [] := by
  intro empty
  rw [strip, List.reverse_eq_nil_iff, List.dropWhile_eq_nil_iff] at empty
  have leading : text.dropWhile drops = [] := by
    by_contra nonempty
    have first := List.head_dropWhile_not drops nonempty
    rw [empty _ (List.mem_reverse.mpr (List.head_mem nonempty))] at first
    cases first
  rw [List.dropWhile_eq_nil_iff.mp leading c member] at kept
  cases kept

end MergeRisk.Text
