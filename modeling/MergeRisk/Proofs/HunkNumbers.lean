import MergeRisk.Diff.Numbering
import MergeRisk.Proofs.ScriptDiff

/-! The numbers of changed lines, told from the text of a hunk. A changed row has the number at which
its side starts and one more for each row of that side above it. Counting the rows as they are read and
counting them in the text again comes to the same, as long as the counters stay within 32 bits. -/

namespace MergeRisk

/-! ### Rows as lines of text -/

namespace LineKind

/-- The first character of a row that changes its line so. -/
def mark : LineKind → Char
  | added => '+'
  | removed => '-'

def ofMark? (mark : Char) : Option LineKind :=
  if mark = '+' then some added else if mark = '-' then some removed else none

theorem forall_iff {holds : LineKind → Prop} :
    (∀ kind, holds kind) ↔ holds added ∧ holds removed := by
  refine ⟨fun all => ⟨all added, all removed⟩, ?_⟩
  rintro ⟨onAdded, onRemoved⟩ kind
  cases kind with
  | added => exact onAdded
  | removed => exact onRemoved

end LineKind

/-- How a row changes its line, if it does. -/
def changeOf? (row : List Char) : Option LineKind :=
  row.head?.bind LineKind.ofMark?

/-- Whether a row stands on the side that has the lines of a kind: as a changed line of this kind or
as a kept one. -/
def standsOn (kind : LineKind) (row : List Char) : Bool :=
  row.head? = some kind.mark || row.head? = some ' '

/-- How many rows stand on the side of a kind. -/
def rowsOn (kind : LineKind) (rows : List (List Char)) : Nat :=
  rows.countP (standsOn kind)

/-- A number for each side of a hunk. -/
def onSides (old new : Nat) : LineKind → Nat
  | .added => new
  | .removed => old

theorem standsOn_of_changeOf? {row : List Char} {kind : LineKind}
    (changes : changeOf? row = some kind) : standsOn kind row = true := by
  obtain ⟨mark, first, marks⟩ := Option.bind_eq_some_iff.mp changes
  have isMark : mark = kind.mark := by
    unfold LineKind.ofMark? at marks
    split at marks
    · cases marks
      assumption
    · split at marks
      · cases marks
        assumption
      · cases marks
  rw [standsOn, first, isMark, decide_eq_true rfl, Bool.true_or]

theorem Row.toList_render (row : Row) : row.render.toList = row.kind.mark :: row.text.toList := by
  rw [render, String.toList_ofList]

theorem standsOn_render (kind : LineKind) (row : Row) :
    standsOn kind row.render.toList =
      (kind = .removed && row.kind.inOld || kind = .added && row.kind.inNew) := by
  rw [row.toList_render]
  cases kind <;> cases row.kind <;> rfl

theorem rowsOn_map_render (rows : List Row) (kind : LineKind) :
    rowsOn kind (rows.map (·.render.toList)) =
      onSides (rows.countP (·.kind.inOld)) (rows.countP (·.kind.inNew)) kind := by
  rw [rowsOn, List.countP_map]
  cases kind with
  | added =>
    apply List.countP_congr
    simp [standsOn_render]
  | removed =>
    apply List.countP_congr
    simp [standsOn_render]

/-! ### What the rows of a text change -/

section
variable (start : LineKind → Nat) (rows : List (List Char))

/-- The number on the side of a kind of the row at an index, where the sides start as given. -/
def numberAt (kind : LineKind) (index : Nat) : Nat :=
  start kind + rowsOn kind (rows.take index)

/-- The change that the row at an index makes, if its mark is that of a change. -/
def changeAt? (index : Nat) : Option ChangedLine :=
  (rows[index]?.bind changeOf?).map fun kind => ⟨numberAt start rows kind index, kind⟩

/-- The changes that rows make, in the order of the rows. -/
def changesShown : List ChangedLine :=
  (List.range rows.length).filterMap (changeAt? start rows)

/-- Changed lines are counted from 1, and the number after that of any row is one of 32 bits. -/
structure InRange : Prop where
  positive : ∀ index change, changeAt? start rows index = some change → 1 ≤ change.number
  bounded : ∀ index row kind, rows[index]? = some row → standsOn kind row = true →
    numberAt start rows kind index + 1 ≤ Text.limit32

end

section
variable {start : LineKind → Nat} {rows : List (List Char)}

/-- Below a row of a side the numbers of this side are greater. -/
theorem numberAt_lt {kind : LineKind} {row : List Char} {index later : Nat}
    (found : rows[index]? = some row) (stands : standsOn kind row = true) (isLater : index < later) :
    numberAt start rows kind index < numberAt start rows kind later := by
  have next : rows.take (index + 1) = rows.take index ++ [row] := by
    rw [List.take_add_one, found, Option.toList_some]
  have counted : rowsOn kind (rows.take (index + 1)) = rowsOn kind (rows.take index) + 1 := by
    rw [rowsOn, rowsOn, next, List.countP_append, List.countP_singleton, if_pos stands]
  have among : rowsOn kind (rows.take (index + 1)) ≤ rowsOn kind (rows.take later) :=
    (List.take_prefix_take_left isLater).sublist.countP_le
  rw [numberAt, numberAt]
  omega

theorem exists_row_of_changeAt? {index : Nat} {change : ChangedLine}
    (changes : changeAt? start rows index = some change) :
    change.number = numberAt start rows change.kind index ∧
      ∃ row, rows[index]? = some row ∧ changeOf? row = some change.kind := by
  obtain ⟨kind, marked, rfl⟩ := Option.map_eq_some_iff.mp changes
  exact ⟨rfl, Option.bind_eq_some_iff.mp marked⟩

/-- The numbers of the changes of either kind increase from row to row. -/
theorem pairwise_changesShown (start : LineKind → Nat) (rows : List (List Char)) (kind : LineKind) :
    (((changesShown start rows).filter (·.kind = kind)).map (·.number)).Pairwise (· < ·) := by
  rw [List.pairwise_map, List.pairwise_filter, changesShown, List.pairwise_filterMap]
  apply List.pairwise_lt_range.imp
  intro index later isLater first firstChanges second secondChanges firstKind secondKind
  rw [decide_eq_true_eq] at firstKind secondKind
  obtain ⟨firstNumber, row, found, changes⟩ := exists_row_of_changeAt? firstChanges
  obtain ⟨secondNumber, _⟩ := exists_row_of_changeAt? secondChanges
  rw [firstNumber, secondNumber, secondKind, ← firstKind]
  exact numberAt_lt found (standsOn_of_changeOf? changes) isLater

end

/-! ### One row after the other -/

/-- Where the sides start below a row. -/
def below (start : LineKind → Nat) (row : List Char) (kind : LineKind) : Nat :=
  start kind + (standsOn kind row).toNat

section
variable {start : LineKind → Nat} {row : List Char} {rows : List (List Char)}

theorem numberAt_zero (kind : LineKind) : numberAt start rows kind 0 = start kind := by
  rw [numberAt, List.take_zero, rowsOn, List.countP_nil, Nat.add_zero]

theorem numberAt_cons (kind : LineKind) (index : Nat) :
    numberAt start (row :: rows) kind (index + 1) = numberAt (below start row) rows kind index := by
  simp only [numberAt, below, rowsOn, List.take_succ_cons, List.countP_cons]
  cases standsOn kind row
  · simp
  · simp
    omega

theorem changeAt?_zero : changeAt? start (row :: rows) 0 =
    (changeOf? row).map fun kind => ⟨start kind, kind⟩ := by
  simp only [changeAt?, List.getElem?_cons_zero, Option.bind_some, numberAt_zero]

theorem changeAt?_cons (index : Nat) :
    changeAt? start (row :: rows) (index + 1) = changeAt? (below start row) rows index := by
  simp only [changeAt?, List.getElem?_cons_succ, numberAt_cons]

theorem changesShown_cons : changesShown start (row :: rows) =
    ((changeOf? row).map fun kind => ⟨start kind, kind⟩).toList ++
      changesShown (below start row) rows := by
  have later : changeAt? start (row :: rows) ∘ Nat.succ = changeAt? (below start row) rows :=
    funext changeAt?_cons
  rw [changesShown, List.length_cons, List.range_succ_eq_map, List.filterMap_cons, changeAt?_zero,
    List.filterMap_map, later, ← changesShown]
  cases changeOf? row <;> rfl

theorem inRange_nil (start : LineKind → Nat) : InRange start [] where
  positive index change changes := by
    rw [changeAt?, List.getElem?_nil] at changes
    cases changes
  bounded index row kind found := by
    rw [List.getElem?_nil] at found
    cases found

theorem inRange_cons : InRange start (row :: rows) ↔
    (∀ kind, changeOf? row = some kind → 1 ≤ start kind) ∧
    (∀ kind, standsOn kind row = true → start kind + 1 ≤ Text.limit32) ∧
    InRange (below start row) rows := by
  constructor
  · intro inRange
    refine ⟨?_, ?_, ?_, ?_⟩
    · intro kind changes
      exact inRange.positive 0 ⟨start kind, kind⟩ (by rw [changeAt?_zero, changes]; rfl)
    · intro kind stands
      have bounded := inRange.bounded 0 row kind rfl stands
      rwa [numberAt_zero] at bounded
    · intro index change changes
      exact inRange.positive (index + 1) change (by rw [changeAt?_cons, changes])
    · intro index other kind found stands
      have bounded := inRange.bounded (index + 1) other kind found stands
      rwa [numberAt_cons] at bounded
  · rintro ⟨positive, bounded, later⟩
    constructor
    · intro index change changes
      cases index with
      | zero =>
        rw [changeAt?_zero] at changes
        obtain ⟨kind, marked, rfl⟩ := Option.map_eq_some_iff.mp changes
        exact positive kind marked
      | succ index =>
        rw [changeAt?_cons] at changes
        exact later.positive index change changes
    · intro index other kind found stands
      cases index with
      | zero =>
        cases found
        rw [numberAt_zero]
        exact bounded kind stands
      | succ index =>
        rw [numberAt_cons]
        exact later.bounded index other kind found stands

end

theorem below_render (old new : Nat) (row : Row) : below (onSides old new) row.render.toList =
    onSides (old + row.kind.inOld.toNat) (new + row.kind.inNew.toNat) := by
  funext kind
  rw [below, standsOn_render]
  cases kind <;> simp [onSides]

namespace Hunk

/-- Counting rows one by one gives each change the number that its place in the text gives it. -/
theorem changedLinesFrom_eq_changesShown (old new : Nat) (rows : List Row) :
    changedLinesFrom old new rows =
      changesShown (onSides old new) (rows.map (·.render.toList)) := by
  induction rows generalizing old new with
  | nil => rfl
  | cons row rows ih =>
    rw [List.map_cons, changesShown_cons, below_render, ← ih, row.toList_render]
    cases kind : row.kind <;> simp [changedLinesFrom, kind, changeOf?, RowKind.mark,
      LineKind.ofMark?, RowKind.inOld, RowKind.inNew, onSides, ChangedLine.added,
      ChangedLine.removed]

/-! ### Counters of 32 bits -/

theorem raised?_eq_some_iff {counter next : Nat} :
    raised? counter = some next ↔ counter + 1 ≤ Text.limit32 ∧ next = counter + 1 := by
  rw [raised?, Option.ite_none_right_eq_some, Option.some.injEq, @eq_comm _ next]
  rfl

/-- One row is numbered if it has numbers that can be counted on, and then so are the rows below it. -/
theorem numbered?_cons {old new : Nat} {row : Row} {rows : List Row} {changes : List ChangedLine} :
    numbered? old new (row :: rows) = some changes ↔
      (∀ kind, changeOf? row.render.toList = some kind → 1 ≤ onSides old new kind) ∧
      (∀ kind, standsOn kind row.render.toList = true → onSides old new kind + 1 ≤ Text.limit32) ∧
      ∃ later, numbered? (old + row.kind.inOld.toNat) (new + row.kind.inNew.toNat) rows = some later ∧
        changes = ((changeOf? row.render.toList).map fun kind =>
          ⟨onSides old new kind, kind⟩).toList ++ later := by
  rw [numbered?, LineKind.forall_iff, LineKind.forall_iff, standsOn_render, standsOn_render,
    row.toList_render]
  cases row.kind <;>
    simp [Option.bind_eq_some_iff, raised?_eq_some_iff, changeOf?, RowKind.mark, LineKind.ofMark?,
      RowKind.inOld, RowKind.inNew, onSides, ChangedLine.added, ChangedLine.removed,
      Nat.one_le_iff_ne_zero, and_assoc, and_left_comm, @eq_comm _ changes]

/-- Counters of 32 bits number the rows exactly where all numbers are in range, and then as counting
without a bound does. -/
theorem numbered?_eq_some_iff {old new : Nat} {rows : List Row} {changes : List ChangedLine} :
    numbered? old new rows = some changes ↔
      InRange (onSides old new) (rows.map (·.render.toList)) ∧
        changes = changesShown (onSides old new) (rows.map (·.render.toList)) := by
  induction rows generalizing old new changes with
  | nil =>
    rw [numbered?, Option.some.injEq, List.map_nil, @eq_comm _ []]
    exact ⟨fun none => ⟨inRange_nil _, none⟩, And.right⟩
  | cons row rows ih =>
    rw [numbered?_cons, List.map_cons, inRange_cons, changesShown_cons, below_render]
    simp only [ih, and_assoc, exists_and_left, exists_eq_left]

/-- Splitting the text of rows again leaves their kinds as they were, so it is numbered alike. -/
theorem numbered?_map {change : Row → Row} (sameKind : ∀ row, (change row).kind = row.kind)
    (old new : Nat) (rows : List Row) :
    numbered? old new (rows.map change) = numbered? old new rows := by
  induction rows generalizing old new with
  | nil => rfl
  | cons row rows ih =>
    rw [List.map_cons, numbered?, numbered?, sameKind]
    simp only [ih]

end Hunk

end MergeRisk
