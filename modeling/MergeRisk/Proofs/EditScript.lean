import MergeRisk.Diff.Script

/-! Edit scripts, the lines that they delete and insert, and the ways of cutting one into hunks. The
changed lines of the hunks are those of the script, wherever it is cut. -/

namespace MergeRisk

universe u
variable {α : Type u}

/-! ### Sides of a script -/

/-- The text on one side of a script. -/
def sideText (side : RowKind → Bool) (script : List (Edit α)) : List α :=
  (script.filter fun edit => side edit.kind).map Edit.line

def oldText (script : List (Edit α)) : List α := sideText RowKind.inOld script

def newText (script : List (Edit α)) : List α := sideText RowKind.inNew script

/-- The lines that both sides share. -/
def keptText (script : List (Edit α)) : List α := sideText (· = .kept) script

/-- A script that turns one text into another. -/
structure Turns (script : List (Edit α)) (old new : List α) : Prop where
  oldSide : oldText script = old
  newSide : newText script = new

/-- Line `number` of a side, counted from 1, stands in an edit of the given kind. -/
def HasAt (side : RowKind → Bool) (kind : RowKind) (script : List (Edit α)) (number : Nat) : Prop :=
  ∃ before edit after, script = before ++ edit :: after ∧ edit.kind = kind ∧
    number = (sideText side before).length + 1

/-- The script deletes line `number` of the old text. -/
def Deletes (script : List (Edit α)) (number : Nat) : Prop :=
  HasAt RowKind.inOld .removed script number

/-- The script inserts line `number` of the new text. -/
def Inserts (script : List (Edit α)) (number : Nat) : Prop :=
  HasAt RowKind.inNew .added script number

theorem sideText_cons (side : RowKind → Bool) (edit : Edit α) (script : List (Edit α)) :
    sideText side (edit :: script) =
      if side edit.kind then edit.line :: sideText side script else sideText side script := by
  rw [sideText, List.filter_cons]
  split <;> rfl

theorem sideText_append (side : RowKind → Bool) (first second : List (Edit α)) :
    sideText side (first ++ second) = sideText side first ++ sideText side second := by
  rw [sideText, List.filter_append, List.map_append]
  rfl

theorem Turns.append {first second : List (Edit α)} {old otherOld new otherNew : List α}
    (turns : Turns first old new) (others : Turns second otherOld otherNew) :
    Turns (first ++ second) (old ++ otherOld) (new ++ otherNew) where
  oldSide := by rw [← turns.oldSide, ← others.oldSide, oldText, sideText_append, oldText, oldText]
  newSide := by rw [← turns.newSide, ← others.newSide, newText, sideText_append, newText, newText]

/-- Every line of a script stands in one of its texts. -/
theorem mem_texts {script : List (Edit α)} {edit : Edit α} (member : edit ∈ script) :
    edit.line ∈ oldText script ∨ edit.line ∈ newText script := by
  have onSide : edit.kind.inOld = true ∨ edit.kind.inNew = true := by
    cases edit <;> simp [Edit.kind, RowKind.inOld, RowKind.inNew]
  rcases onSide with inOld | inNew
  · exact .inl (List.mem_map_of_mem (List.mem_filter.mpr ⟨member, inOld⟩))
  · exact .inr (List.mem_map_of_mem (List.mem_filter.mpr ⟨member, inNew⟩))

section HasAt
variable {side : RowKind → Bool} {kind : RowKind} {script : List (Edit α)} {number : Nat}

theorem HasAt.positive (found : HasAt side kind script number) : 0 < number := by
  obtain ⟨before, edit, after, _, _, rfl⟩ := found
  exact Nat.succ_pos _

theorem not_hasAt_nil : ¬ HasAt side kind ([] : List (Edit α)) number := by
  rintro ⟨before, edit, after, split, _, _⟩
  simp at split

theorem hasAt_cons {edit : Edit α} : HasAt side kind (edit :: script) number ↔
    (edit.kind = kind ∧ number = 1) ∨
      ∃ later, HasAt side kind script later ∧ number = later + (side edit.kind).toNat := by
  constructor
  · rintro ⟨before, found, after, split, isKind, rfl⟩
    cases before with
    | nil =>
      obtain ⟨rfl, rfl⟩ := List.cons.inj split
      exact .inl ⟨isKind, rfl⟩
    | cons first before =>
      obtain ⟨rfl, rfl⟩ := List.cons.inj split
      refine .inr ⟨_, ⟨before, found, after, rfl, isKind, rfl⟩, ?_⟩
      rw [sideText_cons]
      cases side edit.kind <;> rfl
  · rintro (⟨isKind, rfl⟩ | ⟨later, ⟨before, found, after, rfl, isKind, rfl⟩, rfl⟩)
    · exact ⟨[], edit, script, rfl, isKind, rfl⟩
    · refine ⟨edit :: before, found, after, rfl, isKind, ?_⟩
      rw [sideText_cons]
      cases side edit.kind <;> rfl

theorem hasAt_cons_on {edit : Edit α} (isOn : side edit.kind = true) :
    HasAt side kind (edit :: script) (number + 1) ↔
      (edit.kind = kind ∧ number = 0) ∨ HasAt side kind script number := by
  rw [hasAt_cons, isOn]
  simp [eq_comm]

theorem hasAt_cons_off {edit : Edit α} (isOff : side edit.kind = false) (isOn : side kind = true) :
    HasAt side kind (edit :: script) number ↔ HasAt side kind script number := by
  have different : edit.kind ≠ kind := by
    rintro rfl
    rw [isOn] at isOff
    cases isOff
  rw [hasAt_cons, isOff]
  simp [different]

/-- What the lines of a script are, from its first edit and from the lines after it. -/
theorem exists_hasAt_cons {β : Type} {edit : Edit α} {changed : Nat → β} {line : β} {before : Nat} :
    (∃ number, line = changed (before + number) ∧ HasAt side kind (edit :: script) number) ↔
      (edit.kind = kind ∧ line = changed (before + 1)) ∨
        ∃ number, line = changed (before + (side edit.kind).toNat + number) ∧
          HasAt side kind script number := by
  simp only [hasAt_cons]
  constructor
  · rintro ⟨number, rfl, ⟨isKind, rfl⟩ | ⟨later, found, rfl⟩⟩
    · exact .inl ⟨isKind, rfl⟩
    · exact .inr ⟨later, by rw [Nat.add_assoc, Nat.add_comm later], found⟩
  · rintro (⟨isKind, rfl⟩ | ⟨later, rfl, found⟩)
    · exact ⟨1, rfl, .inl ⟨isKind, rfl⟩⟩
    · exact ⟨_, by rw [Nat.add_assoc, Nat.add_comm later], .inr ⟨later, found, rfl⟩⟩

end HasAt

/-! ### Erasing lines -/

/-- The lines of a text that are not erased, where the first has the given number. -/
def eraseLines (erased : Nat → Bool) (first : Nat) (text : List α) : List α :=
  (text.zipIdx first).filterMap fun (line, number) => if erased number then none else some line

theorem eraseLines_cons (erased : Nat → Bool) (first : Nat) (line : α) (text : List α) :
    eraseLines erased first (line :: text) =
      if erased first then eraseLines erased (first + 1) text
      else line :: eraseLines erased (first + 1) text := by
  simp only [eraseLines, List.zipIdx_cons, List.filterMap_cons]
  cases erased first <;> rfl

/-- A side without its own changes is what both sides share. -/
theorem eraseLines_sideText {side : RowKind → Bool} {changed : RowKind}
    (onSide : ∀ kind, side kind = true ↔ kind = .kept ∨ kind = changed) (isChange : changed ≠ .kept)
    {erased : Nat → Bool} {script : List (Edit α)} {before : Nat}
    (erases : ∀ number,
      erased (before + number + 1) = true ↔ HasAt side changed script (number + 1)) :
    eraseLines erased (before + 1) (sideText side script) = keptText script := by
  induction script generalizing before with
  | nil => rfl
  | cons edit script ih =>
    rw [keptText, sideText_cons, sideText_cons, ← keptText]
    -- An edit on the side takes the next number; one off it leaves the numbering alone.
    by_cases isOn : side edit.kind = true
    · have first : erased (before + 1) = true ↔ edit.kind = changed := by
        have none : ¬ HasAt side changed script 0 := fun found => Nat.lt_irrefl 0 found.positive
        have here := erases 0
        rw [hasAt_cons_on isOn] at here
        simpa [none] using here
      have later : eraseLines erased (before + 1 + 1) (sideText side script) = keptText script := by
        apply ih
        intro number
        have further := erases (number + 1)
        rw [hasAt_cons_on isOn] at further
        simpa [Nat.add_assoc, Nat.add_comm, Nat.add_left_comm] using further
      rw [if_pos isOn, eraseLines_cons, later]
      rcases (onSide edit.kind).mp isOn with isKept | isChanged
      · have unchanged : ¬ erased (before + 1) = true := by
          rw [first, isKept]
          exact isChange.symm
        simp only [if_neg unchanged, isKept, decide_true, if_true]
      · have unkept : edit.kind ≠ .kept := isChanged ▸ isChange
        simp only [if_pos (first.mpr isChanged), unkept, decide_false, Bool.false_eq_true, if_false]
    · have unkept : edit.kind ≠ .kept := fun isKept => isOn ((onSide edit.kind).mpr (.inl isKept))
      have isOff : side edit.kind = false := by simpa using isOn
      simp only [isOff, unkept, decide_false, Bool.false_eq_true, if_false]
      apply ih
      intro number
      rw [erases, hasAt_cons_off isOff ((onSide changed).mpr (.inr rfl))]

/-- Without the deleted and the inserted lines both texts are the same. -/
theorem eraseLines_eq {script : List (Edit α)} {removed added : Nat → Bool}
    (deletes : ∀ number, removed number = true ↔ Deletes script number)
    (inserts : ∀ number, added number = true ↔ Inserts script number) :
    eraseLines removed 1 (oldText script) = eraseLines added 1 (newText script) := by
  have onOld (kind : RowKind) : kind.inOld = true ↔ kind = .kept ∨ kind = .removed := by
    cases kind <;> decide
  have onNew (kind : RowKind) : kind.inNew = true ↔ kind = .kept ∨ kind = .added := by
    cases kind <;> decide
  have oldKept : eraseLines removed (0 + 1) (oldText script) = keptText script := by
    apply eraseLines_sideText onOld (by decide)
    intro number
    rw [Nat.zero_add]
    exact deletes (number + 1)
  have newKept : eraseLines added (0 + 1) (newText script) = keptText script := by
    apply eraseLines_sideText onNew (by decide)
    intro number
    rw [Nat.zero_add]
    exact inserts (number + 1)
  exact oldKept.trans newKept.symm

/-! ### Changed lines -/

def Edit.row (edit : Edit String) : Row := ⟨edit.kind, edit.line⟩

theorem length_sideText (side : RowKind → Bool) (script : List (Edit String)) :
    (sideText side script).length = (script.map Edit.row).countP (side ·.kind) := by
  rw [sideText, List.length_map, ← List.countP_eq_length_filter, List.countP_map]
  rfl

namespace Hunk

theorem changedLinesFrom_append (old new : Nat) (first second : List Row) :
    changedLinesFrom old new (first ++ second) = changedLinesFrom old new first ++
      changedLinesFrom (old + first.countP (·.kind.inOld)) (new + first.countP (·.kind.inNew))
        second := by
  induction first generalizing old new with
  | nil => rfl
  | cons row first ih =>
    cases kind : row.kind <;>
      simp [changedLinesFrom, kind, ih, RowKind.inOld, RowKind.inNew, Nat.add_assoc, Nat.add_comm 1]

/-- Rows without a line of the old text do not use its line numbers. -/
theorem changedLinesFrom_old {rows : List Row} (none : rows.countP (·.kind.inOld) = 0)
    (old other new : Nat) : changedLinesFrom old new rows = changedLinesFrom other new rows := by
  induction rows generalizing new with
  | nil => rfl
  | cons row rows ih =>
    simp only [List.countP_eq_zero, List.forall_mem_cons] at none ih
    cases kind : row.kind <;> simp_all [changedLinesFrom, RowKind.inOld]

theorem changedLinesFrom_new {rows : List Row} (none : rows.countP (·.kind.inNew) = 0)
    (old new other : Nat) : changedLinesFrom old new rows = changedLinesFrom old other rows := by
  induction rows generalizing old with
  | nil => rfl
  | cons row rows ih =>
    simp only [List.countP_eq_zero, List.forall_mem_cons] at none ih
    cases kind : row.kind <;> simp_all [changedLinesFrom, RowKind.inNew]

/-- The start of a side without lines does not matter. -/
theorem changedLines_ofRows (oldBefore newBefore : Nat) (rows : List Row) :
    (ofRows oldBefore newBefore rows).changedLines =
      changedLinesFrom (oldBefore + 1) (newBefore + 1) rows := by
  rw [changedLines, ofRows]
  dsimp only
  split
  · rename_i noOld
    rw [changedLinesFrom_old noOld oldBefore (oldBefore + 1)]
    split
    · rename_i noNew
      exact changedLinesFrom_new noNew ..
    · rfl
  · split
    · rename_i noNew
      exact changedLinesFrom_new noNew ..
    · rfl

/-- Rows of the same kinds change the same lines. -/
theorem changedLinesFrom_map {change : Row → Row} (sameKind : ∀ row, (change row).kind = row.kind)
    (old new : Nat) (rows : List Row) :
    changedLinesFrom old new (rows.map change) = changedLinesFrom old new rows := by
  induction rows generalizing old new with
  | nil => rfl
  | cons row rows ih =>
    rw [List.map_cons, changedLinesFrom, changedLinesFrom, sameKind]
    simp only [ih]

end Hunk

theorem mem_changedLinesFrom {script : List (Edit String)} {oldBefore newBefore : Nat}
    {line : ChangedLine} :
    line ∈ Hunk.changedLinesFrom (oldBefore + 1) (newBefore + 1) (script.map Edit.row) ↔
      (∃ number, line = .removed (oldBefore + number) ∧ Deletes script number) ∨
        ∃ number, line = .added (newBefore + number) ∧ Inserts script number := by
  induction script generalizing oldBefore newBefore with
  | nil => simp [Hunk.changedLinesFrom, Deletes, Inserts, not_hasAt_nil]
  | cons edit script ih =>
    -- The first edit gives at most one line, and moves the numbers of the sides it stands on.
    have step : line ∈ Hunk.changedLinesFrom (oldBefore + 1) (newBefore + 1)
          ((edit :: script).map Edit.row) ↔
        ((edit.kind = .removed ∧ line = .removed (oldBefore + 1)) ∨
          (edit.kind = .added ∧ line = .added (newBefore + 1))) ∨
        line ∈ Hunk.changedLinesFrom (oldBefore + edit.kind.inOld.toNat + 1)
          (newBefore + edit.kind.inNew.toNat + 1) (script.map Edit.row) := by
      cases edit <;> simp [Hunk.changedLinesFrom, Edit.row, Edit.kind, RowKind.inOld, RowKind.inNew]
    rw [step, ih]
    simp only [Deletes, Inserts]
    rw [exists_hasAt_cons, exists_hasAt_cons, or_or_or_comm]

/-! ### Cutting -/

/-- A script, after so many lines of both sides, cut into hunks that cover its changes. -/
inductive Cut : (oldBefore newBefore : Nat) → List (Edit String) → List Hunk → Prop where
  | done {oldBefore newBefore : Nat} : Cut oldBefore newBefore [] []
  /-- A kept line between hunks. -/
  | skip {oldBefore newBefore : Nat} {script : List (Edit String)} {hunks : List Hunk}
      (line : String) (rest : Cut (oldBefore + 1) (newBefore + 1) script hunks) :
      Cut oldBefore newBefore (.keep line :: script) hunks
  | hunk {oldBefore newBefore : Nat} {edits script : List (Edit String)} {hunks : List Hunk}
      (nonempty : edits ≠ [])
      (rest : Cut (oldBefore + (oldText edits).length) (newBefore + (newText edits).length)
        script hunks) :
      Cut oldBefore newBefore (edits ++ script)
        (.ofRows oldBefore newBefore (edits.map Edit.row) :: hunks)

namespace Cut
variable {oldBefore newBefore : Nat} {script : List (Edit String)} {hunks : List Hunk}

/-- Each hunk holds the edits of a part of the script, after the lines of what comes before. -/
theorem of_mem (cut : Cut oldBefore newBefore script hunks) {hunk : Hunk} (member : hunk ∈ hunks) :
    ∃ before edits after, script = before ++ edits ++ after ∧ edits ≠ [] ∧
      hunk = .ofRows (oldBefore + (oldText before).length) (newBefore + (newText before).length)
        (edits.map Edit.row) := by
  induction cut with
  | done => cases member
  | skip line rest ih =>
    obtain ⟨before, edits, after, rfl, nonempty, rfl⟩ := ih member
    refine ⟨.keep line :: before, edits, after, rfl, nonempty, ?_⟩
    simp [oldText, newText, sideText_cons, Edit.kind, RowKind.inOld, RowKind.inNew, Nat.add_assoc,
      Nat.add_comm 1]
  | hunk nonempty rest ih =>
    rename_i edits script hunks
    rcases List.mem_cons.mp member with rfl | later
    · exact ⟨[], edits, script, rfl, nonempty, rfl⟩
    · obtain ⟨before, laterEdits, after, rfl, laterNonempty, rfl⟩ := ih later
      refine ⟨edits ++ before, laterEdits, after, by simp, laterNonempty, ?_⟩
      simp [oldText, newText, sideText_append, Nat.add_assoc]

theorem mem_rows (cut : Cut oldBefore newBefore script hunks) {hunk : Hunk}
    (member : hunk ∈ hunks) {row : Row} (inRows : row ∈ hunk.rows) :
    ∃ edit ∈ script, row = edit.row := by
  obtain ⟨before, edits, after, rfl, _, rfl⟩ := cut.of_mem member
  obtain ⟨edit, inEdits, rfl⟩ := List.mem_map.mp inRows
  exact ⟨edit, by simp [inEdits], rfl⟩

/-- The hunks change the lines of the whole script, wherever it is cut. -/
theorem changedLines (cut : Cut oldBefore newBefore script hunks) : hunks.flatMap Hunk.changedLines =
      Hunk.changedLinesFrom (oldBefore + 1) (newBefore + 1) (script.map Edit.row) := by
  induction cut with
  | done => rfl
  | skip line rest ih => exact ih
  | hunk nonempty rest ih =>
    rw [List.flatMap_cons, ih, Hunk.changedLines_ofRows, List.map_append,
      Hunk.changedLinesFrom_append, oldText, newText, length_sideText, length_sideText]
    simp only [Nat.add_right_comm]

end Cut

end MergeRisk
