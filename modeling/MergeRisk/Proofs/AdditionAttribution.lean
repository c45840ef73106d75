import Mathlib.Tactic.Choose
import MergeRisk.Proofs.Attribution
import MergeRisk.Proofs.MergedScript

/-! Insertions attributed to the parents of a merge, from the written diffs to the reported numbers.
An inserted line is looked for in the text of its author under the number that it has in the merge,
so what the other parent does above it decides what is found there. -/

namespace MergeRisk

open JointEdit

/-! ### Added lines of a version -/

def AttributedLines.added (lines : AttributedLines) : Parent → NumberSet
  | .left => lines.leftAdded
  | .right => lines.rightAdded

theorem mem_added_ofVersions {merged : ChangedMethod} {versions : Parent → ChangedMethod}
    {author : Parent} {number : Nat} :
    number ∈ (AttributedLines.ofVersions merged (versions .left) (versions .right)).added author ↔
      .added number ∈ merged.lines ∧ .added number ∈ (versions author).lines := by
  cases author with
  | left => exact mem_sharedLines
  | right => exact mem_sharedLines

theorem added_mem_version {oldSpans newSpans : List MethodSpan} {lines : LineSet}
    {method : Signature} {version : ChangedMethod} {number : Nat}
    (touched : (methodsTouched oldSpans newSpans lines).find? method = some version) :
    .added number ∈ version.lines ↔ .added number ∈ lines ∧ LiesIn newSpans number method := by
  obtain ⟨member, rfl⟩ := OrderedBy.find?_eq_some_iff.mp touched
  rw [mem_lines_of_touched member, methodAt?_added]

/-! ### Insertions of a merge -/

/-- Spans that find a method around the same lines in every text of a merge. -/
def LocatedAlike (steps : List (JointEdit String)) (spans : MergeText → List MethodSpan)
    (method : Signature) : Prop :=
  ∀ before step after, steps = before ++ step :: after →
    ∀ text other, step.standsIn text = true → step.standsIn other = true →
      LiesIn (spans text) (numberIn text before) method →
      LiesIn (spans other) (numberIn other before) method

/-- The changes of both parents, step by step. -/
def jointSteps {base : List String} (changes : Parent → WrittenScript base) :
    List (JointEdit String) :=
  weave (changes .left).script (changes .right).script

theorem scriptTo_jointSteps {base : List String} {changes : Parent → WrittenScript base}
    (apart : Apart (changes .left).script (changes .right).script) (parent : Parent) :
    scriptTo (.parent parent) (jointSteps changes) = (changes parent).script := by
  have sameOld : oldText (changes .left).script = oldText (changes .right).script := by
    rw [(changes .left).turns.oldSide, (changes .right).turns.oldSide]
  obtain ⟨ofLeft, ofRight⟩ := scriptTo_weave sameOld apart
  cases parent with
  | left => exact ofLeft
  | right => exact ofRight

/-- Two scripts of one base text that keep apart, and their merge, written as diffs. A line that a
parent inserts into a method that both parents touch is attributed to the parent exactly when the
line of that number in the parent's own text is one that it inserts into the method. So it is when the
other parent inserts as many lines above it as it deletes there. -/
theorem WrittenScript.additions_attributed {base : List String}
    (changes : Parent → WrittenScript base) (merge : WrittenScript base)
    (spans : MergeText → List MethodSpan)
    (apart : Apart (changes .left).script (changes .right).script)
    (merges : merge.script = scriptTo .merge (jointSteps changes)) :
    (∀ parent, scriptTo (.parent parent) (jointSteps changes) = (changes parent).script) ∧
    ∃ (diffs : Parent → FileDiff) (mergeDiff : FileDiff),
      (∀ parent, Diff.read (changes parent).text = .ok [diffs parent]) ∧
      Diff.read merge.text = .ok [mergeDiff] ∧
      ∀ method (versions : Parent → ChangedMethod),
        LocatedAlike (jointSteps changes) spans method →
        (∀ parent, (methodsTouched (spans .base) (spans (.parent parent))
          (diffs parent).changedLines).find? method = some (versions parent)) →
        ∀ author before line after,
          jointSteps changes = before ++ .insert author line :: after →
          LiesIn (spans .merge) (numberIn .merge before) method →
          ∃ merged,
            (methodsTouched (spans .base) (spans .merge) mergeDiff.changedLines).find? method =
              some merged ∧
            (numberIn .merge before ∈
                (AttributedLines.ofVersions merged (versions .left) (versions .right)).added author ↔
              Inserts (changes author).script (numberIn .merge before) ∧
                LiesIn (spans (.parent author)) (numberIn .merge before) method) ∧
            (before.countP (isInsertion author.other) = before.countP (isDeletion author.other) →
              numberIn .merge before ∈
                (AttributedLines.ofVersions merged (versions .left) (versions .right)).added
                  author) := by
  have woven := scriptTo_jointSteps apart
  choose diffs diffRead _ diffInserts using fun parent => (changes parent).read
  obtain ⟨mergeDiff, mergeRead, _, mergeInserts⟩ := merge.read
  refine ⟨woven, diffs, mergeDiff, diffRead, mergeRead, ?_⟩
  intro method versions alike touched author before line after split inMethod
  have ownLine : (insert author line).standsIn (.parent author) = true := beq_self_eq_true author
  have shown : .added (numberIn .merge before) ∈ mergeDiff.changedLines := by
    rw [mergeInserts, merges, split]
    exact inserts_scriptTo before after rfl rfl
  obtain ⟨merged, inMerge⟩ := exists_touched shown (methodAt?_added.mpr inMethod)
  have attributed : numberIn .merge before ∈
        (AttributedLines.ofVersions merged (versions .left) (versions .right)).added author ↔
      Inserts (changes author).script (numberIn .merge before) ∧
        LiesIn (spans (.parent author)) (numberIn .merge before) method := by
    rw [mem_added_ofVersions, added_mem_version inMerge, added_mem_version (touched author),
      diffInserts]
    exact and_iff_right ⟨shown, inMethod⟩
  refine ⟨merged, inMerge, attributed, ?_⟩
  intro balanced
  -- What the other parent does above the line cancels out, so the line keeps its number.
  have sameNumber : numberIn .merge before = numberIn (.parent author) before := by
    have moved := numberIn_merge author before
    omega
  have inserted : Inserts (changes author).script (numberIn (.parent author) before) := by
    rw [← woven author, split]
    exact inserts_scriptTo before after rfl ownLine
  have inOwnText := alike before _ after split .merge (.parent author) rfl ownLine inMethod
  rw [attributed, sameNumber]
  exact ⟨inserted, inOwnText⟩

/-! ### A line that moves and one that does not -/

/-- A span around the whole of each text. -/
def wholeSpans (steps : List (JointEdit String)) (method : Signature) (text : MergeText) :
    List MethodSpan :=
  [⟨method, 1, steps.countP (standsIn text)⟩]

theorem locatedAlike_wholeSpans (steps : List (JointEdit String)) (method : Signature) :
    LocatedAlike steps (wholeSpans steps method) method := by
  intro before step after split text other _ stands _
  have within : numberIn other before ≤ steps.countP (standsIn other) := by
    rw [split, List.countP_append, List.countP_cons_of_pos stands, numberIn]
    omega
  have positive : 1 ≤ numberIn other before := Nat.succ_pos _
  rw [liesIn_iff]
  simp [wholeSpans, MethodSpan.innermost?, MethodSpan.contains, within, positive, least?]

def menuBase : List String := ["a", "b", "c", "d"]

def orderMethod : Signature := ⟨"Menu", "order", ["Dish"], by decide, by decide, by decide⟩

/-- The left parent inserts a line near the end. -/
def menuLeft : WrittenScript menuBase :=
  .whole [.keep "a", .keep "b", .keep "c", .insert "y", .keep "d"] (by decide) (by decide)
    (by decide) ⟨by decide, by decide⟩ (by decide)

/-- The right parent replaces the first line. -/
def replacingRight : WrittenScript menuBase :=
  .whole [.delete "a", .insert "x", .keep "b", .keep "c", .keep "d"] (by decide) (by decide)
    (by decide) ⟨by decide, by decide⟩ (by decide)

def replacingMerge : WrittenScript menuBase :=
  .whole [.delete "a", .insert "x", .keep "b", .keep "c", .insert "y", .keep "d"] (by decide)
    (by decide) (by decide) ⟨by decide, by decide⟩ (by decide)

/-- The right parent inserts a line below the first one. -/
def growingRight : WrittenScript menuBase :=
  .whole [.keep "a", .insert "x", .keep "b", .keep "c", .keep "d"] (by decide) (by decide)
    (by decide) ⟨by decide, by decide⟩ (by decide)

def growingMerge : WrittenScript menuBase :=
  .whole [.keep "a", .insert "x", .keep "b", .keep "c", .insert "y", .keep "d"] (by decide)
    (by decide) (by decide) ⟨by decide, by decide⟩ (by decide)

def menuChanges (right : WrittenScript menuBase) : Parent → WrittenScript menuBase
  | .left => menuLeft
  | .right => right

/-- What the diff of such a script is read as. -/
def menuDiff (written : WrittenScript menuBase) : FileDiff where
  oldPath := "x"
  newPath := "x"
  hunks := written.hunks

/-- The method as a script changes it: all of its lines are in the method. -/
def menuVersion (written : WrittenScript menuBase) : ChangedMethod :=
  ⟨orderMethod, (menuDiff written).changedLines⟩

def menuSpans (right : WrittenScript menuBase) : MergeText → List MethodSpan :=
  wholeSpans (jointSteps (menuChanges right)) orderMethod

theorem eq_of_read {text : String} {first second : FileDiff} (read : Diff.read text = .ok [first])
    (readToo : Diff.read text = .ok [second]) : first = second := by
  rw [read, Except.ok.injEq, List.cons.injEq] at readToo
  exact readToo.1

/-- A replaced line moves nothing: the line of the left parent keeps its number 4. -/
theorem WrittenScript.additions_attributed_replacing :
    Apart menuLeft.script replacingRight.script ∧
    replacingMerge.script = scriptTo .merge (jointSteps (menuChanges replacingRight)) ∧
    (∀ parent, (methodsTouched (menuSpans replacingRight .base)
      (menuSpans replacingRight (.parent parent))
      (menuDiff (menuChanges replacingRight parent)).changedLines).find? orderMethod =
        some (menuVersion (menuChanges replacingRight parent))) ∧
    (methodsTouched (menuSpans replacingRight .base) (menuSpans replacingRight .merge)
      (menuDiff replacingMerge).changedLines).find? orderMethod =
        some (menuVersion replacingMerge) ∧
    LiesIn (menuSpans replacingRight .merge) 4 orderMethod ∧
    4 ∈ (AttributedLines.ofVersions (menuVersion replacingMerge) (menuVersion menuLeft)
      (menuVersion replacingRight)).leftAdded := by
  have apart : Apart menuLeft.script replacingRight.script := by decide
  have merges : replacingMerge.script =
      scriptTo .merge (jointSteps (menuChanges replacingRight)) := rfl
  have touched (parent : Parent) : (methodsTouched (menuSpans replacingRight .base)
      (menuSpans replacingRight (.parent parent))
      (menuDiff (menuChanges replacingRight parent)).changedLines).find? orderMethod =
        some (menuVersion (menuChanges replacingRight parent)) := by
    cases parent <;> decide +kernel
  have inMerge : (methodsTouched (menuSpans replacingRight .base)
      (menuSpans replacingRight .merge) (menuDiff replacingMerge).changedLines).find? orderMethod =
        some (menuVersion replacingMerge) := by
    decide +kernel
  have inMethod : LiesIn (menuSpans replacingRight .merge) 4 orderMethod := by
    rw [liesIn_iff]
    decide +kernel
  obtain ⟨_, diffs, mergeDiff, diffRead, mergeRead, attributed⟩ :=
    additions_attributed (menuChanges replacingRight) replacingMerge (menuSpans replacingRight)
      apart merges
  have isMergeDiff : mergeDiff = menuDiff replacingMerge :=
    eq_of_read mergeRead (by decide +kernel)
  have isDiff : diffs = fun parent => menuDiff (menuChanges replacingRight parent) := by
    funext parent
    apply eq_of_read (diffRead parent)
    cases parent <;> decide +kernel
  subst isMergeDiff isDiff
  obtain ⟨merged, found, _, kept⟩ := attributed orderMethod
    (fun parent => menuVersion (menuChanges replacingRight parent))
    (locatedAlike_wholeSpans _ _) touched .left
    [.delete .right "a", .insert .right "x", .keep "b", .keep "c"] "y" [.keep "d"] rfl inMethod
  obtain rfl := Option.some.inj (found.symm.trans inMerge)
  exact ⟨apart, merges, touched, inMerge, inMethod, kept rfl⟩

/-- An inserted line moves the line of the left parent from 4 to 5, where its author has none. -/
theorem WrittenScript.insertion_unattributed_growing :
    Apart menuLeft.script growingRight.script ∧
    growingMerge.script = scriptTo .merge (jointSteps (menuChanges growingRight)) ∧
    LocatedAlike (jointSteps (menuChanges growingRight)) (menuSpans growingRight) orderMethod ∧
    (∀ parent, Diff.read (menuChanges growingRight parent).text =
      .ok [menuDiff (menuChanges growingRight parent)]) ∧
    Diff.read growingMerge.text = .ok [menuDiff growingMerge] ∧
    (∀ parent, (methodsTouched (menuSpans growingRight .base)
      (menuSpans growingRight (.parent parent))
      (menuDiff (menuChanges growingRight parent)).changedLines).find? orderMethod =
        some (menuVersion (menuChanges growingRight parent))) ∧
    (methodsTouched (menuSpans growingRight .base) (menuSpans growingRight .merge)
      (menuDiff growingMerge).changedLines).find? orderMethod = some (menuVersion growingMerge) ∧
    jointSteps (menuChanges growingRight) =
      [.keep "a", .insert .right "x", .keep "b", .keep "c"] ++ .insert .left "y" :: [.keep "d"] ∧
    numberIn .merge [.keep "a", .insert .right "x", .keep "b", .keep "c"] = 5 ∧
    LiesIn (menuSpans growingRight .merge) 5 orderMethod ∧
    5 ∉ (AttributedLines.ofVersions (menuVersion growingMerge) (menuVersion menuLeft)
      (menuVersion growingRight)).leftAdded := by
  refine ⟨by decide, rfl, locatedAlike_wholeSpans _ _, ?_, by decide +kernel, ?_, by decide +kernel,
    rfl, rfl, ?_, by decide +kernel⟩
  · intro parent
    cases parent <;> decide +kernel
  · intro parent
    cases parent <;> decide +kernel
  · rw [liesIn_iff]
    decide +kernel

end MergeRisk
