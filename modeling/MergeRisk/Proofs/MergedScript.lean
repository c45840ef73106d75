import MergeRisk.Proofs.EditScript

/-! Two edit scripts of one base text, woven into one. Every step of the woven script is the work of
one parent or of none, so the steps tell all four texts of a merge, the scripts between them, and how
far apart the numbers of a line in two of the texts are. -/

namespace MergeRisk

universe u
variable {α : Type u}

/-! ### Steps -/

inductive Parent where
  | left
  | right
deriving DecidableEq, Repr

def Parent.other : Parent → Parent
  | left => right
  | right => left

/-- The texts of a merge. -/
inductive MergeText where
  | base
  | parent (author : Parent)
  | merge
deriving DecidableEq, Repr

/-- What is done about a line, and by which parent. -/
inductive JointEdit (α : Type u) where
  | keep (line : α)
  | delete (author : Parent) (line : α)
  | insert (author : Parent) (line : α)
deriving DecidableEq, Repr

namespace JointEdit

def line : JointEdit α → α
  | keep line => line
  | delete _ line => line
  | insert _ line => line

def ofEdit (author : Parent) : Edit α → JointEdit α
  | .keep line => keep line
  | .delete line => delete author line
  | .insert line => insert author line

/-- Whether the line stands in a text. The merge has the changes of both parents. -/
def standsIn : MergeText → JointEdit α → Bool
  | _, keep _ => true
  | .base, delete _ _ => true
  | .base, insert _ _ => false
  | .parent parent, delete author _ => author != parent
  | .parent parent, insert author _ => author == parent
  | .merge, delete _ _ => false
  | .merge, insert _ _ => true

def isDeletion (parent : Parent) : JointEdit α → Bool
  | delete author _ => author == parent
  | _ => false

def isInsertion (parent : Parent) : JointEdit α → Bool
  | insert author _ => author == parent
  | _ => false

/-- What a text makes of the line, compared with the base text. -/
def edit? (text : MergeText) (step : JointEdit α) : Option (Edit α) :=
  match step.standsIn .base, step.standsIn text with
  | true, true => some (.keep step.line)
  | true, false => some (.delete step.line)
  | false, true => some (.insert step.line)
  | false, false => none

end JointEdit

open JointEdit

def textOf (text : MergeText) (steps : List (JointEdit α)) : List α :=
  (steps.filter (standsIn text)).map line

/-- The script from the base text to another text. -/
def scriptTo (text : MergeText) (steps : List (JointEdit α)) : List (Edit α) :=
  steps.filterMap (edit? text)

theorem scriptTo_append (text : MergeText) (first second : List (JointEdit α)) :
    scriptTo text (first ++ second) = scriptTo text first ++ scriptTo text second :=
  List.filterMap_append

theorem scriptTo_cons (text : MergeText) (step : JointEdit α) (steps : List (JointEdit α)) :
    scriptTo text (step :: steps) = (step.edit? text).toList ++ scriptTo text steps := by
  rw [scriptTo, List.filterMap_cons]
  cases step.edit? text <;> rfl

theorem textOf_cons (text : MergeText) (step : JointEdit α) (steps : List (JointEdit α)) :
    textOf text (step :: steps) = textOf text [step] ++ textOf text steps := by
  rw [textOf, ← List.singleton_append, List.filter_append, List.map_append]
  rfl

theorem turns_edit? (text : MergeText) (step : JointEdit α) :
    Turns (step.edit? text).toList (textOf .base [step]) (textOf text [step]) := by
  rw [edit?]
  cases inBase : step.standsIn .base <;> cases inText : step.standsIn text <;> constructor <;>
    simp [oldText, newText, sideText, textOf, inBase, inText, Edit.kind, RowKind.inOld,
      RowKind.inNew, Edit.line]

theorem turns_scriptTo (text : MergeText) (steps : List (JointEdit α)) :
    Turns (scriptTo text steps) (textOf .base steps) (textOf text steps) := by
  induction steps with
  | nil => exact ⟨rfl, rfl⟩
  | cons step steps ih =>
    rw [scriptTo_cons, textOf_cons .base, textOf_cons text]
    exact (turns_edit? text step).append ih

/-! ### Numbers -/

/-- The number in a text of the line below some steps. -/
def numberIn (text : MergeText) (before : List (JointEdit α)) : Nat :=
  before.countP (standsIn text) + 1

theorem numberIn_eq (text : MergeText) (before : List (JointEdit α)) :
    numberIn text before = (newText (scriptTo text before)).length + 1 := by
  rw [(turns_scriptTo text before).newSide, textOf, List.length_map, ← List.countP_eq_length_filter,
    numberIn]

/-- A line that is not in the base text is inserted, and its number is the one in the text. -/
theorem inserts_scriptTo {text : MergeText} {step : JointEdit α} (before after : List (JointEdit α))
    (isNew : step.standsIn .base = false) (stands : step.standsIn text = true) :
    Inserts (scriptTo text (before ++ step :: after)) (numberIn text before) := by
  have inserted : step.edit? text = some (.insert step.line) := by rw [edit?, isNew, stands]
  refine ⟨scriptTo text before, .insert step.line, scriptTo text after, ?_, rfl, numberIn_eq ..⟩
  rw [scriptTo_append, scriptTo_cons, inserted]
  rfl

/-- The numbers of a line in the merge and in the text of a parent are as far apart as the other
parent has moved it. -/
theorem numberIn_merge (author : Parent) (before : List (JointEdit α)) :
    numberIn .merge before + before.countP (isDeletion author.other) =
      numberIn (.parent author) before + before.countP (isInsertion author.other) := by
  simp only [numberIn]
  induction before with
  | nil => rfl
  | cons step before ih =>
    -- Only a change of the other parent is seen by one of the two texts alone.
    cases step with
    | keep line =>
      simp [List.countP_cons, standsIn, isDeletion, isInsertion] at ih ⊢
      omega
    | delete owner line =>
      cases owner <;> cases author <;>
        simp [List.countP_cons, standsIn, isDeletion, isInsertion, Parent.other] at ih ⊢ <;> omega
    | insert owner line =>
      cases owner <;> cases author <;>
        simp [List.countP_cons, standsIn, isDeletion, isInsertion, Parent.other] at ih ⊢ <;> omega

/-! ### Weaving -/

/-- The gaps between lines of the base text, numbered by the lines above them, at which a script
changes something. A deleted line has a gap on each side. -/
def changedGaps (above : Nat) : List (Edit α) → List Nat
  | [] => []
  | .keep _ :: script => changedGaps (above + 1) script
  | .delete _ :: script => above :: (above + 1) :: changedGaps (above + 1) script
  | .insert _ :: script => above :: changedGaps above script

/-- Two scripts with a kept line between any change of the one and any change of the other. -/
def Apart (left right : List (Edit α)) : Prop :=
  ∀ gap ∈ changedGaps 0 left, gap ∉ changedGaps 0 right

instance (left right : List (Edit α)) : Decidable (Apart left right) :=
  inferInstanceAs (Decidable (∀ gap ∈ changedGaps 0 left, gap ∉ changedGaps 0 right))

namespace JointEdit

/-- The step for a line that both scripts have in their old text. -/
def meet : (left right : Edit α) → JointEdit α
  | .keep _, right => ofEdit .right right
  | left, _ => ofEdit .left left

/-- The insertions of the right script, up to the line of an edit of the left one. -/
def weaveLine (edit : Edit α) (rest : List (Edit α) → List (JointEdit α)) :
    (right : List (Edit α)) → List (JointEdit α)
  | [] => []
  | .insert line :: right => insert .right line :: weaveLine edit rest right
  | other :: right => meet edit other :: rest right

/-- Both scripts at once, going through the base text line by line. -/
def weave : (left right : List (Edit α)) → List (JointEdit α)
  | [], right => right.map (ofEdit .right)
  | .insert line :: left, right => insert .left line :: weave left right
  | edit :: left, right => weaveLine edit (weave left) right

end JointEdit

/-! ### What is woven can be told apart -/

theorem exists_insertions {script : List (Edit α)} (noLine : oldText script = []) :
    ∃ inserted : List α, script = inserted.map .insert := by
  induction script with
  | nil => exact ⟨[], rfl⟩
  | cons edit script ih =>
    cases edit with
    | keep line => cases noLine
    | delete line => cases noLine
    | insert line =>
      obtain ⟨inserted, rfl⟩ := ih noLine
      exact ⟨line :: inserted, rfl⟩

/-- The edit is about a line of the old text, this one. -/
def Edit.Meets (edit : Edit α) (line : α) : Prop :=
  edit = .keep line ∨ edit = .delete line

/-- What a script does up to the first line of its old text. -/
theorem exists_next_line {script : List (Edit α)} {line : α} {others : List α}
    (starts : oldText script = line :: others) :
    ∃ (inserted : List α) (edit : Edit α) (rest : List (Edit α)),
      script = inserted.map .insert ++ edit :: rest ∧ edit.Meets line ∧ oldText rest = others := by
  induction script with
  | nil => cases starts
  | cons edit script ih =>
    cases edit with
    | keep first =>
      obtain ⟨rfl, rfl⟩ := List.cons.inj starts
      exact ⟨[], .keep first, script, rfl, .inl rfl, rfl⟩
    | delete first =>
      obtain ⟨rfl, rfl⟩ := List.cons.inj starts
      exact ⟨[], .delete first, script, rfl, .inr rfl, rfl⟩
    | insert first =>
      obtain ⟨inserted, edit, rest, rfl, meets, later⟩ := ih starts
      exact ⟨first :: inserted, edit, rest, rfl, meets, later⟩

theorem weaveLine_eq (edit : Edit α) (weaveRest : List (Edit α) → List (JointEdit α))
    (inserted : List α) {other : Edit α} {line : α} (meets : other.Meets line)
    (right : List (Edit α)) :
    weaveLine edit weaveRest (inserted.map .insert ++ other :: right) =
      inserted.map (JointEdit.insert .right) ++ meet edit other :: weaveRest right := by
  induction inserted with
  | nil => rcases meets with rfl | rfl <;> rfl
  | cons line inserted ih => exact congrArg (JointEdit.insert .right line :: ·) ih

theorem changedGaps_insertions {gap above : Nat} {script : List (Edit α)} (inserted : List α)
    (isChanged : gap ∈ changedGaps above script) :
    gap ∈ changedGaps above (inserted.map .insert ++ script) := by
  induction inserted with
  | nil => exact isChanged
  | cons line inserted ih => exact List.mem_cons_of_mem above ih

theorem edit?_insert (author parent : Parent) (line : α) :
    (JointEdit.insert author line).edit? (.parent parent) =
      if author = parent then some (.insert line) else none := by
  cases author <;> cases parent <;> rfl

theorem scriptTo_insertions (author parent : Parent) (inserted : List α) :
    scriptTo (.parent parent) (inserted.map (JointEdit.insert author)) =
      if author = parent then inserted.map .insert else [] := by
  induction inserted with
  | nil => simp [scriptTo]
  | cons line inserted ih =>
    rw [List.map_cons, scriptTo_cons, ih, edit?_insert]
    by_cases same : author = parent <;> simp [same]

/-- The step of a line that both scripts have in their old text is read by each as its own edit,
unless both delete it. -/
theorem edit?_meet {line : α} {edit other : Edit α} (meets : edit.Meets line)
    (otherMeets : other.Meets line) (single : edit = .keep line ∨ other = .keep line) :
    (meet edit other).edit? (.parent .left) = some edit ∧
      (meet edit other).edit? (.parent .right) = some other := by
  rcases meets with rfl | rfl <;> rcases otherMeets with rfl | rfl
  · exact ⟨rfl, rfl⟩
  · exact ⟨rfl, rfl⟩
  · exact ⟨rfl, rfl⟩
  · simp at single

theorem scriptTo_weaveLine {line : α} {edit other : Edit α} {left right : List (Edit α)}
    {weaveRest : List (Edit α) → List (JointEdit α)} (inserted : List α)
    (meets : edit.Meets line) (otherMeets : other.Meets line)
    (single : edit = .keep line ∨ other = .keep line)
    (ofLeft : scriptTo (.parent .left) (weaveRest right) = left)
    (ofRight : scriptTo (.parent .right) (weaveRest right) = right) :
    scriptTo (.parent .left) (weaveLine edit weaveRest (inserted.map .insert ++ other :: right)) =
        edit :: left ∧
      scriptTo (.parent .right) (weaveLine edit weaveRest (inserted.map .insert ++ other :: right)) =
        inserted.map .insert ++ other :: right := by
  obtain ⟨leftEdit, rightEdit⟩ := edit?_meet meets otherMeets single
  rw [weaveLine_eq edit weaveRest inserted otherMeets]
  simp only [scriptTo_append, scriptTo_cons, scriptTo_insertions, leftEdit, rightEdit, ofLeft,
    ofRight]
  exact ⟨rfl, rfl⟩

theorem changedGaps_later {gap above : Nat} {line : α} {edit : Edit α} {script : List (Edit α)}
    (meets : edit.Meets line) (isChanged : gap ∈ changedGaps (above + 1) script) :
    gap ∈ changedGaps above (edit :: script) := by
  rcases meets with rfl | rfl
  · exact isChanged
  · exact List.mem_cons_of_mem _ (List.mem_cons_of_mem _ isChanged)

/-- Each parent reads its own script from the woven steps. -/
theorem scriptTo_weave {left right : List (Edit α)} {above : Nat}
    (sameOld : oldText left = oldText right)
    (apart : ∀ gap ∈ changedGaps above left, gap ∉ changedGaps above right) :
    scriptTo (.parent .left) (weave left right) = left ∧
      scriptTo (.parent .right) (weave left right) = right := by
  -- Along the left script; the right one is taken apart at the line that comes next.
  induction left generalizing right above with
  | nil =>
    obtain ⟨inserted, rfl⟩ := exists_insertions sameOld.symm
    have steps : weave [] (inserted.map .insert) = inserted.map (JointEdit.insert .right) := by
      simp [weave, ofEdit]
    rw [steps, scriptTo_insertions, scriptTo_insertions]
    exact ⟨rfl, rfl⟩
  | cons edit left ih =>
    have further (line : α) (meets : edit.Meets line) :
        scriptTo (.parent .left) (weaveLine edit (weave left) right) = edit :: left ∧
          scriptTo (.parent .right) (weaveLine edit (weave left) right) = right := by
      have starts : oldText right = line :: oldText left := by
        rw [← sameOld]
        rcases meets with rfl | rfl <;> rfl
      obtain ⟨inserted, other, rest, rfl, otherMeets, old⟩ := exists_next_line starts
      have later (gap : Nat) (isChanged : gap ∈ changedGaps (above + 1) left) :
          gap ∉ changedGaps (above + 1) rest := by
        intro changedToo
        exact apart gap (changedGaps_later meets isChanged)
          (changedGaps_insertions inserted (changedGaps_later otherMeets changedToo))
      have single : edit = .keep line ∨ other = .keep line := by
        rcases meets with kept | rfl
        · exact .inl kept
        · rcases otherMeets with kept | rfl
          · exact .inr kept
          · exact absurd (changedGaps_insertions inserted List.mem_cons_self)
              (apart above List.mem_cons_self)
      obtain ⟨ofLeft, ofRight⟩ := ih old.symm later
      exact scriptTo_weaveLine inserted meets otherMeets single ofLeft ofRight
    cases edit with
    | keep line => exact further line (.inl rfl)
    | delete line => exact further line (.inr rfl)
    | insert line =>
      have later (gap : Nat) (isChanged : gap ∈ changedGaps above left) :=
        apart gap (List.mem_cons_of_mem above isChanged)
      obtain ⟨ofLeft, ofRight⟩ := ih sameOld later
      rw [weave, scriptTo_cons, scriptTo_cons, ofLeft, ofRight]
      exact ⟨rfl, rfl⟩

end MergeRisk
