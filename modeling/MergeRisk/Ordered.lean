/-! Collections kept in ascending order of a key, one element for each key. Membership determines
such a collection, so equality of results is equality of lists. -/

namespace MergeRisk

universe u v
variable {α : Type u} {κ : Type v} [Ord κ]

/-- Elements in strictly ascending order of their keys. -/
@[ext] structure OrderedBy (key : α → κ) where
  toList : List α
  ascending : toList.Pairwise fun first second => compare (key first) (key second) = .lt

namespace OrderedBy
variable {key : α → κ}

instance : EmptyCollection (OrderedBy key) := ⟨⟨[], .nil⟩⟩

instance : Inhabited (OrderedBy key) := ⟨∅⟩

instance : Membership α (OrderedBy key) := ⟨fun elements element => element ∈ elements.toList⟩

instance [DecidableEq α] : DecidableEq (OrderedBy key) := fun first second =>
  decidable_of_iff (first.toList = second.toList) (by simp [OrderedBy.ext_iff])

instance [DecidableEq α] (element : α) (elements : OrderedBy key) :
    Decidable (element ∈ elements) :=
  inferInstanceAs (Decidable (element ∈ elements.toList))

theorem mem_iff {element : α} {elements : OrderedBy key} :
    element ∈ elements ↔ element ∈ elements.toList := Iff.rfl

@[simp] theorem toList_empty : (∅ : OrderedBy key).toList = [] := rfl

def isEmpty (elements : OrderedBy key) : Bool :=
  elements.toList.isEmpty

def size (elements : OrderedBy key) : Nat :=
  elements.toList.length

/-- The element with a given key. -/
def find? (elements : OrderedBy key) (wanted : κ) : Option α :=
  elements.toList.find? fun element => compare (key element) wanted == .eq

def hasKey (elements : OrderedBy key) (wanted : κ) : Bool :=
  elements.toList.any fun element => compare (key element) wanted == .eq

/-- The elements satisfying a test. -/
def filter (keep : α → Bool) (elements : OrderedBy key) : OrderedBy key :=
  ⟨elements.toList.filter keep, elements.ascending.filter keep⟩

/-- Change the elements without changing their keys. -/
def adjust (change : α → α) (sameKey : ∀ element, key (change element) = key element)
    (elements : OrderedBy key) : OrderedBy key :=
  ⟨elements.toList.map change, List.pairwise_map.mpr (by simpa only [sameKey] using elements.ascending)⟩

/-- Put an element at its place; an element already there under the same key stays. -/
def place (key : α → κ) (element : α) : List α → List α
  | [] => [element]
  | other :: rest =>
    match compare (key element) (key other) with
    | .lt => element :: other :: rest
    | .eq => other :: rest
    | .gt => other :: place key element rest

theorem mem_of_mem_place {element : α} {elements : List α} {found : α}
    (member : found ∈ place key element elements) : found = element ∨ found ∈ elements := by
  induction elements with
  | nil => simpa [place] using member
  | cons other rest ih =>
    unfold place at member
    split at member
    · simpa using member
    · exact .inr member
    · rcases List.mem_cons.mp member with rfl | later
      · exact .inr (by simp)
      · rcases ih later with rfl | inRest
        · exact .inl rfl
        · exact .inr (List.mem_cons_of_mem _ inRest)

theorem mem_place_of_mem {element : α} {elements : List α} {found : α}
    (member : found ∈ elements) : found ∈ place key element elements := by
  induction elements with
  | nil => simp at member
  | cons other rest ih =>
    unfold place
    split
    · exact List.mem_cons_of_mem _ member
    · exact member
    · rcases List.mem_cons.mp member with rfl | inRest
      · simp
      · exact List.mem_cons_of_mem _ (ih inRest)

variable [Std.TransOrd κ]

theorem ascending_place (element : α) {elements : List α}
    (ascending : elements.Pairwise fun first second => compare (key first) (key second) = .lt) :
    (place key element elements).Pairwise
      fun first second => compare (key first) (key second) = .lt := by
  induction elements with
  | nil => simp [place]
  | cons other rest ih =>
    obtain ⟨least, tail⟩ := List.pairwise_cons.mp ascending
    unfold place
    split
    · rename_i smaller
      refine List.pairwise_cons.mpr ⟨?_, ascending⟩
      intro found member
      rcases List.mem_cons.mp member with rfl | inRest
      · exact smaller
      · exact Std.TransCmp.lt_trans smaller (least found inRest)
    · exact ascending
    · rename_i greater
      refine List.pairwise_cons.mpr ⟨?_, ih tail⟩
      intro found member
      rcases mem_of_mem_place member with rfl | inRest
      · exact Std.OrientedCmp.lt_of_gt greater
      · exact least found inRest

/-- Add an element unless its key is already present. -/
def insert (elements : OrderedBy key) (element : α) : OrderedBy key :=
  ⟨place key element elements.toList, ascending_place element elements.ascending⟩

/-- Add the elements of a list one after another, so the first with a key stays. -/
def insertAll (elements : OrderedBy key) (added : List α) : OrderedBy key :=
  added.foldl insert elements

def ofList (elements : List α) : OrderedBy key :=
  (∅ : OrderedBy key).insertAll elements

def union (first second : OrderedBy key) : OrderedBy key :=
  first.insertAll second.toList

/-- The elements of the first whose key the second has too. -/
def inter (first second : OrderedBy key) : OrderedBy key :=
  first.filter fun element => second.hasKey (key element)

end OrderedBy

/-- The first element whose key is least. -/
def least? (key : α → κ) : List α → Option α
  | [] => none
  | element :: rest =>
    match least? key rest with
    | none => some element
    | some other => if compare (key other) (key element) == .lt then some other else some element

/-- Append an element unless it is already listed. -/
def appendNew [DecidableEq α] (elements : List α) (element : α) : List α :=
  if element ∈ elements then elements else elements ++ [element]

@[simp] theorem mem_appendNew [DecidableEq α] {elements : List α} {element found : α} :
    found ∈ appendNew elements element ↔ found ∈ elements ∨ found = element := by
  unfold appendNew
  split
  · rename_i present
    constructor
    · exact .inl
    · rintro (member | rfl)
      · exact member
      · exact present
  · simp

theorem nodup_appendNew [DecidableEq α] {elements : List α} (nodup : elements.Nodup)
    (element : α) : (appendNew elements element).Nodup := by
  unfold appendNew
  split
  · exact nodup
  · rename_i absent
    refine List.nodup_append.mpr ⟨nodup, by simp, ?_⟩
    intro found member other single same
    rw [List.mem_singleton.mp single] at same
    exact absent (same ▸ member)

/-- A finite set, listed in ascending order. -/
abbrev SortedSet (α : Type u) [Ord α] := OrderedBy fun element : α => element

end MergeRisk
