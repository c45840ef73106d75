import Mathlib.Data.List.Nodup
import MergeRisk.Ordered

/-! The keys of an ordered collection: each is there once, and a collection made from a list has the
keys of the list. Of the elements of a list, the first whose key is least. Lists that grow by
elements that are new. -/

namespace MergeRisk

universe u v
variable {α : Type u} {κ : Type v} [Ord κ] {key : α → κ}

theorem find?_eq_some_of_unique {elements : List α} {test : α → Bool} {found : α}
    (unique : ∀ first ∈ elements, ∀ second ∈ elements,
      test first = true → test second = true → first = second) :
    elements.find? test = some found ↔ found ∈ elements ∧ test found = true := by
  constructor
  · intro lookup
    exact ⟨List.mem_of_find?_eq_some lookup, List.find?_some lookup⟩
  · intro passes
    obtain ⟨member, passed⟩ := passes
    obtain ⟨other, lookup⟩ := Option.isSome_iff_exists.mp
      (List.find?_isSome.mpr ⟨found, member, passed⟩)
    rw [lookup, unique other (List.mem_of_find?_eq_some lookup) found member
      (List.find?_some lookup) passed]

theorem mapM_eq_some {α β : Type} {decode : α → Option β} {value : α → β} {elements : List α}
    (decoded : ∀ element ∈ elements, decode element = some (value element)) :
    elements.mapM decode = some (elements.map value) := by
  induction elements with
  | nil => rfl
  | cons element elements ih =>
    obtain ⟨first, later⟩ := List.forall_mem_cons.mp decoded
    simp [first, ih later]

theorem nodup_of_ascending [Std.TransOrd κ] {elements : List κ}
    (ascending : elements.Pairwise fun first second => compare first second = .lt) :
    elements.Nodup := by
  apply ascending.imp
  intro first second smaller same
  have equal : compare second second = .eq := Std.ReflCmp.compare_self
  rw [same, equal] at smaller
  cases smaller

/-- What a list in ascending order of a key holds determines the list. -/
theorem eq_of_ascending [Std.TransOrd κ] {first second : List α}
    (ascendingFirst : first.Pairwise fun one two => compare (key one) (key two) = .lt)
    (ascendingSecond : second.Pairwise fun one two => compare (key one) (key two) = .lt)
    (same : ∀ element, element ∈ first ↔ element ∈ second) : first = second := by
  have nodup {elements : List α}
      (ascending : elements.Pairwise fun one two => compare (key one) (key two) = .lt) :
      elements.Nodup :=
    (nodup_of_ascending (List.pairwise_map.mpr ascending)).of_map key
  have perm : first.Perm second :=
    (List.perm_ext_iff_of_nodup (nodup ascendingFirst) (nodup ascendingSecond)).mpr same
  apply perm.eq_of_pairwise _ ascendingFirst ascendingSecond
  intro one two _ _ smaller greater
  exact absurd greater (Std.OrientedCmp.not_lt_of_lt smaller)

namespace OrderedBy

/-- The keys of a collection, in their order. -/
def keys (elements : OrderedBy key) : List κ :=
  elements.toList.map key

theorem keys_ascending (elements : OrderedBy key) :
    elements.keys.Pairwise fun first second => compare first second = .lt :=
  List.pairwise_map.mpr elements.ascending

theorem mem_keys_place [Std.LawfulEqOrd κ] {element : α} {elements : List α} {wanted : κ} :
    wanted ∈ (place key element elements).map key ↔
      wanted ∈ elements.map key ∨ wanted = key element := by
  induction elements with
  | nil => simp [place]
  | cons other rest ih =>
    unfold place
    split
    · simp only [List.map_cons, List.mem_cons]
      grind
    · rename_i equal
      have same : key element = key other := Std.LawfulEqOrd.eq_of_compare equal
      simp only [List.map_cons, List.mem_cons, same]
      grind
    · simp only [List.map_cons, List.mem_cons, ih]
      grind

theorem hasKey_iff [Std.LawfulEqOrd κ] {elements : OrderedBy key} {wanted : κ} :
    elements.hasKey wanted = true ↔ wanted ∈ elements.keys := by
  simp [hasKey, keys]

theorem isEmpty_iff {elements : OrderedBy key} :
    elements.isEmpty = true ↔ ∀ element, element ∉ elements := by
  rw [isEmpty, List.isEmpty_iff, List.eq_nil_iff_forall_not_mem]
  rfl

@[simp] theorem mem_filter {keep : α → Bool} {elements : OrderedBy key} {element : α} :
    element ∈ elements.filter keep ↔ element ∈ elements ∧ keep element = true :=
  List.mem_filter

section
variable {change : α → α} {sameKey : ∀ element, key (change element) = key element}
  {elements : OrderedBy key}

theorem mem_adjust {found : α} :
    found ∈ elements.adjust change sameKey ↔ ∃ element ∈ elements, change element = found :=
  List.mem_map

theorem keys_adjust : (elements.adjust change sameKey).keys = elements.keys := by
  have same : key ∘ change = key := funext sameKey
  rw [keys, adjust, List.map_map, same, keys]

end

variable [Std.TransOrd κ]

theorem mem_of_mem_insertAll {elements : OrderedBy key} {added : List α} {found : α}
    (member : found ∈ elements.insertAll added) : found ∈ elements ∨ found ∈ added := by
  induction added generalizing elements with
  | nil => exact .inl member
  | cons element rest ih =>
    rcases ih member with earlier | later
    · rcases mem_of_mem_place earlier with rfl | old
      · exact .inr List.mem_cons_self
      · exact .inl old
    · exact .inr (List.mem_cons_of_mem element later)

theorem mem_of_mem_ofList {elements : List α} {found : α}
    (member : found ∈ (ofList elements : OrderedBy key)) : found ∈ elements := by
  rcases mem_of_mem_insertAll member with none | listed
  · cases none
  · exact listed

theorem nodup_keys (elements : OrderedBy key) : elements.keys.Nodup :=
  nodup_of_ascending elements.keys_ascending

/-- The keys that a collection has determine their order. -/
theorem keys_ext {first second : OrderedBy key}
    (same : ∀ wanted, wanted ∈ first.keys ↔ wanted ∈ second.keys) : first.keys = second.keys :=
  eq_of_ascending first.keys_ascending second.keys_ascending same

/-- The elements that a collection has determine it. -/
theorem ext_mem {first second : OrderedBy key}
    (same : ∀ element, element ∈ first ↔ element ∈ second) : first = second :=
  OrderedBy.ext (eq_of_ascending first.ascending second.ascending same)

variable [Std.LawfulEqOrd κ]

theorem mem_keys_insert {elements : OrderedBy key} {element : α} {wanted : κ} :
    wanted ∈ (elements.insert element).keys ↔ wanted ∈ elements.keys ∨ wanted = key element :=
  mem_keys_place

/-- An element is added only where its key is new, and no other element leaves. -/
theorem mem_insert {elements : OrderedBy key} {element found : α} :
    found ∈ elements.insert element ↔
      found ∈ elements ∨ found = element ∧ key element ∉ elements.keys := by
  constructor
  · intro member
    rcases mem_of_mem_place member with rfl | old
    · by_cases present : key found ∈ elements.keys
      · obtain ⟨other, old, same⟩ := List.mem_map.mp present
        have equal : other = found :=
          List.inj_on_of_nodup_map (elements.insert found).nodup_keys (mem_place_of_mem old) member same
        exact .inl (equal ▸ old)
      · exact .inr ⟨rfl, present⟩
    · exact .inl old
  · rintro (old | ⟨rfl, fresh⟩)
    · exact mem_place_of_mem old
    · have present : key found ∈ (elements.insert found).keys := mem_keys_insert.mpr (.inr rfl)
      obtain ⟨other, member, same⟩ := List.mem_map.mp present
      rcases mem_of_mem_place member with rfl | old
      · exact member
      · exact absurd (same ▸ List.mem_map_of_mem old) fresh

theorem mem_keys_insertAll {elements : OrderedBy key} {added : List α} {wanted : κ} :
    wanted ∈ (elements.insertAll added).keys ↔ wanted ∈ elements.keys ∨ wanted ∈ added.map key := by
  induction added generalizing elements with
  | nil => simp [insertAll]
  | cons element rest ih =>
    rw [insertAll, List.foldl_cons, ← insertAll, ih, mem_keys_insert, List.map_cons, List.mem_cons,
      or_assoc]

@[simp] theorem mem_keys_ofList {elements : List α} {wanted : κ} :
    wanted ∈ (ofList elements : OrderedBy key).keys ↔ wanted ∈ elements.map key := by
  rw [ofList, mem_keys_insertAll]
  simp [keys]

theorem keys_ofList_perm {elements : OrderedBy key} {listed : List α}
    (perm : listed.Perm elements.toList) : (ofList listed : OrderedBy key).keys = elements.keys := by
  apply keys_ext
  intro wanted
  rw [mem_keys_ofList]
  exact (perm.map key).mem_iff

/-- The element with a key is the one member that has it. -/
theorem find?_eq_some_iff {elements : OrderedBy key} {wanted : κ} {found : α} :
    elements.find? wanted = some found ↔ found ∈ elements ∧ key found = wanted := by
  rw [find?, find?_eq_some_of_unique]
  · simp [mem_iff]
  · intro first firstMember second secondMember isFirst isSecond
    simp only [beq_iff_eq, Std.compare_eq_iff_eq] at isFirst isSecond
    exact List.inj_on_of_nodup_map elements.nodup_keys firstMember secondMember
      (isFirst.trans isSecond.symm)

theorem mem_keys_of_find? {elements : OrderedBy key} {wanted : κ} {found : α}
    (lookup : elements.find? wanted = some found) : wanted ∈ elements.keys := by
  obtain ⟨member, same⟩ := find?_eq_some_iff.mp lookup
  rw [← same]
  exact List.mem_map_of_mem member

theorem isEmpty_ofList {elements : List α} :
    (ofList elements : OrderedBy key).isEmpty = true ↔ elements = [] := by
  have same : (ofList elements : OrderedBy key).keys = [] ↔ elements.map key = [] := by
    simp only [List.eq_nil_iff_forall_not_mem, mem_keys_ofList]
  rw [isEmpty, List.isEmpty_iff]
  simpa [keys] using same

end OrderedBy

namespace SortedSet
variable [Ord α] [Std.LawfulEqOrd α]

theorem hasKey_iff {elements : SortedSet α} {element : α} :
    elements.hasKey element = true ↔ element ∈ elements := by
  rw [OrderedBy.hasKey_iff, OrderedBy.keys, List.map_id']
  rfl

theorem toList_inter [DecidableEq α] (first second : SortedSet α) :
    (first.inter second).toList = first.toList.filter (· ∈ second) := by
  apply List.filter_congr
  intro element _
  rw [Bool.eq_iff_iff, decide_eq_true_iff, hasKey_iff]

@[simp] theorem mem_inter {first second : SortedSet α} {element : α} :
    element ∈ first.inter second ↔ element ∈ first ∧ element ∈ second := by
  rw [OrderedBy.inter, OrderedBy.mem_filter, hasKey_iff]

variable [Std.TransOrd α]

/-- The set of a list has the elements of the list. -/
@[simp] theorem mem_ofList {elements : List α} {element : α} :
    element ∈ (OrderedBy.ofList elements : SortedSet α) ↔ element ∈ elements := by
  have same : element ∈ (OrderedBy.ofList elements : SortedSet α).keys ↔
      element ∈ elements.map id :=
    OrderedBy.mem_keys_ofList
  simpa [OrderedBy.keys, OrderedBy.mem_iff] using same

@[simp] theorem mem_insert {elements : SortedSet α} {element found : α} :
    found ∈ elements.insert element ↔ found ∈ elements ∨ found = element := by
  have same : found ∈ (OrderedBy.place (fun key => key) element elements.toList).map id ↔
      found ∈ elements.toList.map id ∨ found = element :=
    OrderedBy.mem_keys_place
  rwa [List.map_id, List.map_id] at same

@[simp] theorem mem_union {first second : SortedSet α} {element : α} :
    element ∈ first.union second ↔ element ∈ first ∨ element ∈ second := by
  have same : element ∈ (first.union second).toList.map id ↔
      element ∈ first.toList.map id ∨ element ∈ second.toList.map id :=
    OrderedBy.mem_keys_insertAll
  rwa [List.map_id, List.map_id, List.map_id] at same

/-- The set of the elements of a set is the set. -/
theorem ofList_toList (elements : SortedSet α) : OrderedBy.ofList elements.toList = elements := by
  apply OrderedBy.ext
  have same := OrderedBy.keys_ofList_perm (List.Perm.refl elements.toList)
  simpa [OrderedBy.keys] using same

end SortedSet

variable {found : α}

/-- The first of the elements whose key is least. -/
def FirstLeast (key : α → κ) (elements : List α) (found : α) : Prop :=
  ∃ before after, elements = before ++ found :: after ∧
    (∀ element ∈ before, compare (key found) (key element) = .lt) ∧
    ∀ element ∈ after, (compare (key found) (key element)).isLE = true

theorem FirstLeast.mem {elements : List α} (first : FirstLeast key elements found) :
    found ∈ elements := by
  obtain ⟨before, after, rfl, _, _⟩ := first
  simp

theorem not_firstLeast_nil : ¬ FirstLeast key [] found := by
  intro first
  exact absurd first.mem (by simp)

theorem firstLeast_cons {element : α} {rest : List α} :
    FirstLeast key (element :: rest) found ↔
      (found = element ∧ ∀ other ∈ rest, (compare (key element) (key other)).isLE = true) ∨
        (FirstLeast key rest found ∧ compare (key found) (key element) = .lt) := by
  constructor
  · rintro ⟨before, after, split, smaller, least⟩
    cases before with
    | nil =>
      obtain ⟨rfl, rfl⟩ := List.cons.inj split
      exact .inl ⟨rfl, least⟩
    | cons other before =>
      obtain ⟨rfl, rfl⟩ := List.cons.inj split
      obtain ⟨smallest, smaller⟩ := List.forall_mem_cons.mp smaller
      exact .inr ⟨⟨before, after, rfl, smaller, least⟩, smallest⟩
  · rintro (⟨rfl, least⟩ | ⟨⟨before, after, rfl, smaller, least⟩, smallest⟩)
    · exact ⟨[], rest, rfl, by simp, least⟩
    · exact ⟨element :: before, after, rfl, List.forall_mem_cons.mpr ⟨smallest, smaller⟩, least⟩

theorem least?_isSome (key : α → κ) (elements : List α) :
    (least? key elements).isSome = !elements.isEmpty := by
  cases elements with
  | nil => rfl
  | cons element rest =>
    rw [least?]
    split
    · rfl
    · split <;> rfl

variable [Std.TransOrd κ]

theorem FirstLeast.le {elements : List α} (first : FirstLeast key elements found) {other : α}
    (member : other ∈ elements) : (compare (key found) (key other)).isLE = true := by
  obtain ⟨before, after, rfl, smaller, least⟩ := first
  rw [List.mem_append, List.mem_cons] at member
  rcases member with inBefore | rfl | inAfter
  · exact Ordering.isLE_of_eq_lt (smaller other inBefore)
  · exact Std.ReflCmp.isLE_rfl
  · exact least other inAfter

/-- The search for the least key finds the first element that has it. -/
theorem least?_eq_some_iff {elements : List α} :
    least? key elements = some found ↔ FirstLeast key elements found := by
  induction elements generalizing found with
  | nil => simp [least?, not_firstLeast_nil]
  | cons element rest ih =>
    rw [firstLeast_cons, least?]
    cases later : least? key rest with
    | none =>
      have empty : rest = [] := by simpa [later] using least?_isSome key rest
      subst empty
      simp only [not_firstLeast_nil, Option.some.injEq, List.not_mem_nil, false_implies, implies_true,
        and_true, false_and, or_false]
      exact eq_comm
    | some other =>
      have first : FirstLeast key rest other := ih.mp later
      have unique (wanted : α) : FirstLeast key rest wanted ↔ other = wanted := by
        rw [← ih, later, Option.some.injEq]
      simp only [unique, beq_iff_eq]
      split
      · rename_i smaller
        -- The element is not least, so it is not found itself.
        have notLeast : ¬ ∀ third ∈ rest, (compare (key element) (key third)).isLE = true := by
          intro least
          exact Ordering.isLE_iff_ne_gt.mp (least other first.mem) (Std.OrientedCmp.gt_of_lt smaller)
        simp only [Option.some.injEq, notLeast, and_false, false_or]
        constructor
        · rintro rfl
          exact ⟨rfl, smaller⟩
        · exact And.left
      · rename_i notSmaller
        have least : ∀ third ∈ rest, (compare (key element) (key third)).isLE = true := by
          intro third member
          have notGreater : (compare (key element) (key other)).isLE = true :=
            Std.OrientedCmp.isGE_iff_isLE.mp (Ordering.isGE_iff_ne_lt.mpr notSmaller)
          exact Std.TransCmp.isLE_trans notGreater (first.le member)
        simp only [Option.some.injEq]
        constructor
        · rintro rfl
          exact .inl ⟨rfl, least⟩
        · rintro (⟨rfl, _⟩ | ⟨rfl, smaller⟩)
          · rfl
          · exact absurd smaller notSmaller

/-- Where no two elements have the same key, the order of the elements does not matter. -/
theorem least?_congr {elements others : List α} (same : ∀ element, element ∈ elements ↔ element ∈ others)
    (distinct : ∀ first ∈ elements, ∀ second ∈ elements, compare (key first) (key second) = .eq →
      first = second) : least? key elements = least? key others := by
  cases chosen : least? key elements with
  | none =>
    have empty : elements = [] := by simpa [chosen] using least?_isSome key elements
    have otherEmpty : others = [] := by
      apply List.eq_nil_iff_forall_not_mem.mpr
      intro element member
      simpa [empty] using (same element).mpr member
    rw [otherEmpty]
    rfl
  | some found =>
    have first := least?_eq_some_iff.mp chosen
    cases otherChosen : least? key others with
    | none =>
      have empty : others = [] := by simpa [otherChosen] using least?_isSome key others
      simpa [empty] using (same found).mp first.mem
    | some other =>
      have second := least?_eq_some_iff.mp otherChosen
      have inElements := (same other).mpr second.mem
      have equal := Std.OrientedCmp.isLE_antisymm (first.le inElements)
        (second.le ((same found).mp first.mem))
      rw [distinct found first.mem other inElements equal]

/-! ### Appending what is new -/

/-- Steps of which each leaves a state as it is leave it as it is. -/
theorem foldl_of_fixed {σ : Type v} {step : σ → α → σ} {state : σ} {elements : List α}
    (fixed : ∀ element ∈ elements, step state element = state) :
    elements.foldl step state = state := by
  induction elements with
  | nil => rfl
  | cons element elements ih =>
    obtain ⟨first, rest⟩ := List.forall_mem_cons.mp fixed
    rw [List.foldl_cons, first, ih rest]

section
variable [DecidableEq α] {elements : List α}

theorem appendNew_of_mem {element : α} (member : element ∈ elements) :
    appendNew elements element = elements :=
  if_pos member

theorem prefix_appendNew (elements : List α) (element : α) :
    elements <+: appendNew elements element := by
  unfold appendNew
  split
  · exact List.prefix_refl elements
  · exact List.prefix_append elements [element]

theorem eraseDups_concat (elements : List α) (element : α) :
    (elements ++ [element]).eraseDups = appendNew elements.eraseDups element := by
  rw [List.eraseDups_append, appendNew]
  by_cases member : element ∈ elements
  · simp [List.removeAll, List.mem_eraseDups, member]
  · simp [List.removeAll, List.mem_eraseDups, member, List.eraseDups_cons]

/-- Appending what is new, one element after another, keeps first occurrences. -/
theorem foldl_appendNew (elements added : List α) :
    added.foldl appendNew elements.eraseDups = (elements ++ added).eraseDups := by
  induction added generalizing elements with
  | nil => rw [List.foldl_nil, List.append_nil]
  | cons element added ih =>
    rw [List.foldl_cons, ← eraseDups_concat, ih, List.append_assoc, List.singleton_append]

theorem prefix_foldl_appendNew (elements added : List α) :
    elements <+: added.foldl appendNew elements := by
  induction added generalizing elements with
  | nil => exact List.prefix_refl elements
  | cons element added ih => exact (prefix_appendNew elements element).trans (ih _)

/-- Nothing is appended where nothing is new. -/
theorem foldl_appendNew_of_subset {added : List α} (listed : ∀ element ∈ added, element ∈ elements) :
    added.foldl appendNew elements = elements :=
  foldl_of_fixed fun element member => appendNew_of_mem (listed element member)

/-- Elements that are all new are appended as they stand. -/
theorem foldl_appendNew_of_nodup {added : List α} (nodup : (elements ++ added).Nodup) :
    added.foldl appendNew elements = elements ++ added := by
  induction added generalizing elements with
  | nil => rw [List.foldl_nil, List.append_nil]
  | cons element added ih =>
    rw [List.append_cons] at nodup
    have absent : element ∉ elements := by
      intro member
      have disjoint := List.disjoint_of_nodup_append (List.nodup_append.mp nodup).1
      exact disjoint member List.mem_cons_self
    rw [List.foldl_cons, appendNew, if_neg absent, ih nodup, ← List.append_cons]

end

end MergeRisk
