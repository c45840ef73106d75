import MergeRisk.Proofs.Steps
import MergeRisk.Search

/-! The search level by level is exact: it finds what can be reached by one or more steps, and the
distance it gives is the least. -/

namespace MergeRisk

universe u
variable {α : Type u}

/-- The relation that a search follows. -/
abbrev Adjacent (neighbours : α → List α) (source reached : α) : Prop :=
  reached ∈ neighbours source

/-- A search has come to a distance: it found what is no farther, and its last level is what is
exactly that far. -/
structure ReachedLevel (neighbours : α → List α) (start : α) (level : List α) (distance : Nat)
    (found : Distances α) : Prop where
  found_iff : ∀ target count, (target, count) ∈ found ↔
    count ≤ distance ∧ Nearest (Adjacent neighbours) start target count
  level_iff : ∀ target, target ∈ level ↔
    (distance = 0 ∧ target = start) ∨ Nearest (Adjacent neighbours) start target distance

section
variable {neighbours : α → List α} {start : α} {level : List α} {distance : Nat}
  {found : Distances α}

theorem ReachedLevel.initial : ReachedLevel neighbours start [start] 0 [] where
  found_iff target count := by
    constructor
    · simp
    · rintro ⟨none, nearest⟩
      exact absurd nearest.positive (by omega)
  level_iff target := by
    constructor
    · intro member
      exact .inl ⟨rfl, List.mem_singleton.mp member⟩
    · rintro (⟨_, same⟩ | nearest)
      · exact List.mem_singleton.mpr same
      · exact absurd nearest.positive (Nat.lt_irrefl _)

theorem ReachedLevel.steps (reached : ReachedLevel neighbours start level distance found)
    {source : α} (member : source ∈ level) : Steps (Adjacent neighbours) start source distance := by
  rcases (reached.level_iff source).mp member with ⟨rfl, rfl⟩ | nearest
  · exact .here
  · exact nearest.walk

end

variable [DecidableEq α]

namespace Distances

theorem has_iff {found : Distances α} {target : α} :
    found.has target = true ↔ ∃ distance, (target, distance) ∈ found := by
  simp only [has, List.any_eq_true, beq_iff_eq, Prod.exists]
  constructor
  · rintro ⟨other, distance, member, rfl⟩
    exact ⟨distance, member⟩
  · rintro ⟨distance, member⟩
    exact ⟨target, distance, member, rfl⟩

theorem mem_of_find? {found : Distances α} {target : α} {distance : Nat}
    (lookup : found.find? target = some distance) : (target, distance) ∈ found := by
  obtain ⟨before, after, rfl, _⟩ := List.lookup_eq_some_iff.mp lookup
  simp

theorem find?_isSome {found : Distances α} {target : α} {distance : Nat}
    (member : (target, distance) ∈ found) : ∃ first, found.find? target = some first := by
  apply Option.isSome_iff_exists.mp
  exact List.lookup_isSome_iff.mpr ⟨(target, distance), member, by simp⟩

/-- Where only one distance is listed for a target, looking up finds it. -/
theorem find?_eq_some_iff {found : Distances α} {target : α} {isDistance : Nat → Prop}
    (listed : ∀ distance, (target, distance) ∈ found ↔ isDistance distance)
    (unique : ∀ {first second}, isDistance first → isDistance second → first = second)
    {distance : Nat} : found.find? target = some distance ↔ isDistance distance := by
  constructor
  · intro lookup
    exact (listed distance).mp (mem_of_find? lookup)
  · intro right
    obtain ⟨first, lookup⟩ := find?_isSome ((listed distance).mpr right)
    rw [lookup, unique ((listed first).mp (mem_of_find? lookup)) right]

end Distances

section
variable {neighbours : α → List α} {start : α} {level : List α} {distance : Nat}
  {found : Distances α}

/-- The neighbours of a level that were not found before. -/
def nextLevel (neighbours : α → List α) (level : List α) (found : Distances α) : List α :=
  ((level.flatMap neighbours).filter fun target => !found.has target).eraseDups

theorem mem_nextLevel {target : α} :
    target ∈ nextLevel neighbours level found ↔
      (∃ source ∈ level, target ∈ neighbours source) ∧ ¬ found.has target = true := by
  simp [nextLevel, List.mem_eraseDups]

theorem searchLevels_succ (rounds : Nat) (level : List α) (distance : Nat) (found : Distances α) :
    searchLevels neighbours (rounds + 1) level distance found =
      if (nextLevel neighbours level found).isEmpty then found
      else searchLevels neighbours rounds (nextLevel neighbours level found) (distance + 1)
        (found ++ (nextLevel neighbours level found).map fun target => (target, distance + 1)) :=
  rfl

/-- The next level is what is exactly one step farther. -/
theorem ReachedLevel.next_iff (reached : ReachedLevel neighbours start level distance found)
    (target : α) : target ∈ nextLevel neighbours level found ↔
      Nearest (Adjacent neighbours) start target (distance + 1) := by
  rw [mem_nextLevel, Distances.has_iff]
  constructor
  · rintro ⟨⟨source, member, made⟩, fresh⟩
    refine ⟨Nat.succ_pos _, (reached.steps member).snoc made, ?_⟩
    intro other moves walk
    apply Nat.le_of_not_lt
    intro smaller
    obtain ⟨least, bound, nearest⟩ := Nearest.of_steps moves walk
    exact fresh ⟨least, (reached.found_iff target least).mpr ⟨by omega, nearest⟩⟩
  · intro nearest
    constructor
    · by_cases first : distance = 0
      · subst first
        obtain ⟨source, walk, made⟩ := nearest.walk.last
        cases walk
        exact ⟨start, (reached.level_iff start).mpr (.inl ⟨rfl, rfl⟩), made⟩
      · obtain ⟨source, nearer, made⟩ := nearest.previous (Nat.pos_of_ne_zero first)
        exact ⟨source, (reached.level_iff source).mpr (.inr nearer), made⟩
    · rintro ⟨count, member⟩
      obtain ⟨bound, other⟩ := (reached.found_iff target count).mp member
      have same := nearest.unique other
      omega

theorem ReachedLevel.next (reached : ReachedLevel neighbours start level distance found) :
    ReachedLevel neighbours start (nextLevel neighbours level found) (distance + 1)
      (found ++ (nextLevel neighbours level found).map fun target => (target, distance + 1)) where
  found_iff target count := by
    rw [List.mem_append, reached.found_iff target count]
    constructor
    · rintro (⟨bound, nearest⟩ | added)
      · exact ⟨Nat.le_succ_of_le bound, nearest⟩
      · obtain ⟨other, member, same⟩ := List.mem_map.mp added
        obtain ⟨rfl, rfl⟩ := Prod.mk.inj same
        exact ⟨Nat.le_refl _, (reached.next_iff other).mp member⟩
    · rintro ⟨bound, nearest⟩
      by_cases old : count ≤ distance
      · exact .inl ⟨old, nearest⟩
      · have same : count = distance + 1 := by omega
        subst same
        exact .inr (List.mem_map.mpr ⟨target, (reached.next_iff target).mpr nearest, rfl⟩)
  level_iff target := by
    rw [reached.next_iff target]
    constructor
    · exact .inr
    · rintro (⟨never, _⟩ | nearest)
      · omega
      · exact nearest

/-- Nothing lies beyond an empty level. -/
theorem ReachedLevel.finished (reached : ReachedLevel neighbours start level distance found)
    (empty : nextLevel neighbours level found = []) {target : α} {count : Nat}
    (nearest : Nearest (Adjacent neighbours) start target count) : count ≤ distance := by
  apply Nat.le_of_not_lt
  intro beyond
  obtain ⟨middle, nearer⟩ := nearest.between (Nat.succ_pos distance) beyond
  have member := (reached.next_iff middle).mpr nearer
  simp [empty] at member

/-- Rounds enough for the farthest thing make a search exact. -/
theorem ReachedLevel.mem_searchLevels (reached : ReachedLevel neighbours start level distance found)
    {rounds : Nat} (enough : ∀ target count,
      Nearest (Adjacent neighbours) start target count → count ≤ distance + rounds)
    (target : α) (count : Nat) :
    (target, count) ∈ searchLevels neighbours rounds level distance found ↔
      Nearest (Adjacent neighbours) start target count := by
  induction rounds generalizing level distance found with
  | zero =>
    rw [searchLevels, reached.found_iff]
    constructor
    · exact And.right
    · intro nearest
      exact ⟨enough target count nearest, nearest⟩
  | succ rounds ih =>
    rw [searchLevels_succ]
    split
    · rename_i empty
      rw [reached.found_iff]
      constructor
      · exact And.right
      · intro nearest
        exact ⟨reached.finished (List.isEmpty_iff.mp empty) nearest, nearest⟩
    · apply ih reached.next
      intro other far nearest
      have bound := enough other far nearest
      omega

end

variable {neighbours : α → List α} {known : List α}

/-- A search with as many rounds as there are things to find gives each its least distance. -/
theorem mem_search_iff (closed : ∀ source, ∀ reached ∈ neighbours source, reached ∈ known)
    (start target : α) (count : Nat) :
    (target, count) ∈ search neighbours known.length start ↔
      Nearest (Adjacent neighbours) start target count := by
  apply ReachedLevel.initial.mem_searchLevels
  intro other far nearest
  have bound := nearest.le_length closed
  omega

theorem search_find?_iff (closed : ∀ source, ∀ reached ∈ neighbours source, reached ∈ known)
    (start target : α) (count : Nat) :
    (search neighbours known.length start).find? target = some count ↔
      Nearest (Adjacent neighbours) start target count :=
  Distances.find?_eq_some_iff (mem_search_iff closed start target) Nearest.unique

end MergeRisk
