import Mathlib.Data.List.Chain

/-! Walks along a relation, counted in steps, and the fewest steps that lead somewhere. A start is
reached from itself only by a walk that leaves it, and the shortest such walk is a cycle. -/

namespace MergeRisk

universe u
variable {α : Type u}

/-- A walk of so many steps along a relation. -/
inductive Steps (next : α → α → Prop) : α → α → Nat → Prop where
  | here {start : α} : Steps next start start 0
  | step {start middle target : α} {count : Nat} (first : next start middle)
      (rest : Steps next middle target count) : Steps next start target (count + 1)

namespace Steps
variable {next : α → α → Prop} {start middle target : α} {count : Nat}

theorem trans {more : Nat} (first : Steps next start middle count)
    (second : Steps next middle target more) : Steps next start target (count + more) := by
  induction first with
  | here => simpa using second
  | step made rest ih =>
    have walk := Steps.step made (ih second)
    rwa [Nat.add_right_comm] at walk

theorem single (made : next start target) : Steps next start target 1 :=
  .step made .here

theorem snoc (walk : Steps next start middle count) (made : next middle target) :
    Steps next start target (count + 1) :=
  walk.trans (single made)

/-- A walk that moves has a last step. -/
theorem last (walk : Steps next start target (count + 1)) :
    ∃ middle, Steps next start middle count ∧ next middle target := by
  induction count generalizing start with
  | zero =>
    cases walk with
    | step made rest =>
      cases rest
      exact ⟨start, .here, made⟩
  | succ count ih =>
    cases walk with
    | step made rest =>
      obtain ⟨middle, earlier, final⟩ := ih rest
      exact ⟨middle, .step made earlier, final⟩

theorem reverse (walk : Steps next start target count) :
    Steps (fun source reached => next reached source) target start count := by
  induction walk with
  | here => exact .here
  | step made rest ih => exact ih.snoc made

theorem map {β : Type u} {other : β → β → Prop} (place : α → β)
    (implies : ∀ source reached, next source reached → other (place source) (place reached))
    (walk : Steps next start target count) : Steps other (place start) (place target) count := by
  induction walk with
  | here => exact .here
  | step made rest ih => exact .step (implies _ _ made) ih

theorem imp {other : α → α → Prop}
    (implies : ∀ source reached, next source reached → other source reached)
    (walk : Steps next start target count) : Steps other start target count :=
  walk.map id implies

theorem of_isChain {between : List α} (linked : (start :: (between ++ [target])).IsChain next) :
    Steps next start target (between.length + 1) := by
  induction between generalizing start with
  | nil => exact single (List.isChain_pair.mp linked)
  | cons place between ih =>
    obtain ⟨made, rest⟩ := List.isChain_cons_cons.mp linked
    exact .step made (ih rest)

end Steps

/-- The fewest steps, and at least one, that lead from a start to a target. -/
structure Nearest (next : α → α → Prop) (start target : α) (count : Nat) : Prop where
  positive : 0 < count
  walk : Steps next start target count
  least : ∀ other, 0 < other → Steps next start target other → count ≤ other

namespace Nearest
variable {next : α → α → Prop} {start target : α} {count : Nat}

theorem unique {other : Nat} (first : Nearest next start target count)
    (second : Nearest next start target other) : count = other :=
  Nat.le_antisymm (first.least other second.positive second.walk)
    (second.least count first.positive first.walk)

/-- What a walk reaches has a distance, which the walk does not undercut. -/
theorem of_steps (positive : 0 < count) (walk : Steps next start target count) :
    ∃ least ≤ count, Nearest next start target least := by
  induction count using Nat.strongRecOn with
  | ind count ih =>
    by_cases shorter : ∃ other < count, 0 < other ∧ Steps next start target other
    · obtain ⟨other, smaller, moves, walk⟩ := shorter
      obtain ⟨least, bound, nearest⟩ := ih other smaller moves walk
      exact ⟨least, Nat.le_trans bound (Nat.le_of_lt smaller), nearest⟩
    · refine ⟨count, Nat.le_refl _, positive, walk, ?_⟩
      intro other moves walk
      apply Nat.le_of_not_lt
      intro smaller
      exact shorter ⟨other, smaller, moves, walk⟩

/-- What has a distance is what walks that move lead to. -/
theorem exists_iff : (∃ distance, Nearest next start target distance) ↔
    ∃ count, 0 < count ∧ Steps next start target count := by
  constructor
  · intro reached
    obtain ⟨distance, nearest⟩ := reached
    exact ⟨distance, nearest.positive, nearest.walk⟩
  · intro reached
    obtain ⟨count, positive, walk⟩ := reached
    obtain ⟨distance, _, nearest⟩ := of_steps positive walk
    exact ⟨distance, nearest⟩

/-- The last step of a shortest walk comes from one step nearer. -/
theorem previous (nearest : Nearest next start target (count + 1)) (positive : 0 < count) :
    ∃ middle, Nearest next start middle count ∧ next middle target := by
  obtain ⟨middle, walk, made⟩ := nearest.walk.last
  refine ⟨middle, ⟨positive, walk, ?_⟩, made⟩
  intro other _ walk
  have longer := nearest.least (other + 1) (Nat.succ_pos _) (walk.snoc made)
  omega

/-- Every distance up to that of a target is the distance of something. -/
theorem between {level : Nat} (nearest : Nearest next start target count) (positive : 0 < level)
    (below : level ≤ count) : ∃ middle, Nearest next start middle level := by
  induction count generalizing target with
  | zero => omega
  | succ count ih =>
    by_cases same : level = count + 1
    · subst same
      exact ⟨target, nearest⟩
    · obtain ⟨middle, nearer, _⟩ := nearest.previous (by omega)
      exact ih nearer (by omega)

/-- The same walks have the same fewest steps. -/
theorem iff_of_steps_iff {β : Type u} {other : β → β → Prop} {otherStart otherTarget : β}
    (same : ∀ count, Steps next start target count ↔ Steps other otherStart otherTarget count) :
    Nearest next start target count ↔ Nearest other otherStart otherTarget count := by
  constructor
  · intro nearest
    refine ⟨nearest.positive, (same _).mp nearest.walk, ?_⟩
    intro more positive walk
    exact nearest.least more positive ((same _).mpr walk)
  · intro nearest
    refine ⟨nearest.positive, (same _).mpr nearest.walk, ?_⟩
    intro more positive walk
    exact nearest.least more positive ((same _).mp walk)

/-- The places that some shortest walk comes to are distinct, and no farther than its end. -/
theorem route (nearest : Nearest next start target count) :
    ∃ between : List α, between.length + 1 = count ∧ (between ++ [target]).Nodup ∧
      (start :: (between ++ [target])).IsChain next ∧
      ∀ place ∈ between ++ [target], ∃ distance ≤ count, Nearest next start place distance := by
  induction count generalizing target with
  | zero => exact absurd nearest.positive (Nat.lt_irrefl _)
  | succ count ih =>
    by_cases first : count = 0
    · subst first
      obtain ⟨middle, walk, made⟩ := nearest.walk.last
      cases walk
      refine ⟨[], rfl, by simp, List.isChain_pair.mpr made, ?_⟩
      intro place single
      rw [List.mem_singleton.mp single]
      exact ⟨1, Nat.le_refl _, nearest⟩
    · obtain ⟨middle, nearer, made⟩ := nearest.previous (Nat.pos_of_ne_zero first)
      obtain ⟨between, length, distinct, linked, inside⟩ := ih nearer
      -- What was visited before is strictly nearer, so the target is new.
      have fresh : target ∉ between ++ [middle] := by
        intro old
        obtain ⟨distance, bound, other⟩ := inside target old
        have same := nearest.unique other
        omega
      refine ⟨between ++ [middle], by simp [length], ?_, ?_, ?_⟩
      · apply (List.perm_append_singleton target (between ++ [middle])).nodup_iff.mpr
        exact List.nodup_cons.mpr ⟨fresh, distinct⟩
      · rw [List.append_assoc, ← List.cons_append]
        exact List.isChain_append_cons_cons.mpr ⟨linked, made, List.isChain_singleton _⟩
      · intro place present
        rcases List.mem_append.mp present with old | last
        · obtain ⟨distance, bound, other⟩ := inside place old
          exact ⟨distance, Nat.le_succ_of_le bound, other⟩
        · rw [List.mem_singleton.mp last]
          exact ⟨count + 1, Nat.le_refl _, nearest⟩

/-- A distance is at most the number of things that can be reached. -/
theorem le_length {known : List α}
    (closed : ∀ source reached, next source reached → reached ∈ known)
    (nearest : Nearest next start target count) : count ≤ known.length := by
  obtain ⟨between, length, distinct, _, inside⟩ := nearest.route
  have places : (between ++ [target]).length = count := by simp [length]
  rw [← places]
  apply distinct.length_le_of_subset
  intro place member
  obtain ⟨distance, _, other⟩ := inside place member
  obtain ⟨before, rfl⟩ := Nat.exists_eq_succ_of_ne_zero (Nat.ne_of_gt other.positive)
  obtain ⟨middle, _, made⟩ := other.walk.last
  exact closed middle place made

end Nearest

/-- Distinct places, each of which leads to the next, and the last to the first. -/
structure Cycle (next : α → α → Prop) (start : α) (others : List α) : Prop where
  distinct : (start :: others).Nodup
  linked : (start :: (others ++ [start])).IsChain next

namespace Nearest
variable {next : α → α → Prop} {start : α} {count : Nat}

theorem cycle (nearest : Nearest next start start count) :
    ∃ others, Cycle next start others ∧ others.length + 1 = count := by
  obtain ⟨others, length, distinct, linked, _⟩ := nearest.route
  exact ⟨others, ⟨(List.perm_append_singleton start others).nodup_iff.mp distinct, linked⟩, length⟩

/-- A place lies on a cycle exactly when it has a distance from itself. -/
theorem exists_cycle_iff : (∃ others, Cycle next start others) ↔
    ∃ count, Nearest next start start count := by
  constructor
  · intro found
    obtain ⟨others, cycle⟩ := found
    exact exists_iff.mpr ⟨_, Nat.succ_pos _, .of_isChain cycle.linked⟩
  · intro found
    obtain ⟨count, nearest⟩ := found
    obtain ⟨others, cycle, _⟩ := nearest.cycle
    exact ⟨others, cycle⟩

/-- The fewest steps from a place back to itself are those of a shortest cycle through it. -/
theorem self_iff : Nearest next start start count ↔
    (∃ others, Cycle next start others ∧ others.length + 1 = count) ∧
      ∀ others, Cycle next start others → count ≤ others.length + 1 := by
  constructor
  · intro nearest
    refine ⟨nearest.cycle, ?_⟩
    intro others cycle
    exact nearest.least _ (Nat.succ_pos _) (.of_isChain cycle.linked)
  · intro found
    obtain ⟨⟨others, cycle, rfl⟩, shortest⟩ := found
    refine ⟨Nat.succ_pos _, .of_isChain cycle.linked, ?_⟩
    intro more positive walk
    -- A walk may cross itself, but the fewest steps back make a cycle.
    obtain ⟨least, bound, nearest⟩ := Nearest.of_steps positive walk
    obtain ⟨places, shorter, rfl⟩ := nearest.cycle
    exact Nat.le_trans (shortest places shorter) bound

end Nearest

end MergeRisk
