import Mathlib.Data.List.Basic
import MergeRisk.Proofs.CommonAncestor

/-! The lowest common ancestor of two methods, told from call paths alone: the best ranked of the
common ancestors that reach no other one, or of all of them where cycles leave none such. -/

namespace MergeRisk.CallGraph

/-! ### Ancestors and what they reach -/

/-- A path of at least one call leads from one method to another. -/
def Reaches (graph : CallGraph) (source target : Signature) : Prop :=
  ∃ count, 0 < count ∧ CallPath graph.calls source target count

/-- A node that reaches both methods. -/
structure CommonAncestor (graph : CallGraph) (first second ancestor : Signature) : Prop where
  node : ancestor ∈ graph.nodes
  toFirst : graph.Reaches ancestor first
  toSecond : graph.Reaches ancestor second

/-- A common ancestor that reaches no other one. -/
structure IsLowest (graph : CallGraph) (first second ancestor : Signature) : Prop where
  common : graph.CommonAncestor first second ancestor
  alone : ∀ other, graph.CommonAncestor first second other → other ≠ ancestor →
    ¬ graph.Reaches ancestor other

/-- A common ancestor that is lowest, unless there is none lowest. -/
structure Candidate (graph : CallGraph) (first second ancestor : Signature) : Prop where
  common : graph.CommonAncestor first second ancestor
  lowest : (∃ other, graph.IsLowest first second other) → graph.IsLowest first second ancestor

/-- The rank of a method: its shortest distances to both methods, summed, and its position. -/
def HasRank (graph : CallGraph) (first second ancestor : Signature) (rank : Rank) : Prop :=
  ∃ near far, Nearest (Calls graph.calls) ancestor first near ∧
    Nearest (Calls graph.calls) ancestor second far ∧
    rank = ⟨near + far, graph.position ancestor⟩

/-- A smaller distance comes first, and of one distance the smaller position. -/
def Rank.Before (first second : Rank) : Prop :=
  first.distance < second.distance ∨
    first.distance = second.distance ∧ first.position < second.position

/-- A candidate whose rank comes before that of every other candidate. -/
structure BestCandidate (graph : CallGraph) (first second ancestor : Signature) : Prop where
  candidate : graph.Candidate first second ancestor
  best : ∀ other, graph.Candidate first second other → other ≠ ancestor →
    ∃ rank otherRank, graph.HasRank first second ancestor rank ∧
      graph.HasRank first second other otherRank ∧ rank.Before otherRank

variable {graph : CallGraph} {first second ancestor : Signature}

theorem Reaches.source_mem {source target : Signature} (reaches : graph.Reaches source target) :
    source ∈ graph.nodes := by
  obtain ⟨count, positive, path⟩ := reaches
  cases path with
  | here => exact absurd positive (Nat.lt_irrefl 0)
  | step made rest => exact graph.caller_mem _ made

theorem Reaches.target_mem {source target : Signature} (reaches : graph.Reaches source target) :
    target ∈ graph.nodes := by
  obtain ⟨count, positive, path⟩ := reaches
  obtain ⟨before, rfl⟩ := Nat.exists_eq_succ_of_ne_zero (Nat.ne_of_gt positive)
  obtain ⟨middle, _, made⟩ := path.last
  exact graph.callee_mem _ made

theorem reaches_iff_nearest {source target : Signature} :
    graph.Reaches source target ↔ ∃ distance, Nearest (Calls graph.calls) source target distance :=
  Nearest.exists_iff.symm

theorem HasRank.common {rank : Rank} (ranked : graph.HasRank first second ancestor rank) :
    graph.CommonAncestor first second ancestor := by
  obtain ⟨near, far, toFirst, toSecond, _⟩ := ranked
  have reaches : graph.Reaches ancestor first := reaches_iff_nearest.mpr ⟨near, toFirst⟩
  exact ⟨reaches.source_mem, reaches, reaches_iff_nearest.mpr ⟨far, toSecond⟩⟩

theorem CommonAncestor.hasRank (common : graph.CommonAncestor first second ancestor) :
    ∃ distance, graph.HasRank first second ancestor ⟨distance, graph.position ancestor⟩ := by
  obtain ⟨near, toFirst⟩ := reaches_iff_nearest.mp common.toFirst
  obtain ⟨far, toSecond⟩ := reaches_iff_nearest.mp common.toSecond
  exact ⟨near + far, near, far, toFirst, toSecond, rfl⟩

/-! ### What the searches find -/

theorem nearest_callers_iff {method : Signature} {distance : Nat} :
    Nearest (Adjacent graph.callers) method ancestor distance ↔
      Nearest (Calls graph.calls) ancestor method distance :=
  Nearest.iff_of_steps_iff fun _ => steps_callers_iff

theorem mem_ancestry {method : Signature} {distance : Nat} :
    (ancestor, distance) ∈ graph.ancestry method ↔
      Nearest (Calls graph.calls) ancestor method distance := by
  rw [← nearest_callers_iff]
  exact mem_search_iff (fun _ _ member => (mem_nodes_of_mem_callers member).1) ..

theorem mem_descent {source target : Signature} {distance : Nat} :
    (target, distance) ∈ graph.descent source ↔
      Nearest (Calls graph.calls) source target distance := by
  have follows : Adjacent graph.callees = Calls graph.calls := by
    funext caller callee
    exact propext mem_callees
  rw [← follows]
  exact mem_search_iff (fun _ _ member => graph.callee_mem _ (mem_callees.mp member)) ..

/-- The shared ancestors carry the distances of their ranks. -/
theorem mem_shared {distance : Nat} :
    (ancestor, distance) ∈ shared (graph.ancestry first) (graph.ancestry second) ↔
      graph.HasRank first second ancestor ⟨distance, graph.position ancestor⟩ := by
  simp only [shared, List.mem_filterMap, Option.map_eq_some_iff, Prod.exists, Prod.mk.injEq,
    find?_ancestry_iff, nearest_callers_iff, mem_ancestry]
  constructor
  · rintro ⟨_, near, toFirst, far, toSecond, rfl, rfl⟩
    exact ⟨near, far, toFirst, toSecond, rfl⟩
  · rintro ⟨near, far, toFirst, toSecond, same⟩
    obtain ⟨rfl, _⟩ := Rank.mk.inj same
    exact ⟨ancestor, near, toFirst, far, toSecond, rfl, rfl⟩

theorem has_shared :
    (shared (graph.ancestry first) (graph.ancestry second)).has ancestor = true ↔
      graph.CommonAncestor first second ancestor := by
  simp only [Distances.has_iff, mem_shared]
  constructor
  · intro found
    obtain ⟨distance, ranked⟩ := found
    exact ranked.common
  · exact CommonAncestor.hasRank

theorem reachesOther_descent {members : Distances Signature} {method : Signature} :
    reachesOther graph.descent members method = true ↔
      ∃ other, other ≠ method ∧ members.has other = true ∧ graph.Reaches method other := by
  simp only [reachesOther, List.any_eq_true, Bool.and_eq_true, bne_iff_ne, Prod.exists,
    mem_descent, reaches_iff_nearest]
  constructor
  · rintro ⟨other, distance, nearest, different, member⟩
    exact ⟨other, different, member, distance, nearest⟩
  · rintro ⟨other, different, member, distance, nearest⟩
    exact ⟨other, distance, nearest, different, member⟩

/-! ### The choice among the shared ancestors -/

theorem mem_candidates {reach : Signature → Distances Signature} {members : Distances Signature}
    {entry : Signature × Nat} :
    entry ∈ candidates reach members ↔ entry ∈ members ∧
      ((∃ other ∈ members, reachesOther reach members other.1 = false) →
        reachesOther reach members entry.1 = false) := by
  unfold candidates
  extract_lets lowest
  have mem_lowest (other : Signature × Nat) :
      other ∈ lowest ↔ other ∈ members ∧ reachesOther reach members other.1 = false := by
    simp [lowest]
  split
  · rename_i empty
    have none : ¬ ∃ other ∈ members, reachesOther reach members other.1 = false := by
      intro some
      obtain ⟨other, member, alone⟩ := some
      have inLowest := (mem_lowest other).mpr ⟨member, alone⟩
      simp [List.isEmpty_iff.mp empty] at inLowest
    simp only [none, false_implies, and_true]
  · rename_i nonempty
    obtain ⟨other, inLowest⟩ := List.exists_mem_of_ne_nil lowest (by simpa using nonempty)
    have some : ∃ other ∈ members, reachesOther reach members other.1 = false :=
      ⟨other, (mem_lowest other).mp inLowest⟩
    simp only [mem_lowest, some, true_implies]

theorem isLowest_iff : graph.IsLowest first second ancestor ↔
    graph.CommonAncestor first second ancestor ∧
      reachesOther graph.descent (shared (graph.ancestry first) (graph.ancestry second)) ancestor =
        false := by
  rw [← Bool.not_eq_true, reachesOther_descent]
  simp only [has_shared]
  constructor
  · intro lowest
    refine ⟨lowest.common, ?_⟩
    intro reached
    obtain ⟨other, different, common, reaches⟩ := reached
    exact lowest.alone other common different reaches
  · intro lowest
    refine ⟨lowest.1, ?_⟩
    intro other common different reaches
    exact lowest.2 ⟨other, different, common, reaches⟩

/-- The candidates chosen from are those that the call paths tell. -/
theorem mem_candidates_shared {distance : Nat} :
    (ancestor, distance) ∈
        candidates graph.descent (shared (graph.ancestry first) (graph.ancestry second)) ↔
      graph.HasRank first second ancestor ⟨distance, graph.position ancestor⟩ ∧
        graph.Candidate first second ancestor := by
  have some : (∃ other ∈ shared (graph.ancestry first) (graph.ancestry second),
        reachesOther graph.descent (shared (graph.ancestry first) (graph.ancestry second)) other.1 =
          false) ↔
      ∃ other, graph.IsLowest first second other := by
    simp only [isLowest_iff, ← has_shared, Distances.has_iff, Prod.exists]
    constructor
    · intro found
      obtain ⟨other, distance, member, alone⟩ := found
      exact ⟨other, ⟨distance, member⟩, alone⟩
    · intro found
      obtain ⟨other, ⟨distance, member⟩, alone⟩ := found
      exact ⟨other, distance, member, alone⟩
  rw [mem_candidates, some, mem_shared]
  constructor
  · intro chosen
    obtain ⟨ranked, alone⟩ := chosen
    exact ⟨ranked, ranked.common, fun lowest => isLowest_iff.mpr ⟨ranked.common, alone lowest⟩⟩
  · intro chosen
    obtain ⟨ranked, candidate⟩ := chosen
    exact ⟨ranked, fun lowest => (isLowest_iff.mp (candidate.lowest lowest)).2⟩

theorem Rank.isLE_iff {rank other : Rank} :
    (compare rank other).isLE = true ↔ rank = other ∨ rank.Before other := by
  have lexicographic : compare rank other =
      (compare rank.distance other.distance).then (compare rank.position other.position) := rfl
  have extensional : rank = other ↔
      rank.distance = other.distance ∧ rank.position = other.position := by
    cases rank
    cases other
    exact Rank.mk.injEq .. ▸ Iff.rfl
  rw [lexicographic, Ordering.isLE_then_iff_or, Nat.compare_eq_lt, Nat.compare_eq_eq,
    Nat.isLE_compare, extensional, Rank.Before]
  omega

theorem Rank.eq_of_compare {rank other : Rank} (equal : compare rank other = .eq) : rank = other := by
  rcases isLE_iff.mp (Ordering.isLE_of_eq_eq equal) with same | before
  · exact same
  · rcases isLE_iff.mp (Ordering.isLE_of_eq_eq (Std.OrientedCmp.eq_symm equal)) with same | after
    · exact same.symm
    · unfold Before at before after
      omega

/-- The choice depends on what is listed only, not on the order. -/
theorem lowest?_congr {reach : Signature → Distances Signature}
    {firsts seconds otherFirsts otherSeconds : Distances Signature}
    (sameFirsts : ∀ entry, entry ∈ firsts ↔ entry ∈ otherFirsts)
    (sameSeconds : ∀ method, seconds.find? method = otherSeconds.find? method)
    (nodes : ∀ entry ∈ firsts, entry.1 ∈ graph.nodes) :
    graph.lowest? reach firsts seconds = graph.lowest? reach otherFirsts otherSeconds := by
  have sameShared (entry : Signature × Nat) :
      entry ∈ shared firsts seconds ↔ entry ∈ shared otherFirsts otherSeconds := by
    simp only [shared, List.mem_filterMap, sameFirsts, sameSeconds]
  have sameReaches (method : Signature) :
      reachesOther reach (shared firsts seconds) method =
        reachesOther reach (shared otherFirsts otherSeconds) method := by
    have sameHas (other : Signature) :
        (shared firsts seconds).has other = (shared otherFirsts otherSeconds).has other := by
      rw [Bool.eq_iff_iff, Distances.has_iff, Distances.has_iff]
      simp only [sameShared]
    simp only [reachesOther, sameHas]
  have listed (entry : Signature × Nat)
      (member : entry ∈ candidates reach (shared firsts seconds)) : entry.1 ∈ graph.nodes := by
    obtain ⟨inShared, _⟩ := mem_candidates.mp member
    obtain ⟨⟨method, near⟩, inFirsts, found⟩ := List.mem_filterMap.mp inShared
    obtain ⟨far, _, rfl⟩ := Option.map_eq_some_iff.mp found
    exact nodes (method, near) inFirsts
  unfold lowest?
  rw [least?_congr]
  · intro entry
    simp only [mem_candidates, sameShared, sameReaches]
  · -- Entries at one position name one method.
    intro first inFirst second inSecond equal
    obtain ⟨sameDistance, samePosition⟩ := Rank.mk.inj (Rank.eq_of_compare equal)
    exact Prod.ext ((List.idxOf_inj (listed first inFirst)).mp samePosition) sameDistance

/-! ### Uniqueness -/

theorem HasRank.unique {rank other : Rank} (one : graph.HasRank first second ancestor rank)
    (two : graph.HasRank first second ancestor other) : rank = other := by
  obtain ⟨near, far, toFirst, toSecond, rfl⟩ := one
  obtain ⟨otherNear, otherFar, otherToFirst, otherToSecond, rfl⟩ := two
  rw [toFirst.unique otherToFirst, toSecond.unique otherToSecond]

/-- Two ancestors at one position are the same. -/
theorem CommonAncestor.eq_of_position {other : Signature}
    (common : graph.CommonAncestor first second ancestor)
    (same : graph.position ancestor = graph.position other) : ancestor = other :=
  (List.idxOf_inj common.node).mp same

theorem BestCandidate.unique {other : Signature}
    (one : graph.BestCandidate first second ancestor)
    (two : graph.BestCandidate first second other) : ancestor = other := by
  by_contra different
  obtain ⟨rank, otherRank, ranked, otherRanked, before⟩ :=
    one.best other two.candidate (Ne.symm different)
  obtain ⟨backRank, frontRank, backRanked, frontRanked, after⟩ :=
    two.best ancestor one.candidate different
  rw [backRanked.unique otherRanked, frontRanked.unique ranked] at after
  unfold Rank.Before at before after
  omega

/-! ### The lowest common ancestor -/

theorem bestCandidate_of_lowest?
    (chosen : graph.lowest? graph.descent (graph.ancestry first) (graph.ancestry second) =
      some ancestor) : graph.BestCandidate first second ancestor := by
  obtain ⟨⟨method, distance⟩, least, rfl⟩ := Option.map_eq_some_iff.mp chosen
  have first := least?_eq_some_iff.mp least
  obtain ⟨ranked, candidate⟩ := mem_candidates_shared.mp first.mem
  refine ⟨candidate, ?_⟩
  intro other otherCandidate different
  obtain ⟨otherDistance, otherRanked⟩ := otherCandidate.common.hasRank
  refine ⟨_, _, ranked, otherRanked, ?_⟩
  have notAfter := first.le (mem_candidates_shared.mpr ⟨otherRanked, otherCandidate⟩)
  rcases Rank.isLE_iff.mp notAfter with same | before
  · have samePosition := (Rank.mk.inj same).2
    exact absurd (candidate.common.eq_of_position samePosition).symm different
  · exact before

/-- The ancestor chosen from two searches is the best candidate. -/
theorem lowest?_eq_some_iff :
    graph.lowest? graph.descent (graph.ancestry first) (graph.ancestry second) = some ancestor ↔
      graph.BestCandidate first second ancestor := by
  constructor
  · exact bestCandidate_of_lowest?
  · intro best
    obtain ⟨distance, ranked⟩ := best.candidate.common.hasRank
    have nonempty : shared (graph.ancestry first) (graph.ancestry second) ≠ [] :=
      List.ne_nil_of_mem (mem_shared.mpr ranked)
    have found : (graph.lowest? graph.descent (graph.ancestry first)
        (graph.ancestry second)).isSome = true := by
      rw [lowest?_isSome]
      simpa using nonempty
    obtain ⟨other, chosen⟩ := Option.isSome_iff_exists.mp found
    rw [chosen, best.unique (bestCandidate_of_lowest? chosen)]

theorem lowestCommonAncestor_eq_some_iff :
    graph.lowestCommonAncestor first second = some ancestor ↔
      graph.BestCandidate first second ancestor := by
  rw [lowestCommonAncestor]
  split
  · exact lowest?_eq_some_iff
  · rename_i missing
    constructor
    · intro found
      cases found
    · intro best
      have inFirst := contains_iff.mpr best.candidate.common.toFirst.target_mem
      have inSecond := contains_iff.mpr best.candidate.common.toSecond.target_mem
      simp [inFirst, inSecond] at missing

theorem lowest?_eq_none_iff :
    graph.lowest? graph.descent (graph.ancestry first) (graph.ancestry second) = none ↔
      ∀ ancestor, ¬ graph.CommonAncestor first second ancestor := by
  have isNone : graph.lowest? graph.descent (graph.ancestry first) (graph.ancestry second) = none ↔
      shared (graph.ancestry first) (graph.ancestry second) = [] := by
    rw [← Option.not_isSome_iff_eq_none, lowest?_isSome]
    simp
  rw [isNone, List.eq_nil_iff_forall_not_mem]
  constructor
  · intro empty ancestor common
    obtain ⟨distance, ranked⟩ := common.hasRank
    exact empty (ancestor, distance) (mem_shared.mpr ranked)
  · intro none entry member
    exact none entry.1 (mem_shared.mp member).common

theorem lowestCommonAncestor_eq_none_iff :
    graph.lowestCommonAncestor first second = none ↔
      first ∉ graph.nodes ∨ second ∉ graph.nodes ∨
        ∀ ancestor, ¬ graph.CommonAncestor first second ancestor := by
  rw [lowestCommonAncestor]
  split
  · rename_i known
    obtain ⟨inFirst, inSecond⟩ := (Bool.and_eq_true _ _).mp known
    simp only [contains_iff.mp inFirst, contains_iff.mp inSecond, not_true_eq_false, false_or]
    exact lowest?_eq_none_iff
  · rename_i missing
    have outside : first ∉ graph.nodes ∨ second ∉ graph.nodes := by
      rw [Bool.and_eq_true, contains_iff, contains_iff] at missing
      exact Decidable.not_and_iff_or_not.mp missing
    rcases outside with notFirst | notSecond
    · exact ⟨fun _ => .inl notFirst, fun _ => rfl⟩
    · exact ⟨fun _ => .inr (.inl notSecond), fun _ => rfl⟩

/-- Two methods have no lowest common ancestor exactly when one is no node or no node reaches both by
one or more calls. Otherwise it is the one candidate whose rank comes before all others; the
candidates are the common ancestors that reach no other, or all of them if there are none such. -/
theorem lowestCommonAncestor_exact (graph : CallGraph) (first second : Signature) :
    (graph.lowestCommonAncestor first second = none ↔
      first ∉ graph.nodes ∨ second ∉ graph.nodes ∨
        ∀ ancestor, ¬ graph.CommonAncestor first second ancestor) ∧
    ∀ ancestor, graph.lowestCommonAncestor first second = some ancestor ↔
      graph.BestCandidate first second ancestor := by
  constructor
  · exact lowestCommonAncestor_eq_none_iff
  · intro ancestor
    exact lowestCommonAncestor_eq_some_iff

end MergeRisk.CallGraph
