import MergeRisk.CallGraph.Queue
import MergeRisk.Proofs.IndexedGraph
import MergeRisk.Proofs.LowestAncestor

/-! The search with a queue is exact. Nodes wait in the order of their distances, which differ by at
most one, so a node is found at its least distance. The start is no exception: it waits without being
found, and is found like any other node if it lies on a cycle. -/

namespace MergeRisk

namespace QueueSearch
variable {size : Nat}

/-! ### Meeting nodes -/

/-- What meeting nodes at one distance comes to: those not found before are found at this distance and
wait behind the others. -/
structure Met (distance : Nat) (nodes : List (Fin size)) (search next : QueueSearch size) : Prop where
  found : ∀ node count, next.found[node]? = some count ↔ search.found[node]? = some count ∨
    count = distance ∧ node ∈ nodes ∧ search.found[node]? = none
  waiting : ∃ added, next.waiting = search.waiting ++ added ∧ ∀ node count, (node, count) ∈ added ↔
    count = distance ∧ node ∈ nodes ∧ search.found[node]? = none

theorem met_nil (distance : Nat) (search : QueueSearch size) : Met distance [] search search where
  found node count := by simp
  waiting := ⟨[], by simp⟩

theorem Met.found_eq_none {distance : Nat} {nodes : List (Fin size)} {search next : QueueSearch size}
    (met : Met distance nodes search next) {node : Fin size} :
    next.found[node]? = none ↔ search.found[node]? = none ∧ node ∉ nodes := by
  constructor
  · intro missing
    have fresh : search.found[node]? = none := by
      apply Option.eq_none_iff_forall_ne_some.mpr
      intro count old
      simp [(met.found node count).mpr (.inl old)] at missing
    refine ⟨fresh, ?_⟩
    intro member
    simp [(met.found node distance).mpr (.inr ⟨rfl, member, fresh⟩)] at missing
  · intro missing
    obtain ⟨fresh, notMet⟩ := missing
    apply Option.eq_none_iff_forall_ne_some.mpr
    intro count found
    rcases (met.found node count).mp found with old | ⟨_, member, _⟩
    · simp [fresh] at old
    · exact notMet member

theorem met_meet (distance : Nat) (search : QueueSearch size) (node : Fin size) :
    Met distance [node] search (search.meet distance node) := by
  unfold meet
  split
  · rename_i known
    rw [Std.HashMap.contains_eq_isSome_getElem?, Option.isSome_iff_exists] at known
    obtain ⟨earlier, found⟩ := known
    constructor
    · intro other count
      by_cases same : other = node
      · simp [same, found]
      · simp [same]
    · refine ⟨[], by simp, ?_⟩
      intro other count
      by_cases same : other = node
      · simp [same, found]
      · simp [same]
  · rename_i fresh
    have missing : search.found[node]? = none :=
      Std.HashMap.getElem?_eq_none_of_contains_eq_false (Bool.eq_false_iff.mpr fresh)
    constructor
    · intro other count
      rw [Std.HashMap.getElem?_insert]
      by_cases same : other = node
      · simp [same, missing, eq_comm]
      · simp [same, Ne.symm same]
    · refine ⟨[(node, distance)], rfl, ?_⟩
      intro other count
      by_cases same : other = node
      · simp [same, missing]
      · simp [same]

theorem Met.trans {distance : Nat} {nodes others : List (Fin size)}
    {search middle next : QueueSearch size} (first : Met distance nodes search middle)
    (second : Met distance others middle next) : Met distance (nodes ++ others) search next := by
  constructor
  · intro node count
    rw [second.found, first.found, first.found_eq_none, List.mem_append]
    by_cases inNodes : node ∈ nodes
    · simp [inNodes]
    · simp [inNodes]
  · obtain ⟨added, waiting, mem_added⟩ := first.waiting
    obtain ⟨more, waitingMore, mem_more⟩ := second.waiting
    refine ⟨added ++ more, by rw [waitingMore, waiting, List.append_assoc], ?_⟩
    intro node count
    rw [List.mem_append, mem_added, mem_more, first.found_eq_none, List.mem_append]
    by_cases inNodes : node ∈ nodes
    · simp [inNodes]
    · simp [inNodes]

theorem met_foldl (distance : Nat) (nodes : List (Fin size)) (search : QueueSearch size) :
    Met distance nodes search (nodes.foldl (meet distance) search) := by
  induction nodes generalizing search with
  | nil => exact met_nil distance search
  | cons node nodes ih => exact (met_meet distance search node).trans (ih _)

/-! ### A search under way -/

/-- A node is the start, or was found at a distance. -/
def Reached (start : Fin size) (found : Std.HashMap (Fin size) Nat) (node : Fin size)
    (distance : Nat) : Prop :=
  node = start ∧ distance = 0 ∨ found[node]? = some distance

/-- What holds whenever a node is taken from the queue. -/
structure Underway (neighbours : Fin size → List (Fin size)) (start : Fin size)
    (search : QueueSearch size) : Prop where
  nearest : ∀ target distance, search.found[target]? = some distance →
    Nearest (Adjacent neighbours) start target distance
  waiting : ∀ node distance, (node, distance) ∈ search.waiting →
    Reached start search.found node distance
  /-- The neighbours of a node that waits no longer were found. -/
  expanded : ∀ node distance, Reached start search.found node distance →
    (node, distance) ∈ search.waiting ∨ ∀ other ∈ neighbours node, search.found[other]? ≠ none
  ordered : search.waiting.Pairwise fun first second => first.2 ≤ second.2
  /-- The nodes in the queue lie on one level or on two that follow each other. -/
  narrow : ∀ first ∈ search.waiting, ∀ second ∈ search.waiting, second.2 ≤ first.2 + 1

variable {neighbours : Fin size → List (Fin size)} {start : Fin size}

theorem Underway.initial : Underway neighbours start ⟨∅, [(start, 0)]⟩ where
  nearest target distance found := by simp at found
  waiting node distance member := by
    obtain ⟨rfl, rfl⟩ := Prod.mk.inj (List.mem_singleton.mp member)
    exact .inl ⟨rfl, rfl⟩
  expanded node distance reached := by
    rcases reached with ⟨rfl, rfl⟩ | found
    · exact .inl (List.mem_singleton.mpr rfl)
    · simp at found
  ordered := List.pairwise_singleton ..
  narrow first inFirst second inSecond := by
    rw [List.mem_singleton.mp inFirst, List.mem_singleton.mp inSecond]
    exact Nat.le_succ _

section
variable {search : QueueSearch size}

theorem Underway.steps (underway : Underway neighbours start search) {node : Fin size}
    {distance : Nat} (reached : Reached start search.found node distance) :
    Steps (Adjacent neighbours) start node distance := by
  rcases reached with ⟨rfl, rfl⟩ | found
  · exact .here
  · exact (underway.nearest node distance found).walk

/-- What is no farther than all nodes in the queue was found. -/
theorem Underway.found_of_nearest (underway : Underway neighbours start search)
    {target : Fin size} {count : Nat} (bound : ∀ entry ∈ search.waiting, count ≤ entry.2)
    (nearest : Nearest (Adjacent neighbours) start target count) :
    search.found[target]? = some count := by
  induction count generalizing target with
  | zero => exact absurd nearest.positive (Nat.lt_irrefl _)
  | succ count ih =>
    -- The last step comes from the start or from a node that was found, and that node waits no longer.
    obtain ⟨middle, reached, made⟩ :
        ∃ middle, Reached start search.found middle count ∧ target ∈ neighbours middle := by
      by_cases first : count = 0
      · subst first
        obtain ⟨middle, walk, made⟩ := nearest.walk.last
        cases walk
        exact ⟨start, .inl ⟨rfl, rfl⟩, made⟩
      · obtain ⟨middle, nearer, made⟩ := nearest.previous (Nat.pos_of_ne_zero first)
        have earlier := ih (fun entry member => Nat.le_of_succ_le (bound entry member)) nearer
        exact ⟨middle, .inr earlier, made⟩
    rcases underway.expanded middle count reached with waits | known
    · exact absurd (bound _ waits) (Nat.not_succ_le_self _)
    · obtain ⟨distance, found⟩ := Option.ne_none_iff_exists'.mp (known target made)
      rw [found, nearest.unique (underway.nearest target distance found)]

end

/-! ### One node taken from the queue -/

section
variable {found : Std.HashMap (Fin size) Nat} {node : Fin size} {distance : Nat}
  {waiting : List (Fin size × Nat)} {next : QueueSearch size}

/-- A neighbour that was not found before is exactly one step farther than the node taken. -/
theorem Underway.nearest_fresh
    (underway : Underway neighbours start ⟨found, (node, distance) :: waiting⟩) {other : Fin size}
    (made : other ∈ neighbours node) (fresh : found[other]? = none) :
    Nearest (Adjacent neighbours) start other (distance + 1) := by
  have walk : Steps (Adjacent neighbours) start node distance :=
    underway.steps (underway.waiting node distance List.mem_cons_self)
  refine ⟨Nat.succ_pos _, walk.snoc made, ?_⟩
  intro count positive shorter
  apply Nat.le_of_not_lt
  intro smaller
  obtain ⟨least, bound, nearest⟩ := Nearest.of_steps positive shorter
  have front (entry : Fin size × Nat) (member : entry ∈ (node, distance) :: waiting) :
      least ≤ entry.2 := by
    rcases List.mem_cons.mp member with rfl | behind
    · omega
    · have later := (List.pairwise_cons.mp underway.ordered).1 entry behind
      omega
  have already := underway.found_of_nearest front nearest
  simp [fresh] at already

/-- Taking a node from the queue and meeting its neighbours keeps a search as it should be. -/
theorem Underway.expand (underway : Underway neighbours start ⟨found, (node, distance) :: waiting⟩)
    (met : Met (distance + 1) (neighbours node) ⟨found, waiting⟩ next) :
    Underway neighbours start next := by
  obtain ⟨added, behind, mem_added⟩ := met.waiting
  obtain ⟨front, ordered⟩ := List.pairwise_cons.mp underway.ordered
  have within (entry : Fin size × Nat) (member : entry ∈ waiting) : entry.2 ≤ distance + 1 :=
    underway.narrow (node, distance) List.mem_cons_self entry (List.mem_cons_of_mem _ member)
  have level (entry : Fin size × Nat) (member : entry ∈ added) : entry.2 = distance + 1 :=
    ((mem_added entry.1 entry.2).mp member).1
  have reached_iff {other : Fin size} {count : Nat} : Reached start next.found other count ↔
      Reached start found other count ∨ (other, count) ∈ added := by
    rw [mem_added, Reached, Reached, met.found, or_assoc]
  constructor
  case nearest =>
    intro target count inNext
    rcases (met.found target count).mp inNext with old | ⟨rfl, made, fresh⟩
    · exact underway.nearest target count old
    · exact underway.nearest_fresh made fresh
  case waiting =>
    intro other count member
    rw [behind, List.mem_append] at member
    rcases member with old | new
    · exact reached_iff.mpr (.inl (underway.waiting other count (List.mem_cons_of_mem _ old)))
    · exact reached_iff.mpr (.inr new)
  case expanded =>
    intro other count reached
    rw [behind, List.mem_append]
    rcases reached_iff.mp reached with old | new
    · rcases underway.expanded other count old with waits | known
      · rcases List.mem_cons.mp waits with taken | waits
        · obtain ⟨rfl, rfl⟩ := Prod.mk.inj taken
          refine .inr fun third made => ?_
          simp [met.found_eq_none, made]
        · exact .inl (.inl waits)
      · refine .inr fun third made => ?_
        have still := known third made
        simp [met.found_eq_none, still]
    · exact .inl (.inr new)
  case ordered =>
    rw [behind, List.pairwise_append]
    refine ⟨ordered, ?_, ?_⟩
    · apply List.pairwise_of_forall_mem_list
      intro first inFirst second inSecond
      rw [level first inFirst, level second inSecond]
    · intro first inFirst second inSecond
      rw [level second inSecond]
      exact within first inFirst
  case narrow =>
    intro first inFirst second inSecond
    rw [behind, List.mem_append] at inFirst inSecond
    have low : distance ≤ first.2 := by
      rcases inFirst with old | new
      · exact front first old
      · rw [level first new]
        exact Nat.le_succ _
    have high : second.2 ≤ distance + 1 := by
      rcases inSecond with old | new
      · exact within second old
      · exact Nat.le_of_eq (level second new)
    omega

end

/-! ### The whole search -/

theorem Underway.finish {search : QueueSearch size} (underway : Underway neighbours start search)
    (target : Fin size) (distance : Nat) :
    (search.finish neighbours)[target]? = some distance ↔
      Nearest (Adjacent neighbours) start target distance := by
  fun_induction QueueSearch.finish neighbours search with
  | case1 found =>
    constructor
    · exact underway.nearest target distance
    · exact underway.found_of_nearest (by simp)
  | case2 found node count waiting ih => exact ih (underway.expand (met_foldl _ _ _))

/-- The search finds what one or more steps reach, at the least distance. -/
theorem getElem?_distances (neighbours : Fin size → List (Fin size)) (start target : Fin size)
    (distance : Nat) :
    (distances neighbours start)[target]? = some distance ↔
      Nearest (Adjacent neighbours) start target distance :=
  Underway.initial.finish target distance

end QueueSearch

namespace IndexedGraph
variable {store : GraphStore Signature} {graph : IndexedGraph store}

/-! ### Ancestors in a stored graph -/

theorem node?_eq_some {number : Nat} {node : Fin graph.nodes.length} :
    graph.node? number = some node ↔ number = node := by
  unfold node?
  split
  · simp [Fin.ext_iff]
  · rename_i outside
    have different : number ≠ node := fun same => outside (same ▸ node.isLt)
    simp [different]

theorem getElem?_nodes (node : Fin graph.nodes.length) :
    graph.nodes[node.val]? = some (graph.nodes.get node) :=
  List.getElem?_eq_getElem node.isLt

namespace Consistent
variable (consistent : graph.Consistent)
include consistent

theorem get_inj {node other : Fin graph.nodes.length}
    (same : graph.nodes.get node = graph.nodes.get other) : node = other :=
  Fin.ext (consistent.number_unique (getElem?_nodes node) (same ▸ getElem?_nodes other))

/-- The sources of a node are its callers. -/
theorem mem_sources {node other : Fin graph.nodes.length} :
    other ∈ graph.sources node ↔
      Calls graph.calls (graph.nodes.get other) (graph.nodes.get node) := by
  have edge : other.val ∈ store.neighbours graph.graph .incoming node ↔
      (other.val, node.val) ∈ store.edges graph.graph :=
    consistent.mem_neighbours_iff .incoming (other.val, node.val)
  rw [Calls, consistent.mem_calls_iff (getElem?_nodes other) (getElem?_nodes node), ← edge, sources,
    List.mem_filterMap]
  simp only [node?_eq_some, exists_eq_right]

/-- A walk from node to source is a call path the other way. -/
theorem steps_sources_iff {node other : Fin graph.nodes.length} {count : Nat} :
    Steps (Adjacent graph.sources) node other count ↔
      CallPath graph.calls (graph.nodes.get other) (graph.nodes.get node) count := by
  constructor
  · intro walk
    exact walk.reverse.map graph.nodes.get fun _ _ made => consistent.mem_sources.mp made
  · intro path
    generalize atSource : graph.nodes.get other = source at path
    generalize atTarget : graph.nodes.get node = target at path
    induction path generalizing other with
    | here =>
      rw [consistent.get_inj (atTarget.trans atSource.symm)]
      exact .here
    | @step source middle target count made rest ih =>
      -- Between two calls of a path there is a node, too.
      obtain ⟨between, atMiddle⟩ := List.mem_iff_get.mp (ends_mem made .incoming)
      have last : other ∈ graph.sources between := by
        rw [consistent.mem_sources, atSource, atMiddle]
        exact made
      exact (ih atMiddle atTarget).snoc last

theorem getElem?_ancestry {node other : Fin graph.nodes.length} {distance : Nat} :
    (graph.ancestry node)[other]? = some distance ↔
      Nearest (Calls graph.calls) (graph.nodes.get other) (graph.nodes.get node) distance := by
  rw [ancestry, QueueSearch.getElem?_distances]
  exact Nearest.iff_of_steps_iff fun _ => consistent.steps_sources_iff

theorem mem_ancestry {node other : Fin graph.nodes.length} :
    other ∈ graph.ancestry node ↔ ∃ distance,
      Nearest (Calls graph.calls) (graph.nodes.get other) (graph.nodes.get node) distance := by
  rw [Std.HashMap.mem_iff_isSome_getElem?, Option.isSome_iff_exists]
  simp only [consistent.getElem?_ancestry]

end Consistent

/-! ### The ancestors found -/

/-- What the ancestors of a node are: all that lead to it by one or more calls, each with the length of
a shortest path. The node itself is among them exactly if it lies on a cycle, with the length of a
shortest one. -/
structure IsAncestry (graph : IndexedGraph store) (node : Fin graph.nodes.length)
    (found : Std.HashMap (Fin graph.nodes.length) Nat) : Prop where
  key_iff : ∀ other, other ∈ found ↔ ∃ count, 0 < count ∧
    CallPath graph.calls (graph.nodes.get other) (graph.nodes.get node) count
  value_iff : ∀ other distance, found[other]? = some distance ↔
    Nearest (Calls graph.calls) (graph.nodes.get other) (graph.nodes.get node) distance
  self_key_iff : node ∈ found ↔ ∃ others, Cycle (Calls graph.calls) (graph.nodes.get node) others
  self_value_iff : ∀ distance, found[node]? = some distance ↔
    (∃ others, Cycle (Calls graph.calls) (graph.nodes.get node) others ∧
      others.length + 1 = distance) ∧
    ∀ others, Cycle (Calls graph.calls) (graph.nodes.get node) others →
      distance ≤ others.length + 1

/-- Whatever was added to a graph, the search with a queue finds the ancestors of each node at their
shortest distances. -/
theorem isAncestry_ancestry (lawful : store.Lawful) (additions : List Addition)
    (node : Fin (ofAdditions store additions).nodes.length) :
    (ofAdditions store additions).IsAncestry node ((ofAdditions store additions).ancestry node) := by
  obtain ⟨consistent, _, _⟩ := lists_ofAdditions lawful additions
  constructor
  case key_iff =>
    intro other
    rw [consistent.mem_ancestry]
    exact Nearest.exists_iff
  case value_iff => exact fun other distance => consistent.getElem?_ancestry
  case self_key_iff =>
    rw [consistent.mem_ancestry]
    exact Nearest.exists_cycle_iff.symm
  case self_value_iff =>
    intro distance
    rw [consistent.getElem?_ancestry]
    exact Nearest.self_iff

/-- The method `spin` is on a cycle with `weave`, which also calls itself. -/
theorem isAncestry_ancestry_spin :
    let graph := ofAdditions (LinkedGraph.store Signature) loomAdditions
    (LinkedGraph.store Signature).Lawful ∧ ∃ node, graph.nodes.get node = spin ∧
      graph.IsAncestry node (graph.ancestry node) ∧ (graph.ancestry node)[node]? = some 2 := by
  intro graph
  have lawful := LinkedGraph.store_lawful Signature
  obtain ⟨_, nodes, calls⟩ := lists_ofAdditions lawful loomAdditions
  have nodes : graph.nodes = [weave, spin, rest] := nodes.trans (by decide)
  have calls : graph.calls = [⟨weave, weave⟩, ⟨weave, spin⟩, ⟨spin, weave⟩] :=
    calls.trans (by decide)
  obtain ⟨node, isSpin⟩ := List.mem_iff_get.mp (show spin ∈ graph.nodes by simp [nodes])
  have exact := isAncestry_ancestry lawful loomAdditions node
  refine ⟨lawful, node, isSpin, exact, ?_⟩
  have toWeave : Calls graph.calls spin weave := by simp [Calls, calls]
  have back : Calls graph.calls weave spin := by simp [Calls, calls]
  have notItself : ¬ Calls graph.calls spin spin := by
    rw [Calls, calls]
    decide
  have around : Nearest (Calls graph.calls) spin spin 2 := by
    refine ⟨by decide, .step toWeave (.single back), ?_⟩
    intro count positive walk
    by_contra shorter
    obtain rfl : count = 1 := by omega
    cases walk with
    | step made none =>
      cases none
      exact notItself made
  apply (exact.value_iff node 2).mpr
  rw [← isSpin] at around
  exact around

/-! ### The lowest common ancestor -/

namespace Consistent
variable (consistent : graph.Consistent)
include consistent

theorem mem_ancestors {node : Fin graph.nodes.length} {ancestor : Signature} {distance : Nat} :
    (ancestor, distance) ∈ graph.ancestors node ↔
      Nearest (Calls graph.calls) ancestor (graph.nodes.get node) distance := by
  simp only [ancestors, List.mem_map, Prod.exists, Prod.mk.injEq,
    Std.HashMap.mem_toList_iff_getElem?_eq_some, consistent.getElem?_ancestry]
  constructor
  · intro found
    obtain ⟨other, _, nearest, rfl, rfl⟩ := found
    exact nearest
  · intro nearest
    -- The first call of the path makes the ancestor a node.
    have listed : ancestor ∈ graph.nodes := by
      have positive := nearest.positive
      cases nearest.walk with
      | here => exact absurd positive (Nat.lt_irrefl 0)
      | step made rest => exact ends_mem made .outgoing
    obtain ⟨other, rfl⟩ := List.mem_iff_get.mp listed
    exact ⟨other, distance, nearest, rfl, rfl⟩

theorem find?_ancestors {node : Fin graph.nodes.length} {ancestor : Signature} {distance : Nat} :
    (graph.ancestors node).find? ancestor = some distance ↔
      Nearest (Calls graph.calls) ancestor (graph.nodes.get node) distance :=
  Distances.find?_eq_some_iff (fun _ => consistent.mem_ancestors) Nearest.unique

theorem lookup_node (method : Signature) :
    method ∉ graph.nodes ∧ (graph.index[method]? >>= graph.node?) = none ∨
      ∃ node, graph.nodes.get node = method ∧ (graph.index[method]? >>= graph.node?) = some node := by
  by_cases listed : method ∈ graph.nodes
  · obtain ⟨node, rfl⟩ := List.mem_iff_get.mp listed
    refine .inr ⟨node, rfl, ?_⟩
    rw [(consistent.index_iff _ _).mpr (getElem?_nodes node)]
    exact node?_eq_some.mpr rfl
  · refine .inl ⟨listed, ?_⟩
    have unknown : graph.index[method]? = none := by
      apply Option.eq_none_iff_forall_ne_some.mpr
      intro number found
      exact listed (consistent.mem_nodes_iff.mpr ⟨number, found⟩)
    rw [unknown]
    rfl

/-- A call graph with the same calls chooses from the same ancestors. -/
theorem lowest?_ancestors {listed : CallGraph} (calls : graph.calls = listed.calls)
    (first second : Fin graph.nodes.length) :
    listed.lowest? listed.descent (graph.ancestors first) (graph.ancestors second) =
      listed.lowest? listed.descent (listed.ancestry (graph.nodes.get first))
        (listed.ancestry (graph.nodes.get second)) := by
  have sameMembers (entry : Signature × Nat) :
      entry ∈ graph.ancestors first ↔ entry ∈ listed.ancestry (graph.nodes.get first) := by
    rw [consistent.mem_ancestors, CallGraph.mem_ancestry, calls]
  apply CallGraph.lowest?_congr sameMembers
  · intro ancestor
    apply Option.ext
    intro distance
    rw [consistent.find?_ancestors, CallGraph.find?_ancestry_iff, CallGraph.nearest_callers_iff, calls]
  · intro entry member
    have nearest := CallGraph.mem_ancestry.mp ((sameMembers entry).mp member)
    exact (CallGraph.reaches_iff_nearest.mpr ⟨_, nearest⟩).source_mem

end Consistent

/-- The lowest common ancestor found with queues is the one found level by level. -/
theorem lowestCommonAncestor_ofAdditions (lawful : store.Lawful) (additions : List Addition)
    (first second : Signature) :
    (ofAdditions store additions).lowestCommonAncestor first second =
      (CallGraph.ofAdditions additions).lowestCommonAncestor first second := by
  obtain ⟨consistent, nodes, calls⟩ := lists_ofAdditions lawful additions
  have contains (method : Signature) : (CallGraph.ofAdditions additions).contains method = true ↔
      method ∈ (ofAdditions store additions).nodes := by
    rw [CallGraph.contains_iff, nodes]
  rw [lowestCommonAncestor, listed_eq nodes calls, CallGraph.lowestCommonAncestor]
  rcases consistent.lookup_node first with ⟨outside, unknown⟩ | ⟨firstNode, rfl, known⟩
  · rw [← contains, Bool.not_eq_true] at outside
    rw [unknown, outside]
    rfl
  rcases consistent.lookup_node second with ⟨outside, unknown⟩ | ⟨secondNode, rfl, knownToo⟩
  · rw [← contains, Bool.not_eq_true] at outside
    rw [known, unknown, outside, Bool.and_false]
    rfl
  · have inFirst := (contains _).mpr (List.get_mem _ firstNode)
    have inSecond := (contains _).mpr (List.get_mem _ secondNode)
    rw [known, knownToo, inFirst, inSecond]
    exact consistent.lowest?_ancestors calls firstNode secondNode

end IndexedGraph

end MergeRisk
