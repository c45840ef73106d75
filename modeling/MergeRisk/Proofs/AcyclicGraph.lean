import Mathlib.Data.Fintype.Card
import Mathlib.Data.Fintype.Sets
import Mathlib.Data.Fintype.EquivFin
import Mathlib.Order.WellFounded
import MergeRisk.Proofs.LowestAncestor

/-! Call graphs without cycles. Going down the calls of such a graph ends, so wherever two methods
have a common ancestor they have a lowest one, and the choice among all of them is not needed. -/

namespace MergeRisk.CallGraph

/-- No method reaches itself by one or more calls. -/
def Acyclic (graph : CallGraph) : Prop :=
  ∀ method, ¬ graph.Reaches method method

variable {graph : CallGraph}

theorem Reaches.trans {source middle target : Signature} (toMiddle : graph.Reaches source middle)
    (toTarget : graph.Reaches middle target) : graph.Reaches source target := by
  obtain ⟨count, positive, path⟩ := toMiddle
  obtain ⟨more, _, rest⟩ := toTarget
  exact ⟨count + more, Nat.add_pos_left positive more, path.trans rest⟩

/-- Calls that all lead to a later node make no cycle. -/
theorem acyclic_of_forward
    (forward : ∀ call ∈ graph.calls, graph.position call.caller < graph.position call.callee) :
    graph.Acyclic := by
  have later {source target : Signature} {count : Nat}
      (path : CallPath graph.calls source target count) :
      graph.position source + count ≤ graph.position target := by
    induction path with
    | here => exact Nat.le_refl _
    | @step source middle target count made rest ih =>
      have first : graph.position source < graph.position middle := forward _ made
      omega
  rintro method ⟨count, positive, path⟩
  have behind := later path
  omega

namespace Acyclic

/-- The nodes below a node can be gone down only so far. -/
theorem wellFounded (acyclic : graph.Acyclic) :
    WellFounded fun lower upper : {method // method ∈ graph.nodes} =>
      graph.Reaches upper.1 lower.1 := by
  let Below (lower upper : {method // method ∈ graph.nodes}) : Prop :=
    graph.Reaches upper.1 lower.1
  have transitive : IsTrans _ Below := ⟨fun _ _ _ lower upper => upper.trans lower⟩
  have irreflexive : Std.Irrefl Below := ⟨fun node => acyclic node.1⟩
  exact Finite.wellFounded_of_trans_of_irrefl Below

/-- Of any nodes, one reaches none of them. -/
theorem exists_bottom (acyclic : graph.Acyclic) {member : Signature → Prop}
    (nodes : ∀ method, member method → method ∈ graph.nodes) {method : Signature}
    (some : member method) :
    ∃ bottom, member bottom ∧ ∀ other, member other → ¬ graph.Reaches bottom other := by
  obtain ⟨bottom, isMember, least⟩ := acyclic.wellFounded.has_min
    {node | member node.1} ⟨⟨method, nodes method some⟩, some⟩
  refine ⟨bottom.1, isMember, ?_⟩
  intro other otherMember
  exact least ⟨other, nodes other otherMember⟩ otherMember

variable {first second ancestor : Signature}

theorem exists_isLowest (acyclic : graph.Acyclic)
    (common : graph.CommonAncestor first second ancestor) :
    ∃ lowest, graph.IsLowest first second lowest := by
  obtain ⟨lowest, lowestCommon, alone⟩ :=
    acyclic.exists_bottom (fun _ other => CommonAncestor.node other) common
  exact ⟨lowest, lowestCommon, fun other otherCommon _ => alone other otherCommon⟩

/-- Some shared ancestor reaches no other, so these are the ones chosen from. -/
theorem lowest_ne_nil (acyclic : graph.Acyclic)
    (common : graph.CommonAncestor first second ancestor) :
    (shared (graph.ancestry first) (graph.ancestry second)).filter (fun entry =>
      !reachesOther graph.descent (shared (graph.ancestry first) (graph.ancestry second)) entry.1) ≠
        [] := by
  obtain ⟨lowest, isLowest⟩ := acyclic.exists_isLowest common
  obtain ⟨isCommon, alone⟩ := isLowest_iff.mp isLowest
  obtain ⟨distance, ranked⟩ := isCommon.hasRank
  apply List.ne_nil_of_mem
  exact List.mem_filter.mpr ⟨mem_shared.mpr ranked, by rw [alone]; rfl⟩

end Acyclic

/-- In a graph without cycles two methods with a common ancestor have a lowest common ancestor that
reaches no other one. It is chosen among the shared ancestors that reach no other, of which there is
at least one. -/
theorem lowestCommonAncestor_of_acyclic {graph : CallGraph} (acyclic : graph.Acyclic)
    {first second : Signature} (common : ∃ ancestor, graph.CommonAncestor first second ancestor) :
    (∃ lowest, graph.lowestCommonAncestor first second = some lowest ∧
      graph.IsLowest first second lowest) ∧
    let members := shared (graph.ancestry first) (graph.ancestry second)
    let lowest := members.filter fun entry => !reachesOther graph.descent members entry.1
    lowest ≠ [] ∧ candidates graph.descent members = lowest := by
  obtain ⟨ancestor, isCommon⟩ := common
  constructor
  · have found : graph.lowestCommonAncestor first second ≠ none := by
      intro none
      rcases lowestCommonAncestor_eq_none_iff.mp none with notFirst | notSecond | noAncestor
      · exact notFirst isCommon.toFirst.target_mem
      · exact notSecond isCommon.toSecond.target_mem
      · exact noAncestor ancestor isCommon
    obtain ⟨chosen, isChosen⟩ := Option.ne_none_iff_exists'.mp found
    have best := lowestCommonAncestor_eq_some_iff.mp isChosen
    exact ⟨chosen, isChosen, best.candidate.lowest (acyclic.exists_isLowest isCommon)⟩
  · have nonempty := acyclic.lowest_ne_nil isCommon
    refine ⟨nonempty, ?_⟩
    exact if_neg fun empty => nonempty (List.isEmpty_iff.mp empty)

/-- A method of the class `Studio` for one sheet. -/
def studioMethod (name : String) (identifier : Signature.isIdentifier name = true) : Signature :=
  ⟨"Studio", name, ["Sheet"], by decide, identifier, by decide⟩

def studioUnroll : Signature := studioMethod "unroll" (by decide)

def studioPlan : Signature := studioMethod "plan" (by decide)

def studioInk : Signature := studioMethod "ink" (by decide)

def studioEngrave : Signature := studioMethod "engrave" (by decide)

/-- Unrolling inks and engraves by itself; it also plans, which inks and engraves over two more
methods. So the nearer of the two common ancestors is not the lowest one. -/
def studioGraph : CallGraph :=
  addCalls ∅ [⟨studioUnroll, studioPlan⟩, ⟨studioPlan, studioMethod "trace" (by decide)⟩,
    ⟨studioPlan, studioMethod "carve" (by decide)⟩, ⟨studioUnroll, studioInk⟩,
    ⟨studioUnroll, studioEngrave⟩, ⟨studioMethod "trace" (by decide), studioInk⟩,
    ⟨studioMethod "carve" (by decide), studioEngrave⟩]

theorem lowestCommonAncestor_of_acyclic_studio :
    studioGraph.Acyclic ∧ studioGraph.CommonAncestor studioInk studioEngrave studioUnroll ∧
    studioGraph.lowestCommonAncestor studioInk studioEngrave = some studioPlan ∧
    studioGraph.IsLowest studioInk studioEngrave studioPlan := by
  have acyclic : studioGraph.Acyclic := acyclic_of_forward (by decide)
  have inks : Calls studioGraph.calls studioUnroll studioInk := by
    unfold Calls
    decide
  have engraves : Calls studioGraph.calls studioUnroll studioEngrave := by
    unfold Calls
    decide
  have common : studioGraph.CommonAncestor studioInk studioEngrave studioUnroll :=
    ⟨by decide, ⟨1, Nat.one_pos, .single inks⟩, ⟨1, Nat.one_pos, .single engraves⟩⟩
  have chosen : studioGraph.lowestCommonAncestor studioInk studioEngrave = some studioPlan := by
    decide +kernel
  obtain ⟨lowest, found, isLowest⟩ := (lowestCommonAncestor_of_acyclic acyclic ⟨_, common⟩).1
  rw [chosen, Option.some.injEq] at found
  exact ⟨acyclic, common, chosen, found ▸ isLowest⟩

end MergeRisk.CallGraph
