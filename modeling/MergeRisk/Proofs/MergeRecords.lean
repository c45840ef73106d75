import Mathlib.Data.List.Forall2
import MergeRisk.Proofs.HistoryAnalysis

/-! The records of a merge, for any history, and the lookups that they hang on. The lookups that a
merge needs stand in one list, in the order in which they are made: the records fail with the first
of these that fails, and no other lookup has a say. -/

namespace MergeRisk

/-- A question to a history. -/
inductive Lookup where
  | changedFiles (old new : String)
  | changedMethods (path old new : String)
  | typeName (path revision : String)

/-- The failure of an answer. -/
def failureOf {α : Type} : Except Failure α → Option Failure
  | .ok _ => none
  | .error failure => some failure

theorem failureOf_eq_some_iff {α : Type} {answer : Except Failure α} {failure : Failure} :
    failureOf answer = some failure ↔ answer = .error failure := by
  cases answer with
  | ok value => simp [failureOf]
  | error other => simp [failureOf]

theorem failureOf_eq_none_iff {α : Type} {answer : Except Failure α} :
    failureOf answer = none ↔ ∃ value, answer = .ok value := by
  cases answer with
  | ok value => simp [failureOf]
  | error other => simp [failureOf]

/-- What an answer holds, where no answer holds nothing. -/
theorem mem_toOption_getD {α κ : Type} [Ord κ] {key : α → κ}
    {answer : Except Failure (OrderedBy key)} {element : α} :
    element ∈ answer.toOption.getD ∅ ↔
      ∃ elements, answer = .ok elements ∧ element ∈ elements := by
  cases answer with
  | error failure => simp [Except.toOption, OrderedBy.mem_iff]
  | ok elements => simp [Except.toOption]

namespace History

def failure? (history : History) : Lookup → Option Failure
  | .changedFiles old new => failureOf (history.changedFiles old new)
  | .changedMethods path old new => failureOf (history.changedMethods path old new)
  | .typeName path revision => failureOf (history.typeName path revision)

/-- Two histories answer a lookup alike. -/
def Alike (first second : History) : Lookup → Prop
  | .changedFiles old new => first.changedFiles old new = second.changedFiles old new
  | .changedMethods path old new =>
    first.changedMethods path old new = second.changedMethods path old new
  | .typeName path revision => first.typeName path revision = second.typeName path revision

/-- The answers of a history; a lookup that fails is taken to find nothing. -/
def answers (history : History) : Answers where
  changedFiles old new := (history.changedFiles old new).toOption.getD ∅
  changedMethods path old new := (history.changedMethods path old new).toOption.getD ∅
  typeName path revision := (history.typeName path revision).toOption.getD ""

end History

/-- Two sets of methods have a signature in common. -/
def MethodSet.Meet (left right : MethodSet) : Prop :=
  ∃ signature ∈ left.keys, signature ∈ right.keys

instance (left right : MethodSet) : Decidable (left.Meet right) :=
  inferInstanceAs (Decidable (∃ signature ∈ left.keys, signature ∈ right.keys))

namespace Answers

/-- The lookups about a file that both parents changed: the methods that each of them changed and,
if these meet, the type and the methods that the merge changed. -/
def lookupsOfFile (answers : Answers) (commit : MergeCommit) (path : String) : List Lookup :=
  [.changedMethods path commit.ancestor commit.left,
    .changedMethods path commit.ancestor commit.right] ++
  if MethodSet.Meet (answers.changedMethods path commit.ancestor commit.left)
      (answers.changedMethods path commit.ancestor commit.right) then
    [.typeName path commit.ancestor, .changedMethods path commit.ancestor commit.merge]
  else []

/-- The lookups about a merge: the files that each parent changed, then file by file. -/
def lookups (answers : Answers) (commit : MergeCommit) : List Lookup :=
  [.changedFiles commit.ancestor commit.left, .changedFiles commit.ancestor commit.right] ++
    (answers.sharedPaths commit).flatMap (answers.lookupsOfFile commit)

end Answers

/-! ### What hangs on lookups -/

/-- What is derived from a history hangs on the listed lookups: it fails with the first of them that
fails, and comes out the same for a history that answers them alike. -/
structure History.HangsOn {α : Type} (history : History) (derive : History → Except Failure α)
    (lookups : List Lookup) : Prop where
  failure : failureOf (derive history) = lookups.findSome? history.failure?
  congr : ∀ other : History, (∀ lookup ∈ lookups, other.Alike history lookup) →
    derive other = derive history

namespace History.HangsOn
variable {history : History} {α β : Type}

theorem changedFiles (old new : String) :
    history.HangsOn (·.changedFiles old new) [.changedFiles old new] where
  failure := by simp [failure?]
  congr other alike := alike _ List.mem_cons_self

theorem changedMethods (path old new : String) :
    history.HangsOn (·.changedMethods path old new) [.changedMethods path old new] where
  failure := by simp [failure?]
  congr other alike := alike _ List.mem_cons_self

theorem typeName (path revision : String) :
    history.HangsOn (·.typeName path revision) [.typeName path revision] where
  failure := by simp [failure?]
  congr other alike := alike _ List.mem_cons_self

theorem pure (value : α) : history.HangsOn (fun _ => .ok value) [] where
  failure := rfl
  congr _ _ := rfl

/-- The later lookups may hang on what the first ones answered. -/
theorem bind {derive : History → Except Failure α} {next : α → History → Except Failure β}
    {lookups later : List Lookup} (first : history.HangsOn derive lookups)
    (second : ∀ value, derive history = .ok value → history.HangsOn (next value) later) :
    history.HangsOn (fun asked => derive asked >>= fun value => next value asked)
      (lookups ++ later) where
  failure := by
    rw [List.findSome?_append, ← first.failure]
    cases derived : derive history with
    | error failure => rfl
    | ok value => exact (second value derived).failure
  congr other alike := by
    rw [first.congr other fun lookup asked => alike lookup (List.mem_append_left _ asked)]
    cases derived : derive history with
    | error failure => rfl
    | ok value =>
      exact (second value derived).congr other
        fun lookup asked => alike lookup (List.mem_append_right _ asked)

theorem mapM {items : List α} {derive : α → History → Except Failure β}
    {lookups : α → List Lookup}
    (each : ∀ item ∈ items, history.HangsOn (derive item) (lookups item)) :
    history.HangsOn (fun asked => items.mapM fun item => derive item asked)
      (items.flatMap lookups) := by
  induction items with
  | nil => exact pure []
  | cons item items ih =>
    obtain ⟨first, later⟩ := List.forall_mem_cons.mp each
    simp only [List.mapM_cons, List.flatMap_cons]
    rw [← List.append_nil (items.flatMap lookups)]
    exact first.bind fun value _ => (ih later).bind fun values _ => pure (value :: values)

end History.HangsOn

/-! ### The lookups of a merge -/

theorem isEmpty_mutualVersions {left right : MethodSet} :
    (mutualVersions left right).isEmpty = true ↔ ¬ left.Meet right := by
  rw [List.isEmpty_iff, List.eq_nil_iff_forall_not_mem]
  constructor
  · rintro none ⟨signature, inLeft, inRight⟩
    obtain ⟨method, member, rfl⟩ := List.mem_map.mp inLeft
    obtain ⟨other, found, same⟩ := List.mem_map.mp inRight
    exact none ⟨method, other⟩
      (mem_mutualVersions.mpr ⟨member, OrderedBy.find?_eq_some_iff.mpr ⟨found, same⟩⟩)
  · intro apart versions member
    obtain ⟨inLeft, found⟩ := mem_mutualVersions.mp member
    exact apart ⟨versions.left.signature, List.mem_map_of_mem inLeft,
      OrderedBy.mem_keys_of_find? found⟩

namespace History
variable {history : History} {commit : MergeCommit}

theorem hangsOn_mutualMethods (path : String) :
    history.HangsOn (·.mutualMethods commit path)
      [.changedMethods path commit.ancestor commit.left,
        .changedMethods path commit.ancestor commit.right] :=
  (HangsOn.changedMethods path commit.ancestor commit.left).bind fun _ _ =>
    (HangsOn.changedMethods path commit.ancestor commit.right).bind fun _ _ => .pure _

theorem isEmpty_of_mutualMethods {path : String} {versions : List MutualVersions}
    (found : history.mutualMethods commit path = .ok versions) :
    versions.isEmpty = true ↔
      ¬ MethodSet.Meet (history.answers.changedMethods path commit.ancestor commit.left)
        (history.answers.changedMethods path commit.ancestor commit.right) := by
  unfold mutualMethods at found
  cases ofLeft : history.changedMethods path commit.ancestor commit.left with
  | error failure => rw [ofLeft] at found; cases found
  | ok left =>
    cases ofRight : history.changedMethods path commit.ancestor commit.right with
    | error failure => rw [ofLeft, ofRight] at found; cases found
    | ok right =>
      rw [ofLeft, ofRight] at found
      cases found
      simp only [answers, ofLeft, ofRight, Except.toOption, Option.getD_some]
      exact isEmpty_mutualVersions

theorem hangsOn_fileRecords (project : Project) (path : String) :
    history.HangsOn (·.fileRecords project commit path)
      (history.answers.lookupsOfFile commit path) := by
  apply (hangsOn_mutualMethods path).bind
  intro versions found
  have empty := isEmpty_of_mutualMethods found
  split
  · rename_i none
    rw [if_neg (empty.mp none)]
    exact .pure []
  · rename_i nonempty
    have meeting := not_not.mp fun apart => nonempty (empty.mpr apart)
    rw [if_pos meeting]
    exact (HangsOn.typeName path commit.ancestor).bind fun _ _ =>
      (HangsOn.changedMethods path commit.ancestor commit.merge).bind fun _ _ => .pure _

theorem hangsOn_filesOfBoth :
    history.HangsOn (·.filesOfBoth commit)
      [.changedFiles commit.ancestor commit.left, .changedFiles commit.ancestor commit.right] :=
  (HangsOn.changedFiles commit.ancestor commit.left).bind fun _ _ =>
    (HangsOn.changedFiles commit.ancestor commit.right).bind fun _ _ => .pure _

theorem toList_of_filesOfBoth {files : SortedSet String}
    (found : history.filesOfBoth commit = .ok files) :
    files.toList = history.answers.sharedPaths commit := by
  unfold filesOfBoth at found
  cases ofLeft : history.changedFiles commit.ancestor commit.left with
  | error failure => rw [ofLeft] at found; cases found
  | ok left =>
    cases ofRight : history.changedFiles commit.ancestor commit.right with
    | error failure => rw [ofLeft, ofRight] at found; cases found
    | ok right =>
      rw [ofLeft, ofRight] at found
      cases found
      simp only [Answers.sharedPaths, answers, ofLeft, ofRight, Except.toOption, Option.getD_some]
      exact SortedSet.toList_inter left right

theorem hangsOn_records (project : Project) :
    history.HangsOn (·.records project commit) (history.answers.lookups commit) := by
  apply hangsOn_filesOfBoth.bind
  intro files found
  -- What follows hangs on the files that were found, and these are the paths that the answers share.
  rw [← toList_of_filesOfBoth found, ← List.append_nil (files.toList.flatMap _)]
  exact (HangsOn.mapM fun path _ => hangsOn_fileRecords project path).bind fun _ _ => .pure _

/-- A lookup that does not fail is answered by the answers. -/
theorem alike_answers {lookup : Lookup} (answered : history.failure? lookup = none) :
    history.answers.history.Alike history lookup := by
  cases lookup with
  | changedFiles old new =>
    obtain ⟨files, found⟩ := failureOf_eq_none_iff.mp answered
    simp [Alike, Answers.history, answers, found, Except.toOption]
  | changedMethods path old new =>
    obtain ⟨methods, found⟩ := failureOf_eq_none_iff.mp answered
    simp [Alike, Answers.history, answers, found, Except.toOption]
  | typeName path revision =>
    obtain ⟨name, found⟩ := failureOf_eq_none_iff.mp answered
    simp [Alike, Answers.history, answers, found, Except.toOption]

theorem records_of_answered {project : Project}
    (answered : ∀ lookup ∈ history.answers.lookups commit, history.failure? lookup = none) :
    history.records project commit = .ok (((history.answers.sharedPaths commit).flatMap
      (history.answers.mutualMethods commit)).map (·.record project commit)) := by
  rw [← history.answers.gives.records project commit]
  exact ((hangsOn_records project).congr _
    fun lookup asked => alike_answers (answered lookup asked)).symm

end History

/-! ### The methods that are recorded -/

/-- By path, then by signature. -/
def Precedes (first second : String × Signature) : Prop :=
  compare first.1 second.1 = .lt ∨ first.1 = second.1 ∧ compare first.2 second.2 = .lt

namespace Answers
variable {answers : Answers} {commit : MergeCommit}

/-- The methods of a merge that are recorded, each with the path of its file. -/
def placed (answers : Answers) (commit : MergeCommit) : List (String × MutualMethod) :=
  (answers.sharedPaths commit).flatMap fun path =>
    (answers.mutualMethods commit path).map fun method => (path, method)

theorem mem_sharedPaths {path : String} :
    path ∈ answers.sharedPaths commit ↔ path ∈ answers.changedFiles commit.ancestor commit.left ∧
      path ∈ answers.changedFiles commit.ancestor commit.right := by
  rw [sharedPaths, List.mem_filter, decide_eq_true_iff]
  rfl

theorem mem_mutualMethods {path : String} {method : MutualMethod} :
    method ∈ answers.mutualMethods commit path ↔
      method.className = answers.typeName path commit.ancestor ∧
      (answers.changedMethods path commit.ancestor commit.merge).find? method.merged.signature =
        some method.merged ∧
      (answers.changedMethods path commit.ancestor commit.left).find? method.merged.signature =
        some method.left ∧
      (answers.changedMethods path commit.ancestor commit.right).find? method.merged.signature =
        some method.right := by
  simp only [mutualMethods, List.mem_filterMap, bind, pure, Option.bind_eq_some_iff,
    Option.some.injEq]
  constructor
  · rintro ⟨merged, member, left, ofLeft, right, ofRight, rfl⟩
    exact ⟨rfl, OrderedBy.find?_eq_some_iff.mpr ⟨member, rfl⟩, ofLeft, ofRight⟩
  · rintro ⟨named, inMerge, ofLeft, ofRight⟩
    have member := (OrderedBy.find?_eq_some_iff.mp inMerge).1
    refine ⟨method.merged, member, method.left, ofLeft, method.right, ofRight, ?_⟩
    rw [← named]

theorem mem_placed {path : String} {method : MutualMethod} :
    (path, method) ∈ answers.placed commit ↔
      path ∈ answers.sharedPaths commit ∧ method ∈ answers.mutualMethods commit path := by
  simp [placed]

theorem map_placed : (answers.placed commit).map (·.2) =
    (answers.sharedPaths commit).flatMap (answers.mutualMethods commit) := by
  simp [placed, List.map_flatMap, Function.comp_def]

/-- Paths are listed in their order, and the methods of a path in the order of the merge's. -/
theorem placed_ascending :
    ((answers.placed commit).map fun place => (place.1, place.2.merged.signature)).Pairwise
      Precedes := by
  rw [placed, List.map_flatMap, List.pairwise_flatMap]
  constructor
  · intro path _
    rw [List.map_map, List.pairwise_map, mutualMethods, List.pairwise_filterMap]
    apply (answers.changedMethods path commit.ancestor commit.merge).ascending.imp
    intro first second smaller method fromFirst other fromSecond
    simp only [bind, pure, Option.bind_eq_some_iff, Option.some.injEq] at fromFirst fromSecond
    obtain ⟨_, _, _, _, rfl⟩ := fromFirst
    obtain ⟨_, _, _, _, rfl⟩ := fromSecond
    exact .inr ⟨rfl, smaller⟩
  · apply ((answers.changedFiles commit.ancestor commit.left).ascending.filter _).imp
    intro first second smaller place inFirst other inSecond
    simp only [List.map_map, List.mem_map] at inFirst inSecond
    obtain ⟨_, _, rfl⟩ := inFirst
    obtain ⟨_, _, rfl⟩ := inSecond
    exact .inl smaller

end Answers

namespace History
variable {history : History} {commit : MergeCommit}

/-- A file changed between two revisions. -/
def ChangesFile (history : History) (old new path : String) : Prop :=
  ∃ files, history.changedFiles old new = .ok files ∧ path ∈ files

/-- The version of a method in a file, among those changed between two revisions. -/
def HasVersion (history : History) (path old new : String) (signature : Signature)
    (version : ChangedMethod) : Prop :=
  ∃ methods, history.changedMethods path old new = .ok methods ∧
    version ∈ methods ∧ version.signature = signature

theorem HasVersion.signature_eq {path old new : String} {signature : Signature}
    {version : ChangedMethod} (changed : history.HasVersion path old new signature version) :
    version.signature = signature := by
  obtain ⟨_, _, _, same⟩ := changed
  exact same

/-- A file that both parents changed, and a method that both parents and the merge changed in it. -/
structure Mutual (history : History) (commit : MergeCommit) (path : String)
    (signature : Signature) : Prop where
  leftFile : history.ChangesFile commit.ancestor commit.left path
  rightFile : history.ChangesFile commit.ancestor commit.right path
  left : ∃ version, history.HasVersion path commit.ancestor commit.left signature version
  right : ∃ version, history.HasVersion path commit.ancestor commit.right signature version
  merge : ∃ version, history.HasVersion path commit.ancestor commit.merge signature version

/-- The record of a method in a file: the type of the file, and the attribution of the merge's
version to the versions of the parents in the same file. -/
def RecordedAs (history : History) (project : Project) (commit : MergeCommit) (path : String)
    (signature : Signature) (record : MethodRecord) : Prop :=
  ∃ className merged left right,
    history.typeName path commit.ancestor = .ok className ∧
    history.HasVersion path commit.ancestor commit.merge signature merged ∧
    history.HasVersion path commit.ancestor commit.left signature left ∧
    history.HasVersion path commit.ancestor commit.right signature right ∧
    record = ⟨project, commit, className, signature, .ofVersions merged left right⟩

theorem mem_answers_changedFiles {old new path : String} :
    path ∈ history.answers.changedFiles old new ↔ history.ChangesFile old new path :=
  mem_toOption_getD

theorem find?_answers_changedMethods {path old new : String} {signature : Signature}
    {version : ChangedMethod} :
    (history.answers.changedMethods path old new).find? signature = some version ↔
      history.HasVersion path old new signature version := by
  rw [OrderedBy.find?_eq_some_iff, answers, mem_toOption_getD]
  constructor
  · rintro ⟨⟨methods, found, member⟩, same⟩
    exact ⟨methods, found, member, same⟩
  · rintro ⟨methods, found, member, same⟩
    exact ⟨⟨methods, found, member⟩, same⟩

theorem mutual_iff {path : String} {signature : Signature} :
    history.Mutual commit path signature ↔
      ∃ method, (path, method) ∈ history.answers.placed commit ∧
        method.merged.signature = signature := by
  simp only [Answers.mem_placed, Answers.mem_sharedPaths, Answers.mem_mutualMethods,
    mem_answers_changedFiles, find?_answers_changedMethods]
  constructor
  · rintro ⟨leftFile, rightFile, ⟨left, ofLeft⟩, ⟨right, ofRight⟩, ⟨merged, ofMerge⟩⟩
    obtain rfl := ofMerge.signature_eq
    exact ⟨⟨_, merged, left, right⟩, ⟨⟨leftFile, rightFile⟩, rfl, ofMerge, ofLeft, ofRight⟩, rfl⟩
  · rintro ⟨method, ⟨⟨leftFile, rightFile⟩, _, ofMerge, ofLeft, ofRight⟩, rfl⟩
    exact ⟨leftFile, rightFile, ⟨_, ofLeft⟩, ⟨_, ofRight⟩, ⟨_, ofMerge⟩⟩

/-- Where every lookup that is needed succeeds, a listed method has its record. -/
theorem records_placed
    (answered : ∀ lookup ∈ history.answers.lookups commit, history.failure? lookup = none)
    {project : Project} {path : String} {method : MutualMethod}
    (listed : (path, method) ∈ history.answers.placed commit) :
    history.RecordedAs project commit path method.merged.signature
      (method.record project commit) := by
  obtain ⟨shared, member⟩ := Answers.mem_placed.mp listed
  obtain ⟨named, inMerge, inLeft, inRight⟩ := Answers.mem_mutualMethods.mp member
  have meeting : MethodSet.Meet (history.answers.changedMethods path commit.ancestor commit.left)
      (history.answers.changedMethods path commit.ancestor commit.right) :=
    ⟨_, OrderedBy.mem_keys_of_find? inLeft, OrderedBy.mem_keys_of_find? inRight⟩
  have asked : .typeName path commit.ancestor ∈ history.answers.lookups commit := by
    apply List.mem_append_right
    refine List.mem_flatMap.mpr ⟨path, shared, ?_⟩
    rw [Answers.lookupsOfFile, if_pos meeting]
    simp
  have told : history.typeName path commit.ancestor = .ok method.className := by
    rw [named]
    exact (alike_answers (answered _ asked)).symm
  exact ⟨method.className, method.merged, method.left, method.right, told,
    find?_answers_changedMethods.mp inMerge, find?_answers_changedMethods.mp inLeft,
    find?_answers_changedMethods.mp inRight, rfl⟩

/-- The records of a merge, whatever lookups of its history fail. Where the needed lookups succeed
there is one record for each method of a file that both parents and the merge changed, by path and
signature; else the failure is that of the first needed lookup that fails. A history that answers the
needed lookups alike gives the same. -/
theorem records_exact (history : History) (project : Project) (commit : MergeCommit) :
    ((∀ lookup ∈ history.answers.lookups commit, history.failure? lookup = none) →
      ∃ places records, history.records project commit = .ok records ∧ places.Pairwise Precedes ∧
        (∀ path signature, (path, signature) ∈ places ↔ history.Mutual commit path signature) ∧
        List.Forall₂ (fun place => history.RecordedAs project commit place.1 place.2)
          places records) ∧
    (∀ failure, history.records project commit = .error failure ↔
      (history.answers.lookups commit).findSome? history.failure? = some failure) ∧
    ∀ other : History, (∀ lookup ∈ history.answers.lookups commit, other.Alike history lookup) →
      other.records project commit = history.records project commit := by
  refine ⟨?_, ?_, (hangsOn_records project).congr⟩
  · intro answered
    refine ⟨(history.answers.placed commit).map fun place => (place.1, place.2.merged.signature),
      (history.answers.placed commit).map (·.2.record project commit), ?_,
      Answers.placed_ascending, ?_, ?_⟩
    · rw [records_of_answered answered, ← Answers.map_placed, List.map_map]
      rfl
    · intro path signature
      rw [mutual_iff, List.mem_map]
      simp only [Prod.exists, Prod.mk.injEq]
      constructor
      · rintro ⟨_, method, listed, rfl, same⟩
        exact ⟨method, listed, same⟩
      · rintro ⟨method, listed, same⟩
        exact ⟨path, method, listed, rfl, same⟩
    · rw [List.forall₂_map_left_iff, List.forall₂_map_right_iff, List.forall₂_same]
      exact fun place listed => records_placed answered listed
  · intro failure
    rw [← failureOf_eq_some_iff, (hangsOn_records project).failure]

/-- A crane, whose methods take what it moves. -/
def craneMethod (name : String) (identifier : Signature.isIdentifier name = true) : Signature :=
  ⟨"Crane", name, ["Load"], by decide, identifier, by decide⟩

/-- Both parents changed `lift` in the first file, and each its own method in the second. The type of
the second file is not known, nor what the merge changed in it. -/
def harbour : History where
  changedFiles _ _ := .ok (.ofList ["b", "a"])
  changedMethods path _ new :=
    if path = "a" then
      .ok (.ofList [⟨craneMethod "lift" (by decide), .ofList [.removed 5, .added 2]⟩])
    else if new = "left" then .ok (.ofList [⟨craneMethod "lower" (by decide), .ofList [.added 9]⟩])
    else if new = "right" then .ok (.ofList [⟨craneMethod "turn" (by decide), .ofList [.added 9]⟩])
    else .error (.repository "no merge")
  typeName path _ := if path = "a" then .ok "Crane" else .error (.repository "no type")

/-- The same without the type of any file. -/
def namelessHarbour : History :=
  { harbour with typeName := fun path _ => .error (.fileNotFound path) }

theorem records_exact_harbour :
    (∀ lookup ∈ harbour.answers.lookups twoFilesMerge, harbour.failure? lookup = none) ∧
    harbour.failure? (.typeName "b" "base") = some (.repository "no type") ∧
    (∃ places records,
      harbour.records ⟨"harbour", none⟩ twoFilesMerge = .ok records ∧ places.Pairwise Precedes ∧
        (∀ path signature, (path, signature) ∈ places ↔
          harbour.Mutual twoFilesMerge path signature) ∧
        List.Forall₂
          (fun place => harbour.RecordedAs ⟨"harbour", none⟩ twoFilesMerge place.1 place.2)
          places records) ∧
    namelessHarbour.records ⟨"harbour", none⟩ twoFilesMerge = .error (.fileNotFound "a") := by
  have answered : ∀ lookup ∈ harbour.answers.lookups twoFilesMerge,
      harbour.failure? lookup = none := by decide +kernel
  have failing : (namelessHarbour.answers.lookups twoFilesMerge).findSome?
      namelessHarbour.failure? = some (.fileNotFound "a") := by decide +kernel
  refine ⟨answered, by decide, ?_, ?_⟩
  · exact (records_exact harbour ⟨"harbour", none⟩ twoFilesMerge).1 answered
  · exact ((records_exact namelessHarbour ⟨"harbour", none⟩ twoFilesMerge).2.1 _).mpr failing

end History

end MergeRisk
