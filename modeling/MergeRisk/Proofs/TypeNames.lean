import Mathlib.Data.List.Infix
import MergeRisk.Proofs.SignatureNotation
import MergeRisk.TypeName

/-! Type names from paths. A path names a type by its directories and its file without the extension.
A source root is cut off wherever it occurs, also inside a name, so a path keeps all its names exactly
when none of its directories ends in `src`. -/

namespace MergeRisk

theorem Text.eq_of_splitLast?_eq_some {separator : Char} {text before rest : List Char}
    (found : splitLast? separator text = some (before, rest)) :
    text = before ++ separator :: rest := by
  induction text generalizing before with
  | nil => cases found
  | cons c text ih =>
    rw [splitLast?] at found
    cases later : splitLast? separator text with
    | some parts =>
      rw [later] at found
      cases found
      rw [ih later, List.cons_append]
    | none =>
      simp only [later, Option.ite_none_right_eq_some, Option.some.injEq, Prod.mk.injEq] at found
      obtain ⟨rfl, rfl, rfl⟩ := found
      rfl

namespace TypeName

/-! ### The names of a path -/

/-- The names of the directories that a path leads through. -/
def directories (path : List Char) : List (List Char) :=
  (path.splitOn '/').dropLast

def fileName (path : List Char) : List Char :=
  (path.splitOn '/').getLast?.getD []

/-- A file name without its extension, which starts at the last dot. -/
def stem (file : List Char) : List Char :=
  if '.' ∈ file then ['.'].intercalate (file.splitOn '.').dropLast else file

/-- The directories of a path and its file without the extension, with dots between them. -/
def wholeName (path : List Char) : List Char :=
  ['.'].intercalate (directories path ++ [stem (fileName path)])

theorem directories_append (first rest : List Char) :
    directories (first ++ '/' :: rest) = first.splitOn '/' ++ directories rest := by
  rw [directories, List.splitOn_append_cons_self,
    List.dropLast_append_of_ne_nil (List.splitOn_ne_nil '/' rest)]
  rfl

theorem fileName_append (first rest : List Char) :
    fileName (first ++ '/' :: rest) = fileName rest := by
  rw [fileName, List.splitOn_append_cons_self,
    List.getLast?_append_of_ne_nil _ (List.splitOn_ne_nil '/' rest)]
  rfl

/-- The first directory comes first in the name. -/
theorem wholeName_append {directory : List Char} (noSlash : '/' ∉ directory) (rest : List Char) :
    wholeName (directory ++ '/' :: rest) = directory ++ '.' :: wholeName rest := by
  rw [wholeName, directories_append, List.splitOn_eq_singleton noSlash, fileName_append,
    List.cons_append, List.nil_append, List.cons_append, List.intercalate_cons_of_ne_nil (by simp),
    List.append_assoc]
  rfl

theorem wholeName_file {file : List Char} (noSlash : '/' ∉ file) : wholeName file = stem file := by
  rw [wholeName, directories, fileName, List.splitOn_eq_singleton noSlash]
  exact List.intercalate_singleton

/-! ### Extensions -/

theorem stem_append (before : List Char) {extension : List Char} (noDot : '.' ∉ extension) :
    stem (before ++ '.' :: extension) = before := by
  rw [stem, if_pos (by simp), List.splitOn_append_cons_self, List.splitOn_eq_singleton noDot,
    List.dropLast_concat, List.intercalate_splitOn]

theorem withoutExtension_file {file : List Char} (noSlash : '/' ∉ file) :
    withoutExtension file = stem file := by
  unfold withoutExtension
  cases found : Text.splitLast? '.' file with
  | none => exact (if_neg (Text.not_mem_of_splitLast?_eq_none found)).symm
  | some parts =>
    obtain ⟨before, extension⟩ := parts
    have noDot := Text.not_mem_of_splitLast?_eq_some found
    obtain rfl := Text.eq_of_splitLast?_eq_some found
    have inFile : '/' ∉ extension := by
      intro member
      exact noSlash (List.mem_append_right _ (List.mem_cons_of_mem _ member))
    rw [stem_append before noDot]
    simp [inFile]

/-- What follows a slash decides about the extension. -/
theorem withoutExtension_append (first rest : List Char) :
    withoutExtension (first ++ '/' :: rest) = first ++ '/' :: withoutExtension rest := by
  cases inRest : Text.splitLast? '.' rest with
  | some parts =>
    obtain ⟨before, extension⟩ := parts
    have noDot := Text.not_mem_of_splitLast?_eq_some inRest
    have whole : Text.splitLast? '.' (first ++ '/' :: rest) =
        some (first ++ '/' :: before, extension) := by
      rw [Text.eq_of_splitLast?_eq_some inRest, ← List.cons_append, ← List.append_assoc]
      exact Text.splitLast?_append _ noDot
    simp only [withoutExtension, inRest, whole]
    split <;> rfl
  | none =>
    have noDot := Text.not_mem_of_splitLast?_eq_none inRest
    have kept : withoutExtension rest = rest := by rw [withoutExtension, inRest]
    rw [kept]
    cases inFirst : Text.splitLast? '.' first with
    | none =>
      have absent : '.' ∉ first ++ '/' :: rest := by
        simp [Text.not_mem_of_splitLast?_eq_none inFirst, noDot]
      rw [withoutExtension, Text.splitLast?_eq_none absent]
    | some parts =>
      -- The slash belongs to what follows the last dot, which is thus no extension.
      obtain ⟨before, middle⟩ := parts
      have noLater : '.' ∉ middle ++ '/' :: rest := by
        simp [Text.not_mem_of_splitLast?_eq_some inFirst, noDot]
      obtain rfl := Text.eq_of_splitLast?_eq_some inFirst
      rw [List.append_assoc, List.cons_append, withoutExtension,
        Text.splitLast?_append before noLater]
      simp

theorem mem_of_mem_withoutExtension {path : List Char} {c : Char}
    (member : c ∈ withoutExtension path) : c ∈ path := by
  unfold withoutExtension at member
  split at member
  · rename_i before extension found
    split at member
    · exact member
    · rw [Text.eq_of_splitLast?_eq_some found]
      exact List.mem_append_left _ member
  · exact member

/-- Every path is a file, or a directory with a path below it. -/
theorem path_induction {motive : List Char → Prop} (file : ∀ name, '/' ∉ name → motive name)
    (below : ∀ name rest, '/' ∉ name → motive rest → motive (name ++ '/' :: rest))
    (path : List Char) : motive path := by
  induction length : path.length using Nat.strongRecOn generalizing path with
  | ind count ih =>
    by_cases slash : '/' ∈ path
    · obtain ⟨name, rest, rfl, noSlash⟩ := List.eq_append_cons_of_mem slash
      have shorter : rest.length < count := by
        rw [← length, List.length_append, List.length_cons]
        omega
      exact below name rest noSlash (ih rest.length shorter rest rfl)
    · exact file path slash

/-- A path as part of a type name. -/
def dotted (path : List Char) : List Char :=
  path.map fun c => if c = '/' then '.' else c

theorem dotted_of_not_mem {name : List Char} (noSlash : '/' ∉ name) : dotted name = name := by
  have same : dotted name = name.map id := by
    apply List.map_congr_left
    intro c member
    apply if_neg
    rintro rfl
    exact noSlash member
  rw [same, List.map_id]

theorem dotted_append (first rest : List Char) :
    dotted (first ++ '/' :: rest) = dotted first ++ '.' :: dotted rest :=
  List.map_append

/-- A path without its extension is named by its directories and its file. -/
theorem dotted_withoutExtension (path : List Char) :
    dotted (withoutExtension path) = wholeName path := by
  induction path using path_induction with
  | file name noSlash =>
    have kept : '/' ∉ withoutExtension name := fun member =>
      noSlash (mem_of_mem_withoutExtension member)
    rw [dotted_of_not_mem kept, withoutExtension_file noSlash, wholeName_file noSlash]
  | below name rest noSlash ih =>
    rw [withoutExtension_append, dotted_append, ih, dotted_of_not_mem noSlash,
      wholeName_append noSlash]

theorem length_wholeName_append (first rest : List Char) :
    (wholeName (first ++ '/' :: rest)).length = first.length + 1 + (wholeName rest).length := by
  rw [← dotted_withoutExtension, ← dotted_withoutExtension, withoutExtension_append, dotted,
    List.length_map, List.length_append, List.length_cons, dotted, List.length_map]
  omega

theorem ofPath_eq (path : String) :
    ofPath path = String.ofList (wholeName (belowRoot path.toList)) := by
  rw [← dotted_withoutExtension]
  rfl

/-! ### Source roots -/

/-- Every source root is a path below `src` and a directory itself. -/
theorem sourceRoots_shape :
    ∀ root ∈ sourceRoots, "src/".toList <+: root.toList ∧ ['/'] <:+ root.toList := by
  decide

/-- A path is cut after some root that occurs in it, or left whole if none does. -/
theorem belowRoot_cases (path : List Char) :
    (belowRoot path = path ∧ ∀ root ∈ sourceRoots, ¬ root.toList <:+: path) ∨
      ∃ root ∈ sourceRoots, ∃ before, path = before ++ root.toList ++ belowRoot path := by
  unfold belowRoot
  cases found : sourceRoots.findSome? fun root => Text.cut? root.toList path with
  | none =>
    refine .inl ⟨rfl, ?_⟩
    intro root listed occurrence
    have cut := List.findSome?_eq_none_iff.mp found root listed
    have occurs := Text.occurs_iff.mpr occurrence
    rw [Text.occurs, cut] at occurs
    cases occurs
  | some parts =>
    obtain ⟨root, listed, cut⟩ := List.exists_of_findSome?_eq_some found
    exact .inr ⟨root, listed, parts.1, Text.eq_of_cut?_eq_some cut⟩

/-- A name stands before a slash exactly if a directory ends in it. -/
theorem infix_iff_directory {name : List Char} (noSlash : '/' ∉ name) (path : List Char) :
    name ++ ['/'] <:+: path ↔ ∃ directory ∈ directories path, name <:+ directory := by
  constructor
  · rintro ⟨before, after, rfl⟩
    have shape : before ++ (name ++ ['/']) ++ after = (before ++ name) ++ '/' :: after := by simp
    rw [shape, directories_append]
    -- The directory starts after the last slash before the name.
    cases last : Text.splitLast? '/' before with
    | none =>
      have alone : '/' ∉ before ++ name := by
        simp [Text.not_mem_of_splitLast?_eq_none last, noSlash]
      rw [List.splitOn_eq_singleton alone]
      exact ⟨before ++ name, List.mem_cons_self, List.suffix_append before name⟩
    | some parts =>
      obtain ⟨first, second⟩ := parts
      have alone : '/' ∉ second ++ name := by
        simp [Text.not_mem_of_splitLast?_eq_some last, noSlash]
      obtain rfl := Text.eq_of_splitLast?_eq_some last
      rw [List.append_assoc, List.cons_append, List.splitOn_append_cons_self,
        List.splitOn_eq_singleton alone]
      exact ⟨second ++ name, by simp, List.suffix_append second name⟩
  · induction path using path_induction with
    | file file noSlash =>
      rintro ⟨directory, member, _⟩
      rw [directories, List.splitOn_eq_singleton noSlash] at member
      cases member
    | below first rest noSlash ih =>
      rintro ⟨directory, member, before, rfl⟩
      rw [directories_append, List.splitOn_eq_singleton noSlash] at member
      rcases List.mem_cons.mp member with rfl | later
      · exact ⟨before, rest, by simp⟩
      · have inRest := ih ⟨_, later, List.suffix_append before name⟩
        exact inRest.trans ((List.suffix_cons '/' rest).trans (List.suffix_append _ _)).isInfix

/-- What is named after a cut is shorter than the whole name. -/
theorem wholeName_belowRoot_ne {path before : List Char} {root : String} (listed : root ∈ sourceRoots)
    (cut : path = before ++ root.toList ++ belowRoot path) :
    wholeName (belowRoot path) ≠ wholeName path := by
  obtain ⟨_, inner, ends⟩ := sourceRoots_shape root listed
  intro same
  have shape : path = (before ++ inner) ++ '/' :: belowRoot path := by
    rw [← ends] at cut
    simpa using cut
  have lengths := length_wholeName_append (before ++ inner) (belowRoot path)
  rw [← shape, same] at lengths
  omega

/-- A source root stands at the start of a path or right after a slash. -/
def HasRoot (path : List Char) : Prop :=
  ∃ root ∈ sourceRoots, root.toList <+: path ∨ '/' :: root.toList <:+: path

/-- A path has a source root exactly when it leads through a directory `src`. -/
theorem hasRoot_iff (path : List Char) : HasRoot path ↔ "src".toList ∈ directories path := by
  have alone : "src".toList.splitOn '/' = ["src".toList] := by decide
  constructor
  · rintro ⟨root, listed, starts | follows⟩
    · obtain ⟨rest, rfl⟩ := (sourceRoots_shape root listed).1.trans starts
      have shape : "src/".toList ++ rest = "src".toList ++ '/' :: rest := rfl
      rw [shape, directories_append, alone]
      exact List.mem_cons_self
    · obtain ⟨inner, whole⟩ := (sourceRoots_shape root listed).1
      obtain ⟨before, after, rfl⟩ := follows
      have shape : before ++ '/' :: root.toList ++ after =
          before ++ '/' :: ("src".toList ++ '/' :: (inner ++ after)) := by
        rw [← whole]
        simp
      rw [shape, directories_append, directories_append, alone]
      simp
  · induction path using path_induction with
    | file file noSlash =>
      intro member
      rw [directories, List.splitOn_eq_singleton noSlash] at member
      cases member
    | below first rest noSlash ih =>
      intro member
      rw [directories_append, List.splitOn_eq_singleton noSlash] at member
      rcases List.mem_cons.mp member with rfl | later
      · exact ⟨"src/", by decide, .inl ⟨rest, rfl⟩⟩
      · obtain ⟨root, listed, starts | follows⟩ := ih later
        · obtain ⟨after, rfl⟩ := starts
          exact ⟨root, listed, .inr ⟨first, after, by simp⟩⟩
        · refine ⟨root, listed, .inr (follows.trans ?_)⟩
          exact ((List.suffix_cons '/' rest).trans (List.suffix_append _ _)).isInfix

/-- A path is named by all its directories and its file exactly when none of its directories ends in
`src`; that none is a source root only means that none is `src` itself. -/
theorem ofPath_eq_wholeName_iff (path : String) :
    (ofPath path = String.ofList (wholeName path.toList) ↔
      ∀ directory ∈ directories path.toList, ¬ "src".toList <:+ directory) ∧
    (¬ HasRoot path.toList ↔ ∀ directory ∈ directories path.toList, directory ≠ "src".toList) := by
  have noSlash : '/' ∉ "src".toList := by decide
  have occurs := infix_iff_directory noSlash path.toList
  constructor
  · rw [ofPath_eq, ← String.toList_inj, String.toList_ofList, String.toList_ofList]
    rcases belowRoot_cases path.toList with ⟨whole, absent⟩ | ⟨root, listed, before, cut⟩
    · rw [whole]
      refine ⟨fun _ => ?_, fun _ => rfl⟩
      intro directory member ending
      exact absent "src/" (by decide) (occurs.mpr ⟨directory, member, ending⟩)
    · have occurrence : "src/".toList <:+: path.toList := by
        apply (sourceRoots_shape root listed).1.isInfix.trans
        exact ⟨before, belowRoot path.toList, cut.symm⟩
      obtain ⟨directory, member, ending⟩ := occurs.mp occurrence
      constructor
      · intro same
        exact absurd same (wholeName_belowRoot_ne listed cut)
      · intro none
        exact absurd ending (none directory member)
  · rw [hasRoot_iff]
    constructor
    · rintro absent directory member rfl
      exact absent member
    · intro differs member
      exact differs _ member rfl

/-- A directory that only ends like a source root is cut. -/
theorem ofPath_cuts_directory :
    ¬ ∀ path : String, ¬ HasRoot path.toList → ofPath path = String.ofList (wholeName path.toList) := by
  intro whole
  have rootless : ¬ HasRoot "mysrc/Cart.java".toList := by
    rw [hasRoot_iff]
    decide
  have named := whole "mysrc/Cart.java" rootless
  revert named
  decide

end TypeName

end MergeRisk
