import Mathlib.Data.List.DropRight
import MergeRisk.Proofs.DiffReading
import MergeRisk.Proofs.Utf8
import MergeRisk.Repository.Mining

/-! Paths in the header lines of diffs. A path with a character that is not plain is shown in quotes and
with escapes. Reading takes off the quotes and leaves the escapes, so of all paths exactly the plain
ones are read back, and found. -/

namespace MergeRisk.Repository

open Diff (SpellsHeader WrittenDiff WrittenFile WrittenHunk ofLines_lines read_terminated)

/-! ### Escapes -/

/-- The characters that a header line shows as they are: those of printable ASCII but for the quote and
the backslash. -/
def isPlain (c : Char) : Bool :=
  0x20 ≤ c.toNat && c.toNat ≤ 0x7E && c != '"' && c != '\\'

/-- What stands for a character between quotes. -/
def escaped (c : Char) : List Char :=
  (String.utf8EncodeChar c).flatMap quotedByte

theorem isPlainByte_ofNat {code : Nat} (isByte : code < 256) : isPlainByte (.ofNat code) =
    (0x20 ≤ code && code ≤ 0x7E && code != 0x22 && code != 0x5C) := by
  have each : ∀ code < 256, isPlainByte (.ofNat code) =
      (0x20 ≤ code && code ≤ 0x7E && code != 0x22 && code != 0x5C) := by decide +kernel
  exact each code isByte

/-- A byte is shown as itself or with a backslash, and never with a tab. -/
theorem mem_quotedByte (byte : UInt8) :
    (isPlainByte byte = false → '\\' ∈ quotedByte byte) ∧ '\t' ∉ quotedByte byte := by
  have each : ∀ code < 256, (isPlainByte (.ofNat code) = false → '\\' ∈ quotedByte (.ofNat code)) ∧
      '\t' ∉ quotedByte (.ofNat code) := by decide +kernel
  have checked := each byte.toNat byte.toNat_lt_size
  rwa [UInt8.ofNat_toNat] at checked

theorem utf8EncodeChar_ascii {c : Char} (ascii : c.toNat ≤ 0x7F) :
    String.utf8EncodeChar c = [.ofNat c.toNat] := by
  have one : c.val.toNat ≤ 127 := ascii
  rw [String.utf8EncodeChar, if_pos one]
  rfl

/-- A character outside ASCII starts with a byte outside ASCII. -/
theorem utf8EncodeChar_above {c : Char} (above : 0x7F < c.toNat) :
    ∃ first rest, String.utf8EncodeChar c = .ofNat first :: rest ∧ 0x80 ≤ first ∧ first < 256 := by
  have notOne : ¬ c.val.toNat ≤ 127 := Nat.not_le_of_lt above
  simp only [String.utf8EncodeChar, if_neg notOne]
  split
  · exact ⟨_, _, rfl, by omega, by omega⟩
  · split
    · exact ⟨_, _, rfl, by omega, by omega⟩
    · exact ⟨_, _, rfl, by omega, by omega⟩

theorem isPlain_eq (c : Char) : isPlain c =
    (0x20 ≤ c.toNat && c.toNat ≤ 0x7E && c.toNat != 0x22 && c.toNat != 0x5C) := by
  have ne (d : Char) : (c != d) = (c.toNat != d.toNat) := by
    rw [Bool.eq_iff_iff, bne_iff_ne, bne_iff_ne, ne_eq, ne_eq, ← Char.toNat_inj]
  rw [isPlain, ne, ne]
  rfl

theorem all_isPlainByte (c : Char) : (String.utf8EncodeChar c).all isPlainByte = isPlain c := by
  by_cases ascii : c.toNat ≤ 0x7F
  · rw [utf8EncodeChar_ascii ascii, List.all_cons, List.all_nil, Bool.and_true,
      isPlainByte_ofNat (by omega), isPlain_eq]
  · obtain ⟨first, rest, bytes, least, most⟩ := utf8EncodeChar_above (Nat.lt_of_not_le ascii)
    have special : isPlainByte (.ofNat first) = false := by
      rw [isPlainByte_ofNat most]
      have large : ¬ first ≤ 0x7E := by omega
      simp [large]
    have large : ¬ c.toNat ≤ 0x7E := by omega
    rw [bytes, List.all_cons, special, Bool.false_and, isPlain_eq]
    simp [large]

theorem escaped_of_isPlain {c : Char} (plain : isPlain c = true) : escaped c = [c] := by
  have ascii : c.toNat ≤ 0x7F := by
    simp only [isPlain, Bool.and_eq_true, decide_eq_true_eq] at plain
    omega
  have byte : (UInt8.ofNat c.toNat).toNat = c.toNat :=
    UInt8.toNat_ofNat_of_lt' (Nat.lt_of_le_of_lt ascii (by decide))
  have plainByte : isPlainByte (.ofNat c.toNat) = true := by
    rw [isPlainByte_ofNat (by omega), ← isPlain_eq, plain]
  rw [escaped, utf8EncodeChar_ascii ascii, List.flatMap_cons, List.flatMap_nil, List.append_nil,
    beq_iff_eq.mp plainByte, byte, Char.ofNat_toNat]

theorem mem_escaped {c : Char} (special : isPlain c = false) : '\\' ∈ escaped c := by
  rw [← all_isPlainByte, List.all_eq_false] at special
  obtain ⟨byte, member, notPlain⟩ := special
  rw [Bool.not_eq_true] at notPlain
  exact List.mem_flatMap.mpr ⟨byte, member, (mem_quotedByte byte).1 notPlain⟩

/-- A character that is not plain gains a backslash. -/
theorem count_escaped (c : Char) :
    [c].count '\\' + [c].countP (!isPlain ·) ≤ (escaped c).count '\\' := by
  cases plain : isPlain c with
  | true => simp [escaped_of_isPlain plain, plain]
  | false =>
    have gained := List.count_pos_iff.mpr (mem_escaped plain)
    by_cases backslash : c = '\\'
    · subst backslash
      decide
    · have absent : [c].count '\\' = 0 := List.count_eq_zero.mpr (by simpa using Ne.symm backslash)
      have special : [c].countP (!isPlain ·) = 1 := by simp [plain]
      omega

theorem count_flatMap_escaped (text : List Char) :
    text.count '\\' + text.countP (!isPlain ·) ≤ (text.flatMap escaped).count '\\' := by
  induction text with
  | nil => exact Nat.le_refl 0
  | cons c text ih =>
    have first := count_escaped c
    rw [List.flatMap_cons, List.count_append, ← List.singleton_append, List.count_append,
      List.countP_append]
    omega

/-- Whether all characters of a path are plain. -/
def isPlainPath (path : String) : Bool :=
  path.toList.all isPlain

theorem quotedPath_eq (path : String) : quotedPath path =
    if isPlainPath path then path
    else String.ofList ('"' :: path.toList.flatMap escaped ++ ['"']) := by
  simp only [quotedPath, Text.encode_eq, List.all_flatMap, all_isPlainByte, List.flatMap_assoc]
  rfl

/-- The directory of the new side is plain. -/
theorem isPlainPath_new (path : String) : isPlainPath ("b/" ++ path) = isPlainPath path := by
  rw [isPlainPath, String.toList_append, List.all_append]
  rfl

/-! ### Reading -/

theorem tab_not_mem_escaped (text : List Char) : '\t' ∉ text.flatMap escaped := by
  intro member
  obtain ⟨c, _, inEscape⟩ := List.mem_flatMap.mp member
  obtain ⟨byte, _, inByte⟩ := List.mem_flatMap.mp inEscape
  exact (mem_quotedByte byte).2 inByte

theorem count_rdropWhile (text : List Char) :
    (text.rdropWhile (· == '"')).count '\\' = text.count '\\' := by
  induction text using List.reverseRecOn with
  | nil => rfl
  | append_singleton text c ih =>
    rw [List.rdropWhile_concat]
    by_cases isQuote : c = '"'
    · simp [isQuote, ih]
    · simp [isQuote]

theorem rdropWhile_new (text : List Char) :
    ('b' :: '/' :: text).rdropWhile (· == '"') = 'b' :: '/' :: text.rdropWhile (· == '"') := by
  induction text using List.reverseRecOn with
  | nil => rfl
  | append_singleton text c ih =>
    rw [← List.cons_append, ← List.cons_append, List.rdropWhile_concat, List.rdropWhile_concat, ih]
    split <;> rfl

/-- A new side in quotes is read without them, and without quotes at the end of the path. -/
theorem pathOf_quoted {text : List Char} (noTab : '\t' ∉ text) :
    Diff.pathOf ('"' :: 'b' :: '/' :: (text ++ ['"'])) =
      String.ofList (text.rdropWhile (· == '"')) := by
  apply Diff.pathOf_sided (.inr rfl)
  rw [Text.before_eq_self_iff.mpr (by simpa using noTab)]
  have stripped : Text.strip (· == '"') ('"' :: 'b' :: '/' :: (text ++ ['"'])) =
      ('b' :: '/' :: (text ++ ['"'])).rdropWhile (· == '"') := rfl
  rw [stripped, ← List.cons_append, ← List.cons_append, List.rdropWhile_concat_pos _ _ _ rfl,
    rdropWhile_new]

theorem pathOf_plain {text : List Char} (plain : text.all isPlain = true) :
    Diff.pathOf ('b' :: '/' :: text) = String.ofList text := by
  have absent {c : Char} (special : isPlain c = false) : c ∉ text := by
    intro member
    rw [List.all_eq_true.mp plain c member] at special
    cases special
  rw [Diff.pathOf_unquoted (.inr rfl) (absent (by decide)),
    Text.before_eq_self_iff.mpr (absent (by decide))]

/-! ### Finding -/

theorem count_intercalate {between c : Char} (other : c ≠ between) (parts : List (List Char)) :
    ([between].intercalate parts).count c = parts.flatten.count c := by
  induction parts with
  | nil => rfl
  | cons part parts ih =>
    cases parts with
    | nil => simp
    | cons next parts =>
      have absent : [between].count c = 0 := List.count_eq_zero.mpr (by simpa using other)
      rw [List.intercalate_cons_cons, List.count_append, List.count_append, ih, absent, Nat.add_zero,
        ← List.count_append]
      rfl

/-- Steps leave out slashes and dots only. -/
theorem count_steps (path : String) {c : Char} (noSlash : c ≠ '/') (noDot : c ≠ '.') :
    ((Path.steps path).flatMap String.toList).count c = path.toList.count c := by
  have kept (parts : List (List Char)) : (((parts.filter fun part => part != [] && part != ['.']).map
      String.ofList).flatMap String.toList).count c = parts.flatten.count c := by
    induction parts with
    | nil => rfl
    | cons part parts ih =>
      rw [List.flatten_cons, List.count_append, ← ih]
      by_cases empty : part = []
      · simp [empty]
      by_cases dot : part = ['.']
      · simp [dot, noDot.symm]
      · simp [empty, dot]
  have whole : (path.toList.splitOn '/').flatten.count c = path.toList.count c := by
    rw [← count_intercalate noSlash, List.intercalate_splitOn]
  have slash : "/".toList.count c = 0 := List.count_eq_zero.mpr (by simpa using noSlash)
  have dot : ".".toList.count c = 0 := List.count_eq_zero.mpr (by simpa using noDot)
  simp only [Path.steps]
  split
  · rw [List.flatMap_cons, List.count_append, slash, Nat.zero_add, kept, whole]
  · split
    · rw [List.flatMap_cons, List.count_append, dot, Nat.zero_add, kept, whole]
    · rw [kept, whole]

theorem count_of_same {first second : String} (same : Path.same first second = true) {c : Char}
    (noSlash : c ≠ '/') (noDot : c ≠ '.') : first.toList.count c = second.toList.count c := by
  rw [← count_steps first noSlash noDot, ← count_steps second noSlash noDot, beq_iff_eq.mp same]

/-! ### Quoted paths -/

theorem pathOf_of_isPlainPath {path : String} (plain : isPlainPath path = true) :
    Diff.pathOf (quotedPath ("b/" ++ path)).toList = path := by
  rw [quotedPath_eq, isPlainPath_new, if_pos plain, String.toList_append]
  exact (pathOf_plain plain).trans String.ofList_toList

/-- What is read of a path that is not plain has more backslashes than the path. -/
theorem count_pathOf {path : String} (special : isPlainPath path = false) :
    path.toList.count '\\' <
      (Diff.pathOf (quotedPath ("b/" ++ path)).toList).toList.count '\\' := by
  have notPlain : ¬ isPlainPath path = true := by rw [special]; exact Bool.false_ne_true
  have shown : ("b/" ++ path).toList.flatMap escaped = 'b' :: '/' :: path.toList.flatMap escaped := by
    rw [String.toList_append, List.flatMap_append]
    rfl
  rw [quotedPath_eq, isPlainPath_new, if_neg notPlain, shown, String.toList_ofList]
  have read := pathOf_quoted (tab_not_mem_escaped path.toList)
  rw [List.cons_append, List.cons_append, List.cons_append, read, String.toList_ofList,
    count_rdropWhile]
  have gained := count_flatMap_escaped path.toList
  have one : 0 < path.toList.countP (!isPlain ·) := by
    rw [isPlainPath, List.all_eq_false] at special
    simpa [List.countP_pos_iff] using special
  omega

theorem same_pathOf_iff (path : String) :
    Path.same (Diff.pathOf (quotedPath ("b/" ++ path)).toList) path = true ↔
      isPlainPath path = true := by
  cases plain : isPlainPath path with
  | true => rw [pathOf_of_isPlainPath plain, Path.same, beq_self_eq_true]
  | false =>
    simp only [Bool.false_eq_true, iff_false]
    intro same
    have counts := count_of_same same (c := '\\') (by decide) (by decide)
    have more := count_pathOf plain
    omega

theorem pathOf_eq_iff (path : String) :
    Diff.pathOf (quotedPath ("b/" ++ path)).toList = path ↔ isPlainPath path = true := by
  constructor
  · intro read
    apply (same_pathOf_iff path).mp
    rw [read, Path.same, beq_self_eq_true]
  · exact pathOf_of_isPlainPath

theorem quotedPath_ne_missingPath (path : String) :
    (quotedPath ("b/" ++ path)).toList ≠ Diff.missingPath.toList := by
  rw [quotedPath_eq]
  split
  · simp [Diff.missingPath]
  · simp [Diff.missingPath]

/-- A file whose new side shows a path goes by its new path, unless its header lines declare it
deleted. -/
theorem path_content {path : String} {headers : List (List Char)} {file : WrittenFile}
    (shows : file.newSide = (quotedPath ("b/" ++ path)).toList)
    (undeclared : headers.any (Text.startsWith "deleted file mode".toList) = false) :
    (file.content headers).path = (file.content headers).newPath := by
  have present : (file.content headers).isDeleted = false := by
    simp only [WrittenFile.content, undeclared, shows, quotedPath_ne_missingPath, decide_false,
      Bool.or_false]
  rw [FileDiff.path, present, if_neg Bool.false_ne_true]

/-- Among the changes to a path, a single one is found exactly if it goes by that path. -/
theorem fileDiff_eq {repository : Repository} {path old new : String} {file : FileDiff}
    (only : repository.fileDiffs old new (some path) = .ok [file]) :
    repository.fileDiff path old new = .ok (if Path.same file.path path then some file else none) := by
  rw [fileDiff, only]
  cases same : Path.same file.path path with
  | true => simp [same, bind, Except.bind, pure, Except.pure]
  | false => simp [same, bind, Except.bind, pure, Except.pure]

/-- A diff with a text file below the given header lines. -/
def Holds (headers : List (List Char)) (file : WrittenFile) : WrittenDiff → Prop
  | .git sections => ∃ title, .text title headers file ∈ sections
  | .bare files => headers = [] ∧ file ∈ files

theorem Holds.mem_content {diff : WrittenDiff} {headers : List (List Char)} {file : WrittenFile}
    (holds : Holds headers file diff) : file.content headers ∈ diff.content := by
  cases diff with
  | git sections =>
    obtain ⟨title, member⟩ := holds
    exact List.mem_filterMap.mpr ⟨.text title headers file, member, rfl⟩
  | bare files =>
    obtain ⟨rfl, member⟩ := holds
    exact List.mem_map_of_mem member

/-- A file whose new side shows a path is read with that path exactly if the path is plain. Exactly then
it is also found for the path where it is the only change to it, unless its header lines declare it
deleted. -/
theorem read_quotedPath (path : String) {diff : WrittenDiff} (wellFormed : diff.WellFormed)
    {headers : List (List Char)} {file : WrittenFile} (holds : Holds headers file diff)
    (shows : file.newSide = (quotedPath ("b/" ++ path)).toList) :
    ∃ files, Diff.read diff.text = .ok files ∧ file.content headers ∈ files ∧
      ((file.content headers).newPath = path ↔ isPlainPath path = true) ∧
      (headers.any (Text.startsWith "deleted file mode".toList) = false →
        ∀ (repository : Repository) (old new : String),
          repository.fileDiffs old new (some path) = .ok [file.content headers] →
          repository.fileDiff path old new =
            .ok (if isPlainPath path then some (file.content headers) else none)) := by
  have newPath : (file.content headers).newPath =
      Diff.pathOf (quotedPath ("b/" ++ path)).toList := congrArg Diff.pathOf shows
  refine ⟨diff.content, ?_, holds.mem_content, ?_, ?_⟩
  · rw [WrittenDiff.text, read_terminated wellFormed.1, ofLines_lines wellFormed]
  · rw [newPath]
    exact pathOf_eq_iff path
  · intro undeclared repository old new only
    rw [fileDiff_eq only, path_content shows undeclared, newPath,
      Bool.eq_iff_iff.mpr (same_pathOf_iff path)]

/-- Two revisions, of which only the new one has a file, with a name outside ASCII. -/
def accentRepository : Repository where
  others := [("1", .tree ∅), ("2", .tree (.ofList [⟨"é", [0x61, 0x0A]⟩]))]
  references := [("refs/heads/old", .object "1"), ("refs/heads/new", .object "2")]

def accentHunk : WrittenHunk where
  hunk := ⟨0, 0, 1, 1, [⟨.added, "a"⟩]⟩
  header := "@@ -0,0 +1 @@".toList
  notes _ := 0

def accentFile : WrittenFile :=
  ⟨Diff.missingPath.toList, "\"b/\\303\\251\"".toList, [accentHunk]⟩

def accentHeaders : List (List Char) :=
  ["new file mode 100644".toList]

def accentDiff : WrittenDiff :=
  .git [.text "\"a/\\303\\251\" \"b/\\303\\251\"".toList accentHeaders accentFile]

theorem accentDiff_wellFormed : accentDiff.WellFormed := by
  have hunk : accentHunk.WellFormed :=
    { spells := SpellsHeader.headerText accentHunk.hunk []
      numbered := by constructor <;> decide
      oldRows := rfl
      newRows := rfl
      nonempty := by decide }
  refine ⟨by decide, List.forall_mem_singleton.mpr ⟨by decide, ?_⟩⟩
  exact ⟨List.cons_ne_nil _ _, List.forall_mem_singleton.mpr hunk⟩

theorem accentFile_held : Holds accentHeaders accentFile accentDiff :=
  ⟨_, List.mem_singleton_self _⟩

theorem accentFile_shows : accentFile.newSide = (quotedPath ("b/" ++ "é")).toList := by
  decide +kernel

theorem accentRepository_fileDiffs : accentRepository.fileDiffs "old" "new" (some "é") =
    .ok [accentFile.content accentHeaders] := by
  decide +kernel

theorem read_quotedPath_accent :
    accentDiff.WellFormed ∧ Holds accentHeaders accentFile accentDiff ∧
    accentFile.newSide = (quotedPath ("b/" ++ "é")).toList ∧
    (∃ files, Diff.read accentDiff.text = .ok files ∧ accentFile.content accentHeaders ∈ files) ∧
    accentRepository.fileDiffs "old" "new" (some "é") = .ok [accentFile.content accentHeaders] ∧
    accentRepository.fileDiff "é" "old" "new" = .ok none := by
  obtain ⟨files, read, member, _, finds⟩ :=
    read_quotedPath "é" accentDiff_wellFormed accentFile_held accentFile_shows
  refine ⟨accentDiff_wellFormed, accentFile_held, accentFile_shows, ⟨files, read, member⟩,
    accentRepository_fileDiffs, ?_⟩
  exact finds (by decide) accentRepository "old" "new" accentRepository_fileDiffs

/-- A path that is shown in quotes is not always read back. -/
theorem quotedPath_not_decoded :
    ¬ ∀ (path : String) (diff : WrittenDiff), diff.WellFormed →
      ∀ (headers : List (List Char)) (file : WrittenFile), Holds headers file diff →
        file.newSide = (quotedPath ("b/" ++ path)).toList →
        ∃ files, Diff.read diff.text = .ok files ∧ ∃ read ∈ files, read.newPath = path := by
  intro decodes
  obtain ⟨files, read, file, member, newPath⟩ := decodes "é" accentDiff accentDiff_wellFormed
    accentHeaders accentFile accentFile_held accentFile_shows
  rw [WrittenDiff.text, read_terminated accentDiff_wellFormed.1,
    ofLines_lines accentDiff_wellFormed] at read
  obtain rfl : [accentFile.content accentHeaders] = files := Except.ok.inj read
  obtain rfl := List.mem_singleton.mp member
  revert newPath
  decide

end MergeRisk.Repository
