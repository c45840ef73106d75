import Mathlib.Data.List.Forall2
import Mathlib.Data.List.Infix
import MergeRisk.Proofs.HunkHeader
import MergeRisk.Proofs.Lines
import MergeRisk.Report.Separated

/-! Reports read back. A reader of separated values, with fields in double quotes where they hold a
quote or the separator, finds the columns of each row; from these the line sets are read. -/

namespace MergeRisk.Report

/-! ### A reader of separated values -/

/-- Where a reader stands in a line. -/
inductive FieldPlace where
  /-- At the start of a field. -/
  | start
  /-- Inside a field without quotes. -/
  | plain
  /-- Inside a quoted field. -/
  | quoted
  /-- After a quote in a quoted field: the field is over, unless a second quote follows. -/
  | closing
deriving DecidableEq

/-- Put a character before the first field. -/
def pushChar (c : Char) : List (List Char) → List (List Char)
  | [] => [[c]]
  | field :: others => (c :: field) :: others

/-- Read on from a place in a line: the rest of the current field, then the other fields. Refused
are a quote inside a field without quotes, text after a closing quote and a quote left open. -/
def readFrom (separator : Char) : FieldPlace → List Char → Option (List (List Char))
  | .quoted, [] => none
  | _, [] => some [[]]
  | .start, c :: text =>
    if c = '"' then readFrom separator .quoted text
    else if c = separator then (readFrom separator .start text).map ([] :: ·)
    else (readFrom separator .plain text).map (pushChar c)
  | .plain, c :: text =>
    if c = '"' then none
    else if c = separator then (readFrom separator .start text).map ([] :: ·)
    else (readFrom separator .plain text).map (pushChar c)
  | .quoted, c :: text =>
    if c = '"' then readFrom separator .closing text
    else (readFrom separator .quoted text).map (pushChar c)
  | .closing, c :: text =>
    if c = '"' then (readFrom separator .quoted text).map (pushChar c)
    else if c = separator then (readFrom separator .start text).map ([] :: ·)
    else none

/-- Read the fields of a line. -/
def readLine (separator : Char) (line : List Char) : Option (List (List Char)) :=
  readFrom separator .start line

/-! ### Joined texts -/

section
variable {between : List Char} {parts : List (List Char)} {c : Char}

theorem intercalate_cons (between first : List Char) (others : List (List Char)) :
    between.intercalate (first :: others) = first ++ others.flatMap (between ++ ·) := by
  induction others generalizing first with
  | nil => simp
  | cons next others ih =>
    rw [List.intercalate_cons_cons, ih next, List.flatMap_cons, List.append_assoc,
      List.append_assoc]

theorem mem_intercalate_of_mem {part : List Char} (inParts : part ∈ parts) (member : c ∈ part) :
    c ∈ between.intercalate parts := by
  cases parts with
  | nil => cases inParts
  | cons first others =>
    rw [intercalate_cons, List.mem_append, List.mem_flatMap]
    rcases List.mem_cons.mp inParts with rfl | later
    · exact .inl member
    · exact .inr ⟨part, later, List.mem_append_right between member⟩

theorem mem_of_mem_intercalate (member : c ∈ between.intercalate parts) :
    c ∈ between ∨ ∃ part ∈ parts, c ∈ part := by
  cases parts with
  | nil => cases member
  | cons first others =>
    rw [intercalate_cons, List.mem_append, List.mem_flatMap] at member
    rcases member with inFirst | ⟨part, later, inside⟩
    · exact .inr ⟨first, List.mem_cons_self, inFirst⟩
    · rcases List.mem_append.mp inside with isBetween | inPart
      · exact .inl isBetween
      · exact .inr ⟨part, List.mem_cons_of_mem first later, inPart⟩

end

/-! ### Fields -/

section
variable {separator : Char} {rest first : List Char} {others : List (List Char)}

/-- A field without quotes and separators is read as it stands. -/
theorem readFrom_plain {field : List Char} (plain : ∀ c ∈ field, c ≠ '"' ∧ c ≠ separator)
    (read : readFrom separator .plain rest = some (first :: others)) :
    readFrom separator .plain (field ++ rest) = some ((field ++ first) :: others) := by
  induction field with
  | nil => exact read
  | cons c field ih =>
    obtain ⟨⟨noQuote, noSeparator⟩, later⟩ := List.forall_mem_cons.mp plain
    rw [List.cons_append, readFrom, if_neg noQuote, if_neg noSeparator, ih later]
    rfl

/-- Inside quotes any character stands for itself, and two quotes for one. -/
theorem readFrom_quoted (field : List Char)
    (read : readFrom separator .closing rest = some (first :: others)) :
    readFrom separator .quoted (doubled field ++ '"' :: rest) =
      some ((field ++ first) :: others) := by
  induction field with
  | nil =>
    rw [doubled, List.flatMap_nil, List.nil_append, readFrom, if_pos rfl]
    exact read
  | cons c field ih =>
    rw [doubled, List.flatMap_cons, ← doubled, List.append_assoc]
    by_cases isQuote : c = '"'
    · simp [isQuote, readFrom, ih, pushChar]
    · simp [isQuote, readFrom, ih, pushChar]

/-- What may follow a field: the reader takes the field to be over, wherever it stands. -/
structure FieldEnds (separator : Char) (rest : List Char) (others : List (List Char)) : Prop where
  start : readFrom separator .start rest = some ([] :: others)
  plain : readFrom separator .plain rest = some ([] :: others)
  closing : readFrom separator .closing rest = some ([] :: others)

theorem FieldEnds.last : FieldEnds separator [] [] :=
  ⟨rfl, rfl, rfl⟩

theorem FieldEnds.next (noQuote : separator ≠ '"') (read : readLine separator rest = some others) :
    FieldEnds separator (separator :: rest) others := by
  constructor <;> rw [readFrom, if_neg noQuote, if_pos rfl, ← readLine, read] <;> rfl

theorem occurs_singleton {text : List Char} :
    Text.occurs [separator] text = true ↔ separator ∈ text := by
  rw [Text.occurs_iff, List.singleton_infix_iff]

theorem not_mem_of_not_needsQuotes {field : List Char}
    (free : ¬ needsQuotes [separator] field = true) : ∀ c ∈ field, c ≠ '"' ∧ c ≠ separator := by
  simp only [needsQuotes, Bool.or_eq_true, List.contains_iff_mem, occurs_singleton, not_or] at free
  intro c member
  constructor
  · intro isQuote
    exact free.1.1 (isQuote ▸ member)
  · intro isSeparator
    exact free.2 (isSeparator ▸ member)

/-- A written field is read back, whatever follows it in the line. -/
theorem FieldEnds.readFrom_append (ends : FieldEnds separator rest others) (field : List Char) :
    readFrom separator .start (quoted [separator] field ++ rest) = some (field :: others) := by
  rw [quoted]
  split
  · have read := readFrom_quoted field ends.closing
    rw [List.append_nil] at read
    simpa [readFrom] using read
  · rename_i free
    have plain := not_mem_of_not_needsQuotes free
    cases field with
    | nil => exact ends.start
    | cons c field =>
      obtain ⟨⟨noQuote, noSeparator⟩, later⟩ := List.forall_mem_cons.mp plain
      have read := readFrom_plain later ends.plain
      rw [List.append_nil] at read
      rw [List.cons_append, readFrom, if_neg noQuote, if_neg noSeparator, read]
      rfl

/-- Fields as they are written in one line. -/
def written (separator : Char) (fields : List (List Char)) : List Char :=
  [separator].intercalate (fields.map (quoted [separator]))

theorem written_singleton (field : List Char) :
    written separator [field] = quoted [separator] field := by
  rw [written, List.map_cons, List.map_nil, List.intercalate_singleton]

theorem written_cons_cons (field next : List Char) (fields : List (List Char)) :
    written separator (field :: next :: fields) =
      quoted [separator] field ++ separator :: written separator (next :: fields) := by
  rw [written, List.map_cons, List.map_cons, List.intercalate_cons_cons, List.append_assoc]
  rfl

/-- A line of written fields is read as these fields. -/
theorem readLine_written (noQuote : separator ≠ '"') {fields : List (List Char)}
    (nonempty : fields ≠ []) : readLine separator (written separator fields) = some fields := by
  induction fields with
  | nil => exact absurd rfl nonempty
  | cons field fields ih =>
    cases fields with
    | nil =>
      have ends : FieldEnds separator [] [] := .last
      have read := ends.readFrom_append field
      rw [List.append_nil] at read
      rw [written_singleton]
      exact read
    | cons next fields =>
      have ends := FieldEnds.next noQuote (ih (List.cons_ne_nil next fields))
      rw [written_cons_cons]
      exact ends.readFrom_append field

/-! ### Lines -/

theorem mem_quoted_of_mem {field : List Char} {c : Char} (member : c ∈ field) :
    c ∈ quoted [separator] field := by
  rw [quoted]
  split
  · have inside : c ∈ doubled field := by
      apply List.mem_flatMap.mpr
      refine ⟨c, member, ?_⟩
      split <;> simp_all
    simp [inside]
  · exact member

theorem mem_of_mem_quoted {field : List Char} {c : Char} (noQuote : c ≠ '"')
    (member : c ∈ quoted [separator] field) : c ∈ field := by
  rw [quoted] at member
  split at member
  · have inside : c ∈ doubled field := by simpa [noQuote] using member
    obtain ⟨d, inField, made⟩ := List.mem_flatMap.mp inside
    split at made
    · simp [noQuote] at made
    · rw [List.mem_singleton.mp made]
      exact inField
  · exact member

theorem mem_written_of_mem {fields : List (List Char)} {field : List Char} {c : Char}
    (inFields : field ∈ fields) (member : c ∈ field) : c ∈ written separator fields :=
  mem_intercalate_of_mem (List.mem_map_of_mem inFields) (mem_quoted_of_mem member)

/-- Writing fields brings in no character but quotes and separators. -/
theorem not_mem_written {fields : List (List Char)} {c : Char} (noQuote : c ≠ '"')
    (noSeparator : c ≠ separator) (absent : ∀ field ∈ fields, c ∉ field) :
    c ∉ written separator fields := by
  intro member
  rcases mem_of_mem_intercalate member with isSeparator | ⟨part, inParts, inPart⟩
  · exact noSeparator (List.mem_singleton.mp isSeparator)
  · obtain ⟨field, inFields, rfl⟩ := List.mem_map.mp inParts
    exact absent field inFields (mem_of_mem_quoted noQuote inPart)

end

theorem not_mem_flattened_of_isBreak {c : Char} (isBreak : c = '\n' ∨ c = '\r') (text : List Char) :
    c ∉ flattened text := by
  have noBlank : c ≠ ' ' := by rcases isBreak with rfl | rfl <;> decide
  induction text using flattened.induct with
  | case1 => simp [flattened]
  | case2 text ih => simpa [flattened, noBlank] using ih
  | case3 d text notPair ih =>
    rw [flattened]
    · by_cases broken : (d = '\n' || d = '\r') = true
      · simpa [broken, noBlank] using ih
      · have other : c ≠ d := by
          rintro rfl
          exact broken (by simpa using isBreak)
        simp [broken, ih, other]
    · exact notPair

theorem not_mem_flattened (text : List Char) : '\n' ∉ flattened text :=
  not_mem_flattened_of_isBreak (.inl rfl) text

theorem not_mem_fields {row : ReportRow} {compact : Bool} {field : List Char}
    (member : field ∈ row.fields compact) : '\n' ∉ field := by
  rw [ReportRow.fields, List.mem_append, List.mem_map, List.mem_singleton] at member
  rcases member with ⟨column, _, rfl⟩ | rfl
  · cases compact with
    | false => exact not_mem_flattened _
    | true =>
      intro kept
      exact not_mem_flattened _ (List.mem_of_mem_filter kept)
  · exact not_mem_flattened _

/-! ### Line sets -/

/-- The numbers in a text: the values of its runs of digits. -/
def numbersIn (text : List Char) : List Nat :=
  ((text.splitOnP (!·.isDigit)).filter (!·.isEmpty)).map (Nat.ofDigitChars 10 · 0)

section
variable {rest : List Char}

theorem numbersIn_spelled {digits : List Char} {number : Nat} (spells : Text.Spells digits number)
    {c : Char} (noDigit : c.isDigit = false) :
    numbersIn (digits ++ c :: rest) = number :: numbersIn rest := by
  have inside : ∀ d ∈ digits, (!d.isDigit) = false := by
    intro d member
    rw [spells.digits d member]
    rfl
  rw [numbersIn, List.splitOnP_append_cons_of_forall_mem inside c (by simp [noDigit]),
    List.filter_cons_of_pos (by simpa using spells.nonempty), List.map_cons, spells.spelled]
  rfl

theorem numbersIn_append {gap : List Char} (noDigits : gap.any Char.isDigit = false) :
    numbersIn (gap ++ rest) = numbersIn rest := by
  induction gap with
  | nil => rfl
  | cons c gap ih =>
    obtain ⟨first, later⟩ := Bool.or_eq_false_iff.mp noDigits
    have split : numbersIn ([] ++ c :: (gap ++ rest)) = numbersIn (gap ++ rest) := by
      rw [numbersIn, List.splitOnP_append_cons_of_forall_mem (by simp) c (by simp [first])]
      rfl
    exact split.trans (ih later)

/-- Numbers with a comma and a gap between them, before a bracket. -/
theorem numbersIn_intercalate {gap : List Char} (noDigits : gap.any Char.isDigit = false)
    (numbers : List Nat) :
    numbersIn ((',' :: gap).intercalate (numbers.map fun number => (toString number).toList) ++
      [']']) = numbers := by
  induction numbers with
  | nil => rfl
  | cons number numbers ih =>
    have spells := Text.Spells.toString number
    cases numbers with
    | nil =>
      rw [List.map_cons, List.map_nil, List.intercalate_singleton,
        numbersIn_spelled spells (by decide)]
      rfl
    | cons next numbers =>
      rw [List.map_cons] at ih
      rw [List.map_cons, List.map_cons, List.intercalate_cons_cons, List.append_assoc,
        List.append_assoc, List.cons_append, numbersIn_spelled spells (by decide),
        numbersIn_append noDigits, ih]

end

theorem toList_numbersText (numbers : NumberSet) :
    (numbersText numbers).toList = '[' :: ([',', ' '].intercalate
      (numbers.toList.map fun number => (toString number).toList) ++ [']']) := by
  simp [numbersText, bracketed, Text.joined, String.toList_intercalate, Function.comp_def]

theorem flattened_eq {text : List Char} (noFeed : '\n' ∉ text) (noReturn : '\r' ∉ text) :
    flattened text = text := by
  induction text using flattened.induct with
  | case1 => rfl
  | case2 text ih => simp at noFeed
  | case3 c text notPair ih =>
    rw [List.mem_cons, not_or] at noFeed noReturn
    rw [flattened, ih noFeed.2 noReturn.2]
    · simp [Ne.symm noFeed.1, Ne.symm noReturn.1]
    · exact notPair

theorem compacted_intercalate (between : List Char) (parts : List (List Char)) :
    compacted (between.intercalate parts) =
      (compacted between).intercalate (parts.map compacted) := by
  cases parts with
  | nil => rfl
  | cons first others =>
    rw [List.map_cons, intercalate_cons, intercalate_cons]
    simp [compacted, List.filter_flatMap, List.flatMap_map]

theorem not_isStripped_of_isDigit {c : Char} (digit : c.isDigit = true) : isStripped c = false := by
  rw [Bool.eq_false_iff]
  intro stripped
  simp only [isStripped, Bool.or_eq_true, beq_iff_eq] at stripped
  rcases stripped with (((((rfl | rfl) | rfl) | rfl) | rfl) | rfl) | rfl <;> cases digit

theorem compacted_digits (number : Nat) :
    compacted (toString number).toList = (toString number).toList := by
  apply List.filter_eq_self.mpr
  intro c member
  rw [not_isStripped_of_isDigit ((Text.Spells.toString number).digits c member)]
  rfl

theorem not_mem_numbersText {c : Char} (noDigit : c.isDigit = false)
    (noMark : c ∉ ['[', ',', ' ', ']']) (numbers : NumberSet) :
    c ∉ (numbersText numbers).toList := by
  intro member
  rw [toList_numbersText, List.mem_cons, List.mem_append, List.mem_singleton] at member
  rcases member with rfl | inside | rfl
  · exact noMark List.mem_cons_self
  · rcases mem_of_mem_intercalate inside with isBetween | ⟨digits, inParts, inDigits⟩
    · exact noMark (List.mem_cons_of_mem _ (List.mem_append_left [']'] isBetween))
    · obtain ⟨number, _, rfl⟩ := List.mem_map.mp inParts
      exact (Text.Spells.toString number).not_mem noDigit inDigits
  · exact noMark (by decide)

theorem flattened_numbersText (numbers : NumberSet) :
    flattened (numbersText numbers).toList = (numbersText numbers).toList :=
  flattened_eq (not_mem_numbersText (by decide) (by decide) numbers)
    (not_mem_numbersText (by decide) (by decide) numbers)

theorem compacted_numbersText (numbers : NumberSet) :
    compacted (numbersText numbers).toList = '[' :: ([','].intercalate
      (numbers.toList.map fun number => (toString number).toList) ++ [']']) := by
  have brackets (text : List Char) :
      compacted ('[' :: (text ++ [']'])) = '[' :: (compacted text ++ [']']) := by
    simp [compacted, isStripped]
  rw [toList_numbersText, brackets, compacted_intercalate, List.map_map]
  simp only [Function.comp_def, compacted_digits]
  rfl

/-- The numbers of a line set are found in its column. -/
theorem numbersIn_column (numbers : NumberSet) (compact : Bool) :
    numbersIn (if compact then compacted (flattened (numbersText numbers).toList)
      else flattened (numbersText numbers).toList) = numbers.toList := by
  have opening (rest : List Char) : numbersIn (['['] ++ rest) = numbersIn rest :=
    numbersIn_append (by decide)
  rw [flattened_numbersText]
  cases compact with
  | false =>
    rw [if_neg Bool.false_ne_true, toList_numbersText]
    exact (opening _).trans (numbersIn_intercalate (by decide) numbers.toList)
  | true =>
    rw [if_pos rfl, compacted_numbersText]
    exact (opening _).trans (numbersIn_intercalate (by decide) numbers.toList)

/-! ### Rows -/

/-- Line breaks turned into spaces: a carriage return and its line feed into one, and either alone
into one too. -/
inductive Flattens : (text flat : List Char) → Prop where
  | done : Flattens [] []
  | pair {text flat : List Char} (rest : Flattens text flat) :
      Flattens ('\r' :: '\n' :: text) (' ' :: flat)
  | feed {text flat : List Char} (rest : Flattens text flat) : Flattens ('\n' :: text) (' ' :: flat)
  | carriage {text flat : List Char} (alone : text.head? ≠ some '\n') (rest : Flattens text flat) :
      Flattens ('\r' :: text) (' ' :: flat)
  | other {c : Char} {text flat : List Char} (noFeed : c ≠ '\n') (noReturn : c ≠ '\r')
      (rest : Flattens text flat) : Flattens (c :: text) (c :: flat)

/-- A field shows the text of a column: without its line breaks, and without the characters that are
left out. -/
def Shows (leftOut column field : List Char) : Prop :=
  ∃ flat, Flattens column flat ∧ field = flat.filter (· ∉ leftOut)

/-- Items between brackets, with a comma and a blank after each but the last. -/
def spelledList (items : List (List Char)) : List Char :=
  '[' :: ([',', ' '].intercalate items ++ [']'])

def spelledNumbers (numbers : NumberSet) : List Char :=
  spelledList (numbers.toList.map fun number => (toString number).toList)

/-- A method as `owner.name(p1,p2)`. -/
def spelledMethod (method : Signature) : List Char :=
  method.owner.toList ++ '.' :: (method.name.toList ++
    '(' :: ([','].intercalate (method.params.map String.toList) ++ [')']))

/-- What a reader of a row finds: nine fields, which show the project, the merge commit, the class, the
method, the four line sets and the entry points of the row. A compact report leaves characters out of
all but the last. The line sets are the numbers in the fifth to the eighth field. -/
structure ReportRow.Recovered (row : ReportRow) (compact : Bool) (fields : List (List Char)) :
    Prop where
  count : fields.length = 9
  columns : List.Forall₂ (Shows (if compact then [' ', '+', '^', '?', '<', '>', '|'] else []))
    [row.record.project.name.toList, row.record.commit.merge.toList, row.record.className.toList,
      spelledMethod row.record.signature, spelledNumbers row.record.lines.leftAdded,
      spelledNumbers row.record.lines.leftDeleted, spelledNumbers row.record.lines.rightAdded,
      spelledNumbers row.record.lines.rightDeleted] (fields.take 8)
  entryPoints : List.Forall₂ (Shows [])
    [spelledList (row.entryPoints.map fun entry => spelledMethod entry.signature)] (fields.drop 8)
  lineSets : ((fields.drop 4).take 4).map numbersIn =
    [row.record.lines.leftAdded.toList, row.record.lines.leftDeleted.toList,
      row.record.lines.rightAdded.toList, row.record.lines.rightDeleted.toList]

theorem flattens_flattened (text : List Char) : Flattens text (flattened text) := by
  induction text using flattened.induct with
  | case1 => exact .done
  | case2 text ih => exact .pair ih
  | case3 c text notPair ih =>
    rw [flattened]
    · by_cases isFeed : c = '\n'
      · subst isFeed
        exact .feed ih
      · by_cases isReturn : c = '\r'
        · subst isReturn
          refine .carriage ?_ ih
          intro followed
          obtain ⟨rest, rfl⟩ := List.head?_eq_some_iff.mp followed
          exact notPair rest rfl rfl
        · simpa [isFeed, isReturn] using Flattens.other isFeed isReturn ih
    · exact notPair

theorem shows_flattened (text : List Char) : Shows [] text (flattened text) :=
  ⟨flattened text, flattens_flattened text, (List.filter_eq_self.mpr (by simp)).symm⟩

theorem shows_compacted (text : List Char) :
    Shows [' ', '+', '^', '?', '<', '>', '|'] text (compacted (flattened text)) := by
  refine ⟨flattened text, flattens_flattened text, List.filter_congr ?_⟩
  intro c _
  rw [Bool.eq_iff_iff]
  simp [isStripped, and_assoc]

theorem toList_bracketed (items : List String) :
    (bracketed items).toList = spelledList (items.map String.toList) := by
  simp [bracketed, spelledList, Text.joined, String.toList_intercalate]

theorem toList_signature (method : Signature) : method.text.toList = spelledMethod method := by
  simp [Signature.text, spelledMethod, Text.joined, String.toList_intercalate]

theorem ReportRow.toList_columns (row : ReportRow) : row.columns.map String.toList =
    [row.record.project.name.toList, row.record.commit.merge.toList, row.record.className.toList,
      spelledMethod row.record.signature, spelledNumbers row.record.lines.leftAdded,
      spelledNumbers row.record.lines.leftDeleted, spelledNumbers row.record.lines.rightAdded,
      spelledNumbers row.record.lines.rightDeleted] := by
  simp only [ReportRow.columns, List.map_cons, List.map_nil, toList_signature, toList_numbersText]
  rfl

theorem ReportRow.toList_lastColumn (row : ReportRow) : row.lastColumn.toList =
    spelledList (row.entryPoints.map fun entry => spelledMethod entry.signature) := by
  rw [ReportRow.lastColumn, toList_bracketed, List.map_map]
  simp only [Function.comp_def, toList_signature]

theorem ReportRow.recovered_fields (row : ReportRow) (compact : Bool) :
    row.Recovered compact (row.fields compact) where
  count := rfl
  columns := by
    have first : (row.fields compact).take 8 = row.columns.map fun column =>
        if compact then compacted (flattened column.toList) else flattened column.toList := rfl
    rw [← row.toList_columns, first, List.forall₂_map_left_iff, List.forall₂_map_right_iff,
      List.forall₂_same]
    intro column _
    cases compact with
    | false => exact shows_flattened column.toList
    | true => exact shows_compacted column.toList
  entryPoints := by
    have last : (row.fields compact).drop 8 = [flattened row.lastColumn.toList] := rfl
    rw [← row.toList_lastColumn, last]
    exact .cons (shows_flattened row.lastColumn.toList) .nil
  lineSets := by
    simp only [ReportRow.fields, ReportRow.columns, List.map_cons, List.map_nil, List.cons_append,
      List.drop_succ_cons, List.drop_zero, List.take_succ_cons, List.take_zero, numbersIn_column]

theorem ReportRow.fields_ne_nil (row : ReportRow) (compact : Bool) : row.fields compact ≠ [] := by
  rw [ReportRow.fields]
  exact List.append_ne_nil_of_right_ne_nil _ (List.cons_ne_nil _ [])

theorem mem_lastColumn (row : ReportRow) : '[' ∈ flattened row.lastColumn.toList := by
  have starts : ∃ rest, row.lastColumn.toList = '[' :: rest := by
    simp [ReportRow.lastColumn, bracketed]
  obtain ⟨rest, starts⟩ := starts
  rw [starts, flattened]
  · simp
  · simp

section
variable {settings : ReportSettings} {separator : Char}

theorem toList_joined_quoted (single : settings.separator = String.singleton separator)
    (fields : List (List Char)) :
    (Text.joined settings.separator (fields.map fun field =>
      String.ofList (quoted settings.separator.toList field))).toList =
        written separator fields := by
  simp [Text.joined, String.toList_intercalate, single, written, Function.comp_def]

theorem toList_headerLine (single : settings.separator = String.singleton separator) :
    (headerLine settings).toList = written separator (header.map String.toList) := by
  have unbroken : header.map (fun name => flattened name.toList) = header.map String.toList := by
    decide
  rw [← unbroken, ← toList_joined_quoted single, List.map_map]
  rfl

/-- No row is blank: each has the bracket of its last column. -/
theorem trimmed_render_ne (single : settings.separator = String.singleton separator)
    (row : ReportRow) : Text.trimmed (row.render settings) ≠ "" := by
  have inFields : flattened row.lastColumn.toList ∈ row.fields settings.compact := by
    simp [ReportRow.fields]
  have inLine : '[' ∈ (row.render settings).toList := by
    rw [ReportRow.render, toList_joined_quoted single]
    exact mem_written_of_mem inFields (mem_lastColumn row)
  intro blank
  have stripped : Text.strip Text.isBlank (row.render settings).toList = [] := by
    simpa [Text.trimmed, Text.trim] using blank
  exact Text.strip_ne_nil inLine (by decide) stripped

theorem toList_render (single : settings.separator = String.singleton separator)
    (rows : List ReportRow) :
    (render rows settings).toList = Text.terminated (written separator (header.map String.toList) ::
      rows.map fun row => written separator (row.fields settings.compact)) := by
  have kept : (rows.map (·.render settings)).filter (fun line => Text.trimmed line != "") =
      rows.map (·.render settings) := by
    apply List.filter_eq_self.mpr
    intro line member
    obtain ⟨row, _, rfl⟩ := List.mem_map.mp member
    exact bne_iff_ne.mpr (trimmed_render_ne single row)
  have rowLine (row : ReportRow) :
      (row.render settings).toList = written separator (row.fields settings.compact) :=
    toList_joined_quoted single (row.fields settings.compact)
  simp only [render, kept, String.toList_join, Text.terminated, List.map_cons, List.flatMap_cons]
  simp [toList_headerLine single, rowLine, List.flatMap_map]

/-- A report is the line of the header and one line for each row, and a reader of separated values
finds the columns of the rows in these lines, whatever the texts of the rows are. -/
theorem render_readBack (rows : List ReportRow)
    (single : settings.separator = String.singleton separator) (noQuote : separator ≠ '"')
    (noFeed : separator ≠ '\n') :
    ∃ top lines, (render rows settings).toList.splitOn '\n' = top :: lines ++ [[]] ∧
      readLine separator top = some (["project", "merge commit", "className", "method",
        "left modifications", "left deletions", "right modifications", "right deletions",
        "entrypoints"].map String.toList) ∧
      List.Forall₂ (fun line row => ∃ fields, readLine separator line = some fields ∧
        row.Recovered settings.compact fields) lines rows := by
  refine ⟨written separator (header.map String.toList),
    rows.map fun row => written separator (row.fields settings.compact), ?_, ?_, ?_⟩
  · rw [toList_render single]
    apply Text.splitOn_terminated
    intro line member
    rcases List.mem_cons.mp member with rfl | inRows
    · exact not_mem_written (by decide) noFeed.symm (by decide)
    · obtain ⟨row, _, rfl⟩ := List.mem_map.mp inRows
      exact not_mem_written (by decide) noFeed.symm fun field => not_mem_fields
  · exact readLine_written noQuote (by decide)
  · rw [List.forall₂_map_left_iff, List.forall₂_same]
    intro row _
    exact ⟨row.fields settings.compact,
      readLine_written noQuote (row.fields_ne_nil settings.compact),
      row.recovered_fields settings.compact⟩

end

/-- A row with quotes, a line break and the separator in its texts. -/
def quotedRow : ReportRow where
  record :=
    { project := ⟨"the \"app\"\r\n", none⟩
      commit := ⟨"base", "left", "right", "merge"⟩
      className := "Desk, Main"
      signature := ⟨"Desk", "print", ["List<int>"], by decide, by decide, by decide⟩
      lines := { leftAdded := .ofList [12, 3], rightDeleted := .ofList [7] } }
  entryPoints :=
    [⟨⟨"Desk", "unpack", ["Set<int>", "Pen"], by decide, by decide, by decide⟩, ∅⟩,
      ⟨⟨"Desk", "tidy", ["Pen"], by decide, by decide, by decide⟩, .ofList [.added 2]⟩]

def commaSettings : ReportSettings where
  separator := ","
  compact := true

theorem render_readBack_quotedRow :
    commaSettings.separator = String.singleton ',' ∧ ',' ≠ '"' ∧ ',' ≠ '\n' ∧
    quotedRow.render commaSettings =
      "\"the\"\"app\"\"\",merge,\"Desk,Main\",Desk.print(Listint),\"[3,12]\",[],[],[7]," ++
        "\"[Desk.unpack(Set<int>,Pen), Desk.tidy(Pen)]\"" ∧
    ∃ top lines, (render [quotedRow, quotedRow] commaSettings).toList.splitOn '\n' =
        top :: lines ++ [[]] ∧
      readLine ',' top = some (["project", "merge commit", "className", "method",
        "left modifications", "left deletions", "right modifications", "right deletions",
        "entrypoints"].map String.toList) ∧
      List.Forall₂ (fun line row => ∃ fields, readLine ',' line = some fields ∧
        row.Recovered commaSettings.compact fields) lines [quotedRow, quotedRow] := by
  refine ⟨rfl, by decide, by decide, by decide +kernel, ?_⟩
  exact render_readBack [quotedRow, quotedRow] rfl (by decide) (by decide)

end MergeRisk.Report
