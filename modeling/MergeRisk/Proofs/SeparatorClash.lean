import MergeRisk.Proofs.QuotedFields
import MergeRisk.Proofs.ReportReading

/-! Whether the rows of a report can be told apart. A field is put in quotes where it holds a quote or
the whole separator. That is enough unless the separator overlaps itself or has quotes at its ends: then
the same text may be two rows, and which separators these are is decided here. -/

namespace MergeRisk.Report

/-! ### Separators -/

/-- Whether a text starts as it ends, with a part of it. -/
def overlapsItself (text : List Char) : Bool :=
  text.tail.tails.any fun rest => rest != [] && rest.isPrefixOf text

theorem overlapsItself_iff {text : List Char} : overlapsItself text = true ↔
    ∃ start rest, start ≠ [] ∧ rest ≠ [] ∧ text = start ++ rest ∧ rest <+: text := by
  simp only [overlapsItself, List.any_eq_true, List.mem_tails, Bool.and_eq_true, bne_iff_ne,
    List.isPrefixOf_iff_prefix]
  cases text with
  | nil => simp
  | cons c text =>
    constructor
    · rintro ⟨rest, ⟨start, rfl⟩, nonempty, within⟩
      exact ⟨c :: start, rest, List.cons_ne_nil c start, nonempty, rfl, within⟩
    · rintro ⟨start, rest, started, nonempty, whole, within⟩
      obtain ⟨d, start, rfl⟩ := List.exists_cons_of_ne_nil started
      exact ⟨rest, ⟨start, (List.cons.inj whole).2.symm⟩, nonempty, within⟩

/-- The characters that columns may hold, but for the last one. -/
def isWritable (compact : Bool) (c : Char) : Bool :=
  c != '\n' && c != '\r' && !(compact && isStripped c)

/-- Whether two different rows may be written alike. Columns must be able to hold the separator. Then it
overlaps itself and has no quotes of either kind, or it has nothing but double quotes, or it looks like
the end of a quoted field and the start of another. -/
def clashes (compact : Bool) (separator : List Char) : Bool :=
  separator.all (isWritable compact) &&
    ((!separator.contains '"' && !separator.contains '\x27' && overlapsItself separator) ||
      separator.all (· == '"') || isDoubled ('"' :: (separator ++ ['"'])))

/-- A separator that may follow itself after text without quotes overlaps itself. -/
theorem overlapsItself_of_shift {separator piece rest more : List Char} (nonempty : piece ≠ [])
    (free : '"' ∉ piece) (absent : ¬ separator <:+: piece)
    (same : separator ++ rest = piece ++ (separator ++ more)) :
    '"' ∉ separator ∧ overlapsItself separator = true := by
  constructor
  · intro member
    have place := congrArg (List.idxOf '"') same
    rw [List.idxOf_append_of_mem member, List.idxOf_append_of_notMem free,
      List.idxOf_append_of_mem member] at place
    have positive := List.length_pos_iff.mpr nonempty
    omega
  · rcases List.append_eq_append_iff.mp same with ⟨last, whole, _⟩ | ⟨later, whole, after⟩
    · rw [whole] at absent
      exact absurd (List.prefix_append separator last).isInfix absent
    · have within : later <+: separator := by
        apply List.prefix_of_prefix_length_le (List.prefix_append later rest)
        · rw [← after]
          exact List.prefix_append separator more
        · rw [whole, List.length_append]
          omega
      refine overlapsItself_iff.mpr ⟨piece, later, nonempty, ?_, whole, within⟩
      rintro rfl
      rw [whole, List.append_nil] at absent
      exact absent List.infix_rfl

/-- Where a separator may follow itself after quoted text, it starts with an odd run of quotes, and its
rest may follow itself after doubled text. -/
theorem exists_turned_of_shift {count : Nat} {c : Char} {piece rest more : List Char}
    (noQuote : c ≠ '"') (same : List.replicate count '"' ++ c :: rest =
      '"' :: (doubled piece ++ '"' :: (List.replicate count '"' ++ c :: more))) :
    ∃ half turned, count = 2 * half + 1 ∧ rest = doubled turned ++ more ∧ c ∈ turned ∧
      half < turned.count '"' ∧ ∀ d ∈ turned, d = '"' ∨ d ∈ piece := by
  obtain ⟨half, rfl | ⟨d, later, other, rfl⟩⟩ := exists_run piece
  · rw [quoted_replicate, ← List.append_assoc, List.replicate_append_replicate] at same
    have counts := (run_inj noQuote noQuote same).1
    omega
  · rw [quoted_run other] at same
    obtain ⟨rfl, rfl, rfl⟩ := run_inj noQuote other same
    refine ⟨half, later ++ (List.replicate (half + 1) '"' ++ [c]), rfl, ?_, by simp, ?_, ?_⟩
    · rw [doubled_append, doubled_append, doubled_replicate, doubled_cons noQuote, Nat.mul_succ]
      simp [List.replicate_succ, doubled]
    · rw [List.count_append, List.count_append, List.count_replicate_self]
      omega
    · intro d member
      simp only [List.mem_append, List.mem_cons, List.not_mem_nil, or_false] at member ⊢
      rcases member with inLater | isQuote | rfl
      · exact .inr (.inr (.inr inLater))
      · exact .inl (List.eq_of_mem_replicate isQuote)
      · exact .inr (.inr (.inl rfl))

/-- A quoted field starts a line with an odd run of quotes, or the line has nothing else. -/
theorem exists_run_of_quoted {half : Nat} {c : Char} {after : List Char} (noQuote : c ≠ '"')
    (ends : after = [] ∨ ∃ more, after = List.replicate (2 * half + 1) '"' ++ c :: more)
    (field : List Char) :
    (∃ number, '"' :: (doubled field ++ '"' :: after) = List.replicate number '"') ∨
      ∃ number d more, d ≠ '"' ∧ '"' :: (doubled field ++ '"' :: after) =
        List.replicate (2 * number + 1) '"' ++ d :: more := by
  obtain ⟨number, rfl | ⟨d, later, other, rfl⟩⟩ := exists_run field
  · rw [quoted_replicate]
    rcases ends with rfl | ⟨more, rfl⟩
    · exact .inl ⟨2 * (number + 1), List.append_nil _⟩
    · refine .inr ⟨number + 1 + half, c, more, noQuote, ?_⟩
      rw [← List.append_assoc, List.replicate_append_replicate, Nat.mul_add 2 (number + 1),
        Nat.add_assoc]
  · exact .inr ⟨number, d, doubled later ++ '"' :: after, other, quoted_run other number later _⟩

/-- A line does not start with doubled text that has some other character and more than half the quotes
that the separator starts with. -/
theorem lineOf_ne_doubled {half : Nat} {c d : Char} {tail text rest : List Char}
    {fields : List (List Char)} (others : fields ≠ []) (noQuote : c ≠ '"') (other : d ≠ '"')
    (member : d ∈ text) (many : half < text.count '"') :
    lineOf (List.replicate (2 * half + 1) '"' ++ c :: tail) fields ≠ doubled text ++ rest := by
  obtain ⟨field, fields, rfl⟩ := List.exists_cons_of_ne_nil others
  obtain ⟨after, line, ends⟩ :=
    exists_lineOf_eq (List.replicate (2 * half + 1) '"' ++ c :: tail) field fields
  simp only [List.append_assoc, List.cons_append] at ends
  have holds : '"' ∈ text := List.count_pos_iff.mp (Nat.zero_lt_of_lt many)
  intro same
  rw [line] at same
  rcases quoted_cases (List.replicate (2 * half + 1) '"' ++ c :: tail) field with
    inQuotes | ⟨plain, free, _⟩
  · have ends : after = [] ∨ ∃ more, after = List.replicate (2 * half + 1) '"' ++ c :: more :=
      ends.imp_right fun ⟨more, whole⟩ => ⟨tail ++ more, whole⟩
    rw [inQuotes, List.cons_append, List.append_assoc, List.singleton_append] at same
    rcases exists_run_of_quoted noQuote ends field with
      ⟨number, run⟩ | ⟨number, e, more, noQuoteToo, run⟩
    · have inside : d ∈ List.replicate number '"' := by
        rw [← run, same]
        exact List.mem_append_left rest (mem_doubled.mpr member)
      exact other (List.eq_of_mem_replicate inside)
    · have same : doubled text ++ rest =
          [] ++ (List.replicate (2 * number + 1) '"' ++ e :: more) := same.symm.trans run
      obtain ⟨_, _, rfl⟩ := doubled_append_eq_run same List.not_mem_nil noQuoteToo holds
      exact other (List.eq_of_mem_replicate member)
  · rw [plain] at same
    rcases ends with rfl | ⟨more, rfl⟩
    · rw [List.append_nil] at same
      rw [same] at free
      exact free (List.mem_append_left rest (mem_doubled.mpr holds))
    · obtain ⟨number, most, rfl⟩ := doubled_append_eq_run same.symm free noQuote holds
      rw [List.count_append, List.count_eq_zero_of_not_mem free, List.count_replicate_self] at many
      omega

/-- A separator that may follow itself after quoted text has nothing but quotes, or looks like the end of
a quoted field and the start of another. -/
theorem isDoubled_of_shift {separator piece more : List Char} {fields : List (List Char)}
    (others : fields ≠ []) (same : separator ++ lineOf separator fields =
      '"' :: (doubled piece ++ '"' :: (separator ++ more))) :
    (separator.all (· == '"') = true ∨ isDoubled ('"' :: (separator ++ ['"'])) = true) ∧
      ∀ c ∈ separator, c = '"' ∨ c ∈ piece := by
  obtain ⟨count, rfl | ⟨c, tail, noQuote, rfl⟩⟩ := exists_run separator
  · refine ⟨.inl (by simp), ?_⟩
    intro c member
    exact .inl (List.eq_of_mem_replicate member)
  · simp only [List.append_assoc, List.cons_append] at same
    obtain ⟨half, turned, rfl, after, member, many, inPiece⟩ := exists_turned_of_shift noQuote same
    have nonempty : doubled turned ≠ [] := List.ne_nil_of_mem (mem_doubled.mpr member)
    refine ⟨.inr ?_, ?_⟩
    · obtain ⟨number, start, last, split, repeated, line⟩ := exists_period after nonempty
      -- If the repetition broke off between characters, the next line would start with what is left of
      -- it and its beginning: the same characters, so too many quotes for any line.
      rcases append_eq_doubled split.symm with ⟨left, right, rfl, rfl, rfl⟩ | ⟨left, closed⟩
      · rw [← List.append_assoc, ← doubled_append] at line
        refine absurd line (lineOf_ne_doubled others noQuote noQuote ?_ ?_)
        · exact List.perm_append_comm.mem_iff.mp member
        · rwa [← List.perm_append_comm.count_eq]
      · refine isDoubled_iff.mpr ⟨List.replicate (half + 1) '"' ++
          c :: ((List.replicate number turned).flatten ++ left), ?_⟩
        rw [doubled_append, doubled_replicate, doubled_cons noQuote, doubled_append,
          doubled_flatten_replicate, ← closed, repeated, Nat.mul_succ]
        simp [List.replicate_succ]
    · intro d inSeparator
      rw [List.mem_append, List.mem_cons] at inSeparator
      rcases inSeparator with isQuote | rfl | inTail
      · exact .inl (List.eq_of_mem_replicate isQuote)
      · exact inPiece d member
      · exact inPiece d (mem_doubled.mp (mem_of_period after nonempty inTail))

/-! ### Telling rows apart -/

section
variable {compact : Bool} {separator : List Char}

theorem isWritable_quote : isWritable compact '"' = true := by
  cases compact <;> decide

/-- Of two lines with the same text, neither starts with a longer field than the other. -/
theorem eq_of_longer (clear : clashes compact separator = false) {first second rest more : List Char}
    (writable : ∀ c ∈ second, isWritable compact c = true) {fields : List (List Char)}
    (others : fields ≠ []) (longer : quoted separator second = quoted separator first ++ rest)
    (same : separator ++ lineOf separator fields = rest ++ (separator ++ more)) :
    first = second ∧ rest = [] := by
  rw [clashes, Bool.and_eq_false_imp, Bool.or_eq_false_iff, Bool.or_eq_false_iff,
    List.all_eq_true] at clear
  rcases quoted_append longer with
    equal | ⟨nonempty, atEnd, noQuote, noApostrophe, absent⟩ | ⟨piece, atEnd, rfl⟩
  · exact equal
  · have free {c : Char} (notIn : c ∉ second) : c ∉ rest := fun member => notIn (atEnd.subset member)
    obtain ⟨noQuoteToo, overlaps⟩ := overlapsItself_of_shift nonempty (free noQuote)
      (fun inside => absent (inside.trans atEnd.isInfix)) same
    have inRest {c : Char} (member : c ∈ separator) : c ∈ rest := mem_of_period same nonempty member
    have noApostropheToo : '\x27' ∉ separator := fun member => free noApostrophe (inRest member)
    have held := (clear fun c member => writable c (atEnd.subset (inRest member))).1.1
    simp [noQuoteToo, noApostropheToo, overlaps] at held
  · rw [List.cons_append, List.append_assoc, List.singleton_append] at same
    obtain ⟨closes, inPiece⟩ := isDoubled_of_shift others same
    have held := clear (by
      intro c member
      rcases inPiece c member with rfl | inside
      · exact isWritable_quote
      · exact writable c (atEnd.subset inside))
    rcases closes with allQuotes | paired
    · rw [allQuotes] at held
      cases held.1.2
    · rw [paired] at held
      cases held.2

/-- The fields of a line are known from its text, if all but the last can be columns. -/
theorem lineOf_inj (clear : clashes compact separator = false) {first second : List (List Char)}
    (lengths : first.length = second.length)
    (writable : ∀ field ∈ first ++ second, ∀ c ∈ field, isWritable compact c = true)
    {last final : List Char}
    (same : lineOf separator (first ++ [last]) = lineOf separator (second ++ [final])) :
    first ++ [last] = second ++ [final] := by
  induction first generalizing second with
  | nil =>
    obtain rfl := List.length_eq_zero_iff.mp lengths.symm
    rw [List.nil_append, List.nil_append, lineOf_singleton, lineOf_singleton] at same
    have whole : quoted separator final = quoted separator last ++ [] := by
      rw [List.append_nil, same]
    rcases quoted_append whole with ⟨rfl, _⟩ | ⟨nonempty, _⟩ | ⟨_, _, impossible⟩
    · rfl
    · exact absurd rfl nonempty
    · cases impossible
  | cons field fields ih =>
    cases second with
    | nil => cases lengths
    | cons other others =>
      have more (fields : List (List Char)) (last : List Char) : fields ++ [last] ≠ [] :=
        List.append_ne_nil_of_right_ne_nil fields (List.cons_ne_nil last [])
      rw [List.cons_append, List.cons_append, lineOf_cons _ _ (more fields last),
        lineOf_cons _ _ (more others final)] at same
      have heads : field = other := by
        rcases List.append_eq_append_iff.mp same with ⟨rest, longer, after⟩ | ⟨rest, longer, after⟩
        · exact (eq_of_longer clear (writable other (by simp)) (more fields last) longer after).1
        · exact (eq_of_longer clear (writable field (by simp)) (more others final) longer after).1.symm
      subst heads
      have later : ∀ field ∈ fields ++ others, ∀ c ∈ field, isWritable compact c = true := by
        intro field member
        apply writable field
        simp only [List.mem_append, List.mem_cons] at member ⊢
        exact member.imp .inr .inr
      rw [List.cons_append, List.cons_append, ih (Nat.succ.inj lengths) later
        (List.append_cancel_left (List.append_cancel_left same))]

end

theorem ReportRow.toList_render (row : ReportRow) (settings : ReportSettings) :
    (row.render settings).toList = lineOf settings.separator.toList (row.fields settings.compact) := by
  simp [ReportRow.render, Text.joined, String.toList_intercalate, lineOf, Function.comp_def]

/-- A column as a row holds it. -/
def columnText (compact : Bool) (column : String) : List Char :=
  if compact then compacted (flattened column.toList) else flattened column.toList

theorem isWritable_of_mem_column {compact : Bool} {column : String} {c : Char}
    (member : c ∈ columnText compact column) : isWritable compact c = true := by
  have unbroken {text : List Char} (inside : c ∈ flattened text) : c ≠ '\n' ∧ c ≠ '\r' := by
    constructor
    · rintro rfl
      exact not_mem_flattened_of_isBreak (.inl rfl) text inside
    · rintro rfl
      exact not_mem_flattened_of_isBreak (.inr rfl) text inside
  cases compact with
  | false => simp [isWritable, unbroken member]
  | true =>
    obtain ⟨inside, kept⟩ := List.mem_filter.mp member
    simp only [Bool.not_eq_true'] at kept
    simp [isWritable, unbroken inside, kept]

theorem columnText_ofList {compact : Bool} {text : List Char}
    (writable : ∀ c ∈ text, isWritable compact c = true) :
    columnText compact (String.ofList text) = text := by
  have flat : flattened text = text := by
    apply flattened_eq
    · intro member
      exact absurd (writable _ member) (by cases compact <;> decide)
    · intro member
      exact absurd (writable _ member) (by cases compact <;> decide)
  rw [columnText, String.toList_ofList, flat]
  cases compact with
  | false => rfl
  | true =>
    apply List.filter_eq_self.mpr
    intro c member
    have kept := writable c member
    rw [isWritable, Bool.and_eq_true] at kept
    exact kept.2

/-! ### Rows that are written alike -/

/-- Two lines of three columns that are different and yet the same text. -/
structure Alike (compact : Bool) (separator : List Char) (first second : List (List Char)) : Prop where
  three : first.length = 3
  threeToo : second.length = 3
  writable : ∀ c ∈ (first ++ second).flatten, isWritable compact c = true
  differ : first ≠ second
  same : lineOf separator first = lineOf separator second

theorem quoted_apostrophe {separator field : List Char} (member : '\x27' ∈ field) :
    quoted separator field = '"' :: (doubled field ++ ['"']) := by
  rcases quoted_cases separator field with inQuotes | ⟨_, _, absent, _⟩
  · exact inQuotes
  · exact absurd member absent

theorem quoted_plain {separator field : List Char} (noQuote : '"' ∉ field) (noApostrophe : '\x27' ∉ field)
    (absent : ¬ separator <:+: field) : quoted separator field = field := by
  rw [quoted, if_neg]
  simp [needsQuotes, noQuote, noApostrophe, Text.occurs_iff, absent]

theorem lineOf_three (separator first second third : List Char) :
    lineOf separator [first, second, third] = quoted separator first ++ (separator ++
      (quoted separator second ++ (separator ++ quoted separator third))) := by
  rw [lineOf_cons separator first (List.cons_ne_nil _ _),
    lineOf_cons separator second (List.cons_ne_nil _ _), lineOf_singleton]

section
variable {compact : Bool} {separator : List Char}

/-- What precedes the overlap may stand before a separator, and what follows it after one. -/
theorem exists_alike_of_overlapsItself (writable : ∀ c ∈ separator, isWritable compact c = true)
    (noQuote : '"' ∉ separator) (noApostrophe : '\x27' ∉ separator)
    (overlaps : overlapsItself separator = true) :
    ∃ first second, Alike compact separator first second := by
  obtain ⟨start, rest, started, nonempty, whole, ⟨last, wholeToo⟩⟩ := overlapsItself_iff.mp overlaps
  have plain {part : List Char} (inside : part ⊆ separator) (shorter : part.length < separator.length) :
      quoted separator part = part := by
    refine quoted_plain (fun member => noQuote (inside member))
      (fun member => noApostrophe (inside member)) ?_
    intro within
    exact absurd within.length_le (Nat.not_le_of_lt shorter)
  have positive := List.length_pos_iff.mpr nonempty
  have lengths := congrArg List.length whole
  have lengthsToo := congrArg List.length wholeToo
  rw [List.length_append] at lengths lengthsToo
  have startIn : start ⊆ separator := whole ▸ List.subset_append_left start rest
  have lastIn : last ⊆ separator := wholeToo ▸ List.subset_append_right rest last
  have moved : start ++ separator = separator ++ last := by
    calc
      start ++ separator = start ++ (rest ++ last) := by rw [wholeToo]
      _ = separator ++ last := by rw [← List.append_assoc, ← whole]
  refine ⟨[start, [], []], [[], last, []], rfl, rfl, ?_, ?_, ?_⟩
  · intro c member
    have either : c ∈ start ∨ c ∈ last := by simpa using member
    exact writable c (either.elim (@startIn c) (@lastIn c))
  · intro equal
    exact started (List.cons.inj equal).1
  · rw [lineOf_three, lineOf_three, plain startIn (by omega), plain lastIn (by omega),
      plain (List.nil_subset _) (by rw [List.length_nil]; omega), ← List.append_assoc, moved]
    simp

/-- A separator of quotes does not tell on which side of it a quote is. -/
theorem exists_alike_of_quotes (allQuotes : separator.all (· == '"') = true) :
    ∃ first second, Alike compact separator first second := by
  refine ⟨[['"'], [], []], [[], ['"'], []], rfl, rfl, ?_, by decide, ?_⟩
  · intro c member
    have isQuote : c = '"' := by simpa using member
    rw [isQuote]
    exact isWritable_quote
  · have quote : quoted separator ['"'] = List.replicate 4 '"' := rfl
    obtain ⟨empty, isEmpty⟩ : ∃ count, quoted separator [] = List.replicate count '"' := by
      rcases quoted_cases separator [] with inQuotes | ⟨plain, _⟩
      · exact ⟨2, inQuotes⟩
      · exact ⟨0, plain⟩
    obtain ⟨count, rfl⟩ : ∃ count, separator = List.replicate count '"' := by
      refine ⟨separator.length, List.eq_replicate_of_mem ?_⟩
      simpa using allQuotes
    rw [lineOf_three, lineOf_three, quote, isEmpty]
    simp only [List.replicate_append_replicate]
    congr 1
    omega

/-- A quoted field may look like two of them with a separator between. -/
theorem exists_alike_of_isDoubled (writable : ∀ c ∈ separator, isWritable compact c = true)
    (paired : isDoubled ('"' :: (separator ++ ['"'])) = true) :
    ∃ first second, Alike compact separator first second := by
  obtain ⟨single, closes⟩ := isDoubled_iff.mp paired
  refine ⟨[['\x27'], ['\x27'], '\x27' :: (single ++ ['\x27'])],
    ['\x27' :: (single ++ ['\x27']), ['\x27'], ['\x27']], rfl, rfl, ?_, ?_, ?_⟩
  · intro c member
    have either : c = '\x27' ∨ c ∈ single := by
      simp only [List.flatten_append, List.flatten_cons, List.flatten_nil, List.mem_append,
        List.mem_cons, List.not_mem_nil] at member
      tauto
    rw [← mem_doubled, ← closes] at either
    simp only [List.mem_cons, List.mem_append, List.not_mem_nil, or_false] at either
    rcases either with rfl | rfl | inside | rfl
    · cases compact <;> decide
    · exact isWritable_quote
    · exact writable c inside
    · exact isWritable_quote
  · intro equal
    have short : [] = single ++ ['\x27'] := (List.cons.inj (List.cons.inj equal).1).2
    simp at short
  · have around : doubled ('\x27' :: (single ++ ['\x27'])) =
        '\x27' :: '"' :: (separator ++ ['"', '\x27']) := by
      rw [doubled_cons (by decide), doubled_append, ← closes]
      simp [doubled]
    rw [lineOf_three, lineOf_three, quoted_apostrophe List.mem_cons_self,
      quoted_apostrophe List.mem_cons_self, around]
    simp [doubled]

end

/-- A row with three texts of its own. -/
def namedRow (project commit className : List Char) : ReportRow where
  record :=
    { project := ⟨String.ofList project, none⟩
      commit := ⟨"", "", "", String.ofList commit⟩
      className := String.ofList className
      signature := ⟨"Pier", "moor", ["Hull"], by decide, by decide, by decide⟩
      lines := {} }
  entryPoints := []

theorem fields_namedRow {compact : Bool} {project commit className : List Char}
    (writable : ∀ c ∈ [project, commit, className].flatten, isWritable compact c = true) :
    (namedRow project commit className).fields compact =
      [project, commit, className] ++ ((namedRow [] [] []).fields compact).drop 3 := by
  have column {text : List Char} (member : text ∈ [project, commit, className]) :
      columnText compact (String.ofList text) = text :=
    columnText_ofList fun c inside => writable c (List.mem_flatten_of_mem member inside)
  have fields : (namedRow project commit className).fields compact =
      [columnText compact (String.ofList project), columnText compact (String.ofList commit),
        columnText compact (String.ofList className)] ++
        ((namedRow [] [] []).fields compact).drop 3 := rfl
  rw [fields, column (by simp), column (by simp), column (by simp)]

theorem lineOf_append (separator : List Char) {first second : List (List Char)} (nonempty : first ≠ [])
    (others : second ≠ []) : lineOf separator (first ++ second) =
      lineOf separator first ++ (separator ++ lineOf separator second) := by
  induction first with
  | nil => exact absurd rfl nonempty
  | cons field fields ih =>
    rw [List.cons_append, lineOf_cons separator field (by simp [others])]
    by_cases last : fields = []
    · rw [last, List.nil_append, lineOf_singleton]
    · rw [ih last, lineOf_cons separator field last, List.append_assoc, List.append_assoc]

/-- Lines that are alike start rows that are written alike. -/
theorem Alike.exists_rows {settings : ReportSettings} {first second : List (List Char)}
    (alike : Alike settings.compact settings.separator.toList first second) :
    ∃ left right : ReportRow, left.fields settings.compact ≠ right.fields settings.compact ∧
      left.render settings = right.render settings := by
  obtain ⟨project, commit, className, rfl⟩ := List.length_eq_three.mp alike.three
  obtain ⟨otherProject, otherCommit, otherClass, rfl⟩ := List.length_eq_three.mp alike.threeToo
  have fields := fields_namedRow fun c member =>
    alike.writable c (by rw [List.flatten_append]; exact List.mem_append_left _ member)
  have otherFields := fields_namedRow fun c member =>
    alike.writable c (by rw [List.flatten_append]; exact List.mem_append_right _ member)
  refine ⟨namedRow project commit className, namedRow otherProject otherCommit otherClass, ?_, ?_⟩
  · rw [fields, otherFields]
    exact fun equal => alike.differ (List.append_cancel_right equal)
  · have others : ((namedRow [] [] []).fields settings.compact).drop 3 ≠ [] := List.cons_ne_nil _ _
    apply String.toList_inj.mp
    rw [ReportRow.toList_render, ReportRow.toList_render, fields, otherFields,
      lineOf_append _ (List.cons_ne_nil _ _) others, lineOf_append _ (List.cons_ne_nil _ _) others,
      alike.same]

theorem exists_alike {compact : Bool} {separator : List Char}
    (clash : clashes compact separator = true) :
    ∃ first second, Alike compact separator first second := by
  rw [clashes, Bool.and_eq_true, List.all_eq_true, Bool.or_eq_true, Bool.or_eq_true,
    Bool.and_eq_true, Bool.and_eq_true] at clash
  obtain ⟨writable, (⟨⟨noQuote, noApostrophe⟩, overlaps⟩ | allQuotes) | paired⟩ := clash
  · exact exists_alike_of_overlapsItself writable (by simpa using noQuote) (by simpa using noApostrophe)
      overlaps
  · exact exists_alike_of_quotes allQuotes
  · exact exists_alike_of_isDoubled writable paired

theorem ReportRow.fields_eq (row : ReportRow) (compact : Bool) : row.fields compact =
    row.columns.map (columnText compact) ++ [flattened row.lastColumn.toList] :=
  rfl

/-- Rows with different columns are written differently, whatever they are, exactly if the separator
does not clash with the way fields are written. -/
theorem render_ne_iff (settings : ReportSettings) :
    (∀ first second : ReportRow,
      first.fields settings.compact ≠ second.fields settings.compact →
      first.render settings ≠ second.render settings) ↔
    clashes settings.compact settings.separator.toList = false := by
  constructor
  · intro apart
    rw [Bool.eq_false_iff]
    intro clash
    obtain ⟨first, second, alike⟩ := exists_alike clash
    obtain ⟨left, right, differ, same⟩ := alike.exists_rows
    exact apart left right differ same
  · intro clear first second differ same
    apply differ
    have lines := congrArg String.toList same
    rw [first.toList_render, second.toList_render, first.fields_eq, second.fields_eq] at lines
    rw [first.fields_eq, second.fields_eq]
    refine lineOf_inj clear ?_ ?_ lines
    · rfl
    · intro field member c inField
      rw [← List.map_append, List.mem_map] at member
      obtain ⟨column, _, rfl⟩ := member
      exact isWritable_of_mem_column inField

example : clashes true "; ;".toList = false ∧ clashes false "; ;".toList = true ∧
    clashes false "\";".toList = false ∧ clashes false "\";\"".toList = true := by
  decide

def pairedSettings : ReportSettings where
  separator := ";;"

/-- Rows with different columns may be written alike. -/
theorem rows_written_alike :
    ¬ ∀ (settings : ReportSettings), settings.separator ≠ "" → ∀ first second : ReportRow,
      first.fields settings.compact ≠ second.fields settings.compact →
      first.render settings ≠ second.render settings := by
  intro apart
  refine apart pairedSettings (by decide) (namedRow [';'] [] []) (namedRow [] [';'] []) ?_ ?_
  · decide
  · decide +kernel

end MergeRisk.Report
