import Mathlib.Data.List.Infix
import MergeRisk.Report.Separated

/-! Lines of fields between separators of any length: what follows where the text of one field starts
with that of another, and what repetition and runs of quotes say about such texts. -/

namespace MergeRisk.Report

/-! ### Doubled quotes -/

theorem doubled_cons_quote (text : List Char) : doubled ('"' :: text) = '"' :: '"' :: doubled text :=
  rfl

theorem doubled_cons {c : Char} (noQuote : c ≠ '"') (text : List Char) :
    doubled (c :: text) = c :: doubled text := by
  rw [doubled, List.flatMap_cons, if_neg noQuote]
  rfl

theorem doubled_append (first second : List Char) :
    doubled (first ++ second) = doubled first ++ doubled second :=
  List.flatMap_append

theorem doubled_replicate (count : Nat) :
    doubled (List.replicate count '"') = List.replicate (2 * count) '"' := by
  induction count with
  | zero => rfl
  | succ count ih =>
    rw [List.replicate_succ, doubled_cons_quote, ih]
    rfl

theorem doubled_flatten_replicate (count : Nat) (text : List Char) :
    doubled (List.replicate count text).flatten = (List.replicate count (doubled text)).flatten := by
  induction count with
  | zero => rfl
  | succ count ih =>
    rw [List.replicate_succ, List.replicate_succ, List.flatten_cons, List.flatten_cons, doubled_append,
      ih]

theorem mem_doubled {c : Char} {text : List Char} : c ∈ doubled text ↔ c ∈ text := by
  induction text with
  | nil => rfl
  | cons d text ih =>
    by_cases isQuote : d = '"'
    · simp [isQuote, doubled_cons_quote, ih]
    · simp [doubled_cons isQuote, ih]

/-- Whether quotes stand in pairs. -/
def isDoubled : List Char → Bool
  | [] => true
  | '"' :: '"' :: text => isDoubled text
  | '"' :: _ => false
  | _ :: text => isDoubled text

theorem isDoubled_iff {text : List Char} : isDoubled text = true ↔ ∃ single, text = doubled single := by
  constructor
  · intro paired
    fun_induction isDoubled text with
    | case1 => exact ⟨[], rfl⟩
    | case2 text ih =>
      obtain ⟨single, rfl⟩ := ih paired
      exact ⟨'"' :: single, rfl⟩
    | case3 => cases paired
    | case4 c text _ other ih =>
      obtain ⟨single, rfl⟩ := ih paired
      exact ⟨c :: single, (doubled_cons (fun isQuote => other isQuote) single).symm⟩
  · rintro ⟨single, rfl⟩
    induction single with
    | nil => rfl
    | cons c single ih =>
      by_cases isQuote : c = '"'
      · rw [isQuote, doubled_cons_quote, isDoubled, ih]
      · rw [doubled_cons isQuote, isDoubled, ih]
        · exact fun _ isQuote' => absurd isQuote' isQuote
        · exact isQuote

/-- Where a quoted field starts with another one, it is the same or goes on with a quote. -/
theorem doubled_closed {first second rest : List Char}
    (same : doubled first ++ '"' :: rest = doubled second ++ ['"']) :
    (first = second ∧ rest = []) ∨
      ∃ more, second = first ++ '"' :: more ∧ rest = '"' :: (doubled more ++ ['"']) := by
  induction first generalizing second with
  | nil =>
    cases second with
    | nil => exact .inl ⟨rfl, (List.cons.inj same).2⟩
    | cons d second =>
      rcases eq_or_ne d '"' with rfl | other
      · exact .inr ⟨second, rfl, (List.cons.inj same).2⟩
      · rw [doubled_cons other] at same
        exact absurd (List.cons.inj same).1.symm other
  | cons c first ih =>
    have step {second : List Char} (later : doubled first ++ '"' :: rest = doubled second ++ ['"']) :
        (c :: first = c :: second ∧ rest = []) ∨ ∃ more, c :: second = c :: first ++ '"' :: more ∧
          rest = '"' :: (doubled more ++ ['"']) := by
      simpa using ih later
    rcases eq_or_ne c '"' with rfl | noQuote
    · cases second with
      | nil => simp [doubled] at same
      | cons d second =>
        rcases eq_or_ne d '"' with rfl | other
        · exact step (by simpa [doubled_cons_quote] using same)
        · rw [doubled_cons_quote, doubled_cons other] at same
          exact absurd (List.cons.inj same).1.symm other
    · rw [doubled_cons noQuote] at same
      cases second with
      | nil => exact absurd (List.cons.inj same).1 noQuote
      | cons d second =>
        rcases eq_or_ne d '"' with rfl | other
        · exact absurd (List.cons.inj same).1 noQuote
        · rw [doubled_cons other] at same
          obtain ⟨rfl, later⟩ := List.cons.inj same
          exact step later

/-- A doubled text is cut between characters or within a pair of quotes. -/
theorem append_eq_doubled {first second text : List Char} (same : first ++ second = doubled text) :
    (∃ start rest, text = start ++ rest ∧ first = doubled start ∧ second = doubled rest) ∨
      ∃ start, first ++ ['"'] = doubled start := by
  induction text generalizing first with
  | nil =>
    obtain ⟨rfl, rfl⟩ := List.append_eq_nil_iff.mp same
    exact .inl ⟨[], [], rfl, rfl, rfl⟩
  | cons c text ih =>
    have step {first : List Char} (later : first ++ second = doubled text) :
        (∃ start rest, c :: text = start ++ rest ∧ doubled [c] ++ first = doubled start ∧
          second = doubled rest) ∨ ∃ start, doubled [c] ++ first ++ ['"'] = doubled start := by
      rcases ih later with ⟨start, rest, rfl, rfl, rfl⟩ | ⟨start, closed⟩
      · exact .inl ⟨c :: start, rest, rfl, (doubled_append [c] start).symm, rfl⟩
      · exact .inr ⟨c :: start, by rw [List.append_assoc, closed, ← doubled_append]; rfl⟩
    cases first with
    | nil => exact .inl ⟨[], c :: text, rfl, rfl, same⟩
    | cons d first =>
      rcases eq_or_ne c '"' with rfl | noQuote
      · obtain ⟨rfl, afterOne⟩ := List.cons.inj same
        cases first with
        | nil => exact .inr ⟨['"'], rfl⟩
        | cons e first =>
          obtain ⟨rfl, afterBoth⟩ := List.cons.inj afterOne
          exact step afterBoth
      · rw [doubled_cons noQuote] at same
        obtain ⟨rfl, later⟩ := List.cons.inj same
        have alone : doubled [d] = [d] := doubled_cons noQuote []
        have result := step later
        rwa [alone] at result

/-! ### Periods -/

/-- A text that goes on as itself after some piece repeats that piece. -/
theorem exists_period {text rest piece more : List Char}
    (same : text ++ rest = piece ++ (text ++ more)) (nonempty : piece ≠ []) :
    ∃ count start last, piece = start ++ last ∧
      text = (List.replicate count piece).flatten ++ start ∧ rest = last ++ (start ++ more) := by
  induction length : text.length using Nat.strong_induction_on generalizing text with
  | _ size ih =>
    rcases List.append_eq_append_iff.mp same with ⟨last, whole, after⟩ | ⟨later, whole, after⟩
    · exact ⟨0, text, last, whole, rfl, by rw [after]⟩
    · have shorter : later.length < size := by
        have positive := List.length_pos_iff.mpr nonempty
        rw [← length, whole, List.length_append]
        omega
      have again : later ++ rest = piece ++ (later ++ more) := by
        rw [← after, whole, List.append_assoc]
      obtain ⟨count, start, last, split, text, rest⟩ := ih later.length shorter again rfl
      refine ⟨count + 1, start, last, split, ?_, rest⟩
      rw [whole, text, List.replicate_succ, List.flatten_cons, List.append_assoc]

theorem mem_of_period {text rest piece more : List Char}
    (same : text ++ rest = piece ++ (text ++ more)) (nonempty : piece ≠ []) {c : Char}
    (member : c ∈ text) : c ∈ piece := by
  obtain ⟨count, start, last, split, rfl, _⟩ := exists_period same nonempty
  rcases List.mem_append.mp member with repeated | atEnd
  · obtain ⟨copy, isPiece, inCopy⟩ := List.mem_flatten.mp repeated
    rwa [List.eq_of_mem_replicate isPiece] at inCopy
  · rw [split]
    exact List.mem_append_left last atEnd

/-! ### Runs of quotes -/

theorem exists_run (text : List Char) : ∃ count, text = List.replicate count '"' ∨
    ∃ c rest, c ≠ '"' ∧ text = List.replicate count '"' ++ c :: rest := by
  induction text with
  | nil => exact ⟨0, .inl rfl⟩
  | cons c text ih =>
    rcases eq_or_ne c '"' with rfl | noQuote
    · obtain ⟨count, rfl | ⟨d, rest, other, rfl⟩⟩ := ih
      · exact ⟨count + 1, .inl rfl⟩
      · exact ⟨count + 1, .inr ⟨d, rest, other, rfl⟩⟩
    · exact ⟨0, .inr ⟨c, text, noQuote, rfl⟩⟩

theorem run_inj {first second : Nat} {c d : Char} {rest more : List Char} (noQuote : c ≠ '"')
    (other : d ≠ '"')
    (same : List.replicate first '"' ++ c :: rest = List.replicate second '"' ++ d :: more) :
    first = second ∧ c = d ∧ rest = more := by
  induction first generalizing second with
  | zero =>
    cases second with
    | zero => exact ⟨rfl, List.cons.inj same⟩
    | succ second => exact absurd (List.cons.inj same).1 noQuote
  | succ first ih =>
    cases second with
    | zero => exact absurd (List.cons.inj same).1.symm other
    | succ second =>
      obtain ⟨counts, rests⟩ := ih (List.cons.inj same).2
      exact ⟨congrArg Nat.succ counts, rests⟩

theorem quoted_replicate (count : Nat) (after : List Char) :
    '"' :: (doubled (List.replicate count '"') ++ '"' :: after) =
      List.replicate (2 * (count + 1)) '"' ++ after := by
  rw [doubled_replicate, Nat.mul_succ, List.replicate_succ, List.cons_append, List.replicate_succ',
    List.append_assoc, List.singleton_append]

theorem quoted_run {d : Char} (noQuote : d ≠ '"') (count : Nat) (text after : List Char) :
    '"' :: (doubled (List.replicate count '"' ++ d :: text) ++ after) =
      List.replicate (2 * count + 1) '"' ++ d :: (doubled text ++ after) := by
  rw [doubled_append, doubled_replicate, doubled_cons noQuote, List.replicate_succ, List.append_assoc,
    List.cons_append, List.cons_append]

/-- A doubled text at the start of a text whose first run of quotes is odd ends within that run. -/
theorem doubled_append_eq_run {text rest start more : List Char} {count : Nat} {c : Char}
    (same : doubled text ++ rest = start ++ (List.replicate (2 * count + 1) '"' ++ c :: more))
    (free : '"' ∉ start) (noQuote : c ≠ '"') (holds : '"' ∈ text) :
    ∃ number ≤ count, text = start ++ List.replicate number '"' := by
  induction start generalizing text with
  | nil =>
    rw [List.nil_append] at same
    obtain ⟨number, rfl | ⟨d, tail, other, rfl⟩⟩ := exists_run text
    · refine ⟨number, ?_, rfl⟩
      rw [doubled_replicate] at same
      obtain ⟨further, rfl | ⟨d, tail, other, rfl⟩⟩ := exists_run rest
      · have inside : c ∈ List.replicate (2 * number) '"' ++ List.replicate further '"' := by
          rw [same]
          exact List.mem_append_right _ List.mem_cons_self
        rw [List.replicate_append_replicate] at inside
        exact absurd (List.eq_of_mem_replicate inside) noQuote
      · rw [← List.append_assoc, List.replicate_append_replicate] at same
        have counts := (run_inj other noQuote same).1
        omega
    · rw [doubled_append, doubled_replicate, doubled_cons other, List.append_assoc,
        List.cons_append] at same
      have counts := (run_inj other noQuote same).1
      omega
  | cons d start ih =>
    rw [List.mem_cons, not_or] at free
    cases text with
    | nil => cases holds
    | cons e text =>
      rcases eq_or_ne e '"' with rfl | other
      · exact absurd (List.cons.inj same).1 free.1
      · rw [doubled_cons other] at same
        obtain ⟨rfl, later⟩ := List.cons.inj same
        obtain ⟨number, most, rfl⟩ := ih later free.2 (List.mem_of_ne_of_mem other.symm holds)
        exact ⟨number, most, rfl⟩

/-! ### Rows -/

/-- Fields as they are written in one line. -/
def lineOf (separator : List Char) (fields : List (List Char)) : List Char :=
  separator.intercalate (fields.map (quoted separator))

theorem lineOf_singleton (separator field : List Char) :
    lineOf separator [field] = quoted separator field :=
  List.intercalate_singleton

theorem lineOf_cons (separator field : List Char) {fields : List (List Char)} (others : fields ≠ []) :
    lineOf separator (field :: fields) =
      quoted separator field ++ (separator ++ lineOf separator fields) := by
  obtain ⟨next, fields, rfl⟩ := List.exists_cons_of_ne_nil others
  rw [lineOf, List.map_cons, List.map_cons, List.intercalate_cons_cons, List.append_assoc]
  rfl

/-- After the first field a line ends, or goes on with a separator. -/
theorem exists_lineOf_eq (separator field : List Char) (fields : List (List Char)) :
    ∃ after, lineOf separator (field :: fields) = quoted separator field ++ after ∧
      (after = [] ∨ ∃ more, after = separator ++ more) := by
  by_cases last : fields = []
  · exact ⟨[], by rw [last, lineOf_singleton, List.append_nil], .inl rfl⟩
  · exact ⟨_, lineOf_cons separator field last, .inr ⟨_, rfl⟩⟩

/-- A field stands in quotes, or has no quote and not the separator. -/
theorem quoted_cases (separator field : List Char) :
    quoted separator field = '"' :: (doubled field ++ ['"']) ∨
      (quoted separator field = field ∧ '"' ∉ field ∧ '\x27' ∉ field ∧ ¬ separator <:+: field) := by
  rw [quoted]
  split
  · exact .inl rfl
  · rename_i free
    simp only [needsQuotes, Bool.or_eq_true, List.contains_iff_mem, Text.occurs_iff, not_or] at free
    exact .inr ⟨rfl, free.1.1, free.1.2, free.2⟩

/-- A written field that starts with another one is the same, or goes on with text of its own that has
no quotes, or goes on with text that is quoted in turn. -/
theorem quoted_append {separator first second rest : List Char}
    (same : quoted separator second = quoted separator first ++ rest) :
    (first = second ∧ rest = []) ∨
      (rest ≠ [] ∧ rest <:+ second ∧ '"' ∉ second ∧ '\x27' ∉ second ∧ ¬ separator <:+: second) ∨
      ∃ more, more <:+ second ∧ rest = '"' :: (doubled more ++ ['"']) := by
  rcases quoted_cases separator second with secondQuoted | ⟨secondFree, noQuote, noApostrophe, absent⟩
  · rw [secondQuoted] at same
    rcases quoted_cases separator first with firstQuoted | ⟨firstFree, noQuote, _⟩
    · rw [firstQuoted, List.cons_append, List.append_assoc] at same
      rcases doubled_closed (List.cons.inj same).2.symm with equal | ⟨more, whole, after⟩
      · exact .inl equal
      · refine .inr (.inr ⟨more, ?_, after⟩)
        rw [whole]
        exact (List.suffix_cons _ _).trans (List.suffix_append _ _)
    · rw [firstFree] at same
      cases first with
      | nil => exact .inr (.inr ⟨second, List.suffix_refl second, same.symm⟩)
      | cons c first =>
        rw [← (List.cons.inj same).1] at noQuote
        exact absurd List.mem_cons_self noQuote
  · rw [secondFree] at same
    rcases quoted_cases separator first with firstQuoted | ⟨firstFree, _⟩
    · rw [same, firstQuoted] at noQuote
      exact absurd List.mem_cons_self noQuote
    · rw [firstFree] at same
      by_cases empty : rest = []
      · rw [empty, List.append_nil] at same
        exact .inl ⟨same.symm, empty⟩
      · refine .inr (.inl ⟨empty, ?_, noQuote, noApostrophe, absent⟩)
        rw [same]
        exact List.suffix_append first rest

end MergeRisk.Report
