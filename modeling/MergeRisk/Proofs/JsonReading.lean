import Mathlib.Data.List.TakeDrop
import Mathlib.Data.Option.Basic
import MergeRisk.Json.Kept
import MergeRisk.Json.Writer
import MergeRisk.Proofs.HunkHeader

/-! Documents read back from their texts. Documents of texts, 32-bit numbers, lists and records are
read as they were written, on one line or indented, and they can be kept. -/

namespace MergeRisk.Json

/-! ### Plain documents -/

/-- Documents of texts, 32-bit numbers, lists and records, nested in at most `levels` levels. -/
inductive Plain : (levels : Nat) → Json → Prop where
  | text {levels : Nat} (value : String) : Plain levels (text value)
  | natural {levels value : Nat} (bound : value ≤ Text.limit32) : Plain levels (.natural value)
  | array {levels : Nat} {items : List Json} (plain : ∀ item ∈ items, Plain levels item) :
      Plain (levels + 1) (.array items)
  | record {levels : Nat} {fields : List (String × Json)}
      (plain : ∀ field ∈ fields, Plain levels field.2) : Plain (levels + 1) (record fields)

/-! ### Gaps -/

def Gap (text : List Char) : Prop :=
  ∀ c ∈ text, isGap c = true

theorem skipGap_append {gap : List Char} (isGap : Gap gap) (rest : List Char) :
    skipGap (gap ++ rest) = skipGap rest :=
  List.dropWhile_append_of_pos isGap

theorem skipGap_cons {c : Char} (noGap : isGap c = false) (rest : List Char) :
    skipGap (c :: rest) = c :: rest :=
  List.dropWhile_cons_of_neg (by simp [noGap])

/-! ### Literals -/

theorem hexDigit?_hexDigit {value : Nat} (bound : value < 16) :
    hexDigit? (hexDigit value) = some value := by
  revert value
  decide

theorem pieces?_escape {c named : Char} (escape : escape? c = some named) {rest : List Char}
    {pieces : List Piece} {left : List Char} (read : pieces? rest = some (pieces, left)) :
    pieces? ('\\' :: c :: rest) = some (.char named :: pieces, left) := by
  have noUnit : c ≠ 'u' := by
    rintro rfl
    cases escape
  simp [pieces?, noUnit, escape, read]

theorem pieces?_plain {c : Char} (noQuote : c ≠ '"') (noEscape : c ≠ '\\')
    (printed : 0x20 ≤ c.toNat) {rest : List Char} {pieces : List Piece} {left : List Char}
    (read : pieces? rest = some (pieces, left)) :
    pieces? (c :: rest) = some (.char c :: pieces, left) := by
  simp [pieces?, guard, noEscape, printed, read]

theorem pieces?_control {value : Nat} (control : value < 0x20)
    {rest : List Char} {pieces : List Piece} {left : List Char}
    (read : pieces? rest = some (pieces, left)) :
    pieces? ('\\' :: 'u' :: '0' :: '0' :: hexDigit (value / 16) :: hexDigit (value % 16) :: rest) =
      some (.unit value :: pieces, left) := by
  have zero : hexDigit? '0' = some 0 := rfl
  have high : hexDigit? (hexDigit (value / 16)) = some (value / 16) :=
    hexDigit?_hexDigit (by omega)
  have low : hexDigit? (hexDigit (value % 16)) = some (value % 16) := hexDigit?_hexDigit (by omega)
  have same : value / 16 * 16 + value % 16 = value := by omega
  simp [pieces?, zero, high, low, read, same]

/-- A unit below the surrogates is a character by itself. -/
theorem joinPieces?_unit {value : Nat} (bound : value < 0x20) (pieces : List Piece) :
    joinPieces? (.unit value :: pieces) = (joinPieces? pieces).map (Char.ofNat value :: ·) := by
  have noHigh : isHigh value = false := by simp [isHigh]; omega
  have noLow : isLow value = false := by simp [isLow]; omega
  cases pieces with
  | nil => simp [joinPieces?, noHigh, noLow]
  | cons piece pieces => cases piece <;> simp [joinPieces?, noHigh, noLow]

/-- An escaped text up to the closing quote. -/
theorem pieces?_escaped (text rest : List Char) :
    ∃ pieces, pieces? (text.flatMap escapedChar ++ '"' :: rest) = some (pieces, rest) ∧
      joinPieces? pieces = some text := by
  induction text with
  | nil => exact ⟨[], by simp [pieces?], rfl⟩
  | cons c text ih =>
    obtain ⟨pieces, read, joined⟩ := ih
    rw [List.flatMap_cons, List.append_assoc]
    have named {letter : Char} (escape : escape? letter = some c) :
        ∃ pieces, pieces? ('\\' :: letter :: (text.flatMap escapedChar ++ '"' :: rest)) =
          some (pieces, rest) ∧ joinPieces? pieces = some (c :: text) :=
      ⟨.char c :: pieces, pieces?_escape escape read, by simp [joinPieces?, joined]⟩
    unfold escapedChar
    split
    -- Seven characters have a letter of their own, then come other control characters.
    · exact named rfl
    · exact named rfl
    · exact named rfl
    · exact named rfl
    · exact named rfl
    · exact named rfl
    · exact named rfl
    · rename_i noQuote noEscape _ _ _ _ _
      split
      · rename_i control
        refine ⟨.unit c.toNat :: pieces, pieces?_control control read, ?_⟩
        rw [joinPieces?_unit control, joined, Option.map_some, Char.ofNat_toNat]
      · rename_i printed
        refine ⟨.char c :: pieces, pieces?_plain noQuote noEscape (by omega) read, ?_⟩
        rw [joinPieces?, joined, Option.map_some]

theorem toList_quote (text : String) :
    (quote text).toList = '"' :: (text.toList.flatMap escapedChar ++ ['"']) := by
  simp [quote]

/-- A quoted text after its opening quote. -/
theorem string?_quoted (text : String) (rest : List Char) :
    string? (text.toList.flatMap escapedChar ++ '"' :: rest) = some (some text, rest) := by
  obtain ⟨pieces, read, joined⟩ := pieces?_escaped text.toList rest
  simp [string?, read, joined]

/-! ### Numbers -/

/-- The digits of a number start with a zero only if the number is zero. -/
theorem head?_toDigits {value : Nat} (positive : 0 < value) :
    (Nat.toDigits 10 value).head? ≠ some '0' := by
  induction value using Nat.strongRecOn with
  | ind value ih =>
    by_cases small : value < 10
    · have digit : ∀ digit < 10, 0 < digit → Nat.digitChar digit ≠ '0' := by decide
      rw [Nat.toDigits_of_lt_base small, List.head?_cons]
      simpa using digit value small positive
    · have leading := ih (value / 10) (by omega) (by omega)
      cases digits : Nat.toDigits 10 (value / 10) with
      | nil => exact absurd digits Nat.toDigits_ne_nil
      | cons c others =>
        rw [digits, List.head?_cons] at leading
        rwa [Nat.toDigits_of_base_le (by decide) (by omega), digits, List.cons_append,
          List.head?_cons]

theorem isDigit_iff {c : Char} : Text.isDigit c = true ↔ c.isDigit = true := by
  rw [Text.isDigit, Text.digit?, Option.isSome_ite, Char.isDigit_iff_toNat]
  exact Iff.rfl

/-- What may follow a value. -/
def isEnd (c : Char) : Bool :=
  isGap c || c == ',' || c == ']' || c == '}'

def Stops (rest : List Char) : Prop :=
  ∀ c ∈ rest.head?, isEnd c = true

/-- A number does not go on where a value stops. -/
theorem Stops.ended {rest : List Char} (stops : Stops rest) {c : Char} (first : c ∈ rest.head?) :
    Text.isDigit c = false ∧ c ≠ '.' ∧ c ≠ 'e' ∧ c ≠ 'E' := by
  have ends := stops c first
  simp only [isEnd, isGap, Bool.or_eq_true, beq_iff_eq] at ends
  rcases ends with (((((rfl | rfl) | rfl) | rfl) | rfl) | rfl) | rfl <;> decide

theorem digits?_append {digits rest : List Char} (nonempty : digits ≠ [])
    (isDigits : ∀ c ∈ digits, Text.isDigit c = true) (stops : Stops rest) :
    digits? (digits ++ rest) = some (digits, rest) := by
  have none : rest.takeWhile Text.isDigit = [] := by
    cases rest with
    | nil => rfl
    | cons c rest => exact List.takeWhile_cons_of_neg (by simp [(stops.ended (c := c) rfl).1])
  have kept : rest.dropWhile Text.isDigit = rest := by
    have parts := List.takeWhile_append_dropWhile (p := Text.isDigit) (l := rest)
    rwa [none, List.nil_append] at parts
  rw [digits?, List.span_eq_takeWhile_dropWhile, List.takeWhile_append_of_pos isDigits,
    List.dropWhile_append_of_pos isDigits, none, kept, List.append_nil]
  simp [nonempty]

theorem fraction?_stops {rest : List Char} (stops : Stops rest) :
    fraction? rest = some ([], rest) := by
  cases rest with
  | nil => rfl
  | cons c rest =>
    have noPoint := (stops.ended (c := c) rfl).2.1
    simp [fraction?, noPoint]

theorem exponent?_stops {rest : List Char} (stops : Stops rest) :
    exponent? rest = some ([], rest) := by
  cases rest with
  | nil => rfl
  | cons c rest =>
    obtain ⟨-, -, noSmall, noLarge⟩ := stops.ended (c := c) rfl
    simp [exponent?, noSmall, noLarge]

theorem number?_spelled (value : Nat) {rest : List Char} (stops : Stops rest) :
    number? ((toString value).toList ++ rest) = some (.natural value, rest) := by
  have spells := Text.Spells.toString value
  have isDigits : ∀ c ∈ (toString value).toList, Text.isDigit c = true :=
    fun c member => isDigit_iff.mpr (spells.digits c member)
  have whole : whole? ((toString value).toList ++ rest) = some ((toString value).toList, rest) := by
    rw [whole?, digits?_append spells.nonempty isDigits stops]
    rcases Nat.eq_zero_or_pos value with rfl | positive
    · rfl
    · simp [guard, head?_toDigits positive]
  cases digits : (toString value).toList with
  | nil => exact absurd digits spells.nonempty
  | cons c others =>
    have unsigned : c ≠ '-' := by
      rintro rfl
      exact spells.not_mem (by decide) (digits ▸ List.mem_cons_self)
    rw [digits] at spells
    rw [digits, List.cons_append] at whole
    simp [number?, unsigned, whole, fraction?_stops stops, exponent?_stops stops, spells.digits?]

/-! ### Values

Reading spends two units of fuel at most for each character of a value, so a text is followed
through with the bound that its length gives. -/

/-- A text that is read as a document wherever it stops. -/
structure Reads (text : List Char) (document : Json) : Prop where
  read : ∀ {fuel : Nat} {rest : List Char}, 2 * text.length ≤ fuel → Stops rest →
    value? fuel (text ++ rest) = some (document, rest)

theorem value?_scalar {c : Char} (noGap : isGap c = false) (noArray : c ≠ '[') (noObject : c ≠ '{')
    (fuel : Nat) (rest : List Char) : value? (fuel + 1) (c :: rest) = scalar? (c :: rest) := by
  simp [value?, skipGap_cons noGap, noArray, noObject]

theorem reads_quote (text : String) : Reads (quote text).toList (.text text) := by
  refine ⟨fun {fuel rest} enough _ => ?_⟩
  rw [toList_quote] at enough ⊢
  obtain ⟨fuel, rfl⟩ : ∃ less, fuel = less + 1 := ⟨fuel - 1, by simp at enough; omega⟩
  rw [List.cons_append, value?_scalar rfl (by decide) (by decide)]
  simp [scalar?, string?_quoted, Json.text]

/-- A digit opens nothing but a number. -/
theorem value?_digit {c : Char} (digit : c.isDigit = true) (fuel : Nat) (rest : List Char) :
    value? (fuel + 1) (c :: rest) = number? (c :: rest) := by
  have different {d : Char} (other : d.isDigit = false) : c ≠ d := by
    rintro rfl
    rw [digit] at other
    cases other
  have noGap : isGap c = false := by
    simp [isGap, different (d := ' ') rfl, different (d := '\t') rfl, different (d := '\n') rfl,
      different (d := '\r') rfl]
  rw [value?_scalar noGap (different rfl) (different rfl)]
  simp [scalar?, different (d := '"') rfl, different (d := 'n') rfl, different (d := 't') rfl,
    different (d := 'f') rfl]

theorem reads_natural (value : Nat) : Reads (toString value).toList (.natural value) := by
  refine ⟨fun {fuel rest} enough stops => ?_⟩
  have spells := Text.Spells.toString value
  have read := number?_spelled value stops
  cases digits : (toString value).toList with
  | nil => exact absurd digits spells.nonempty
  | cons c others =>
    have digit := spells.digits c (digits ▸ List.mem_cons_self)
    rw [digits] at enough read
    obtain ⟨fuel, rfl⟩ : ∃ less, fuel = less + 1 := ⟨fuel - 1, by simp at enough; omega⟩
    rw [List.cons_append, value?_digit digit]
    exact read

theorem Reads.gap {text gap : List Char} {document : Json} (reads : Reads text document)
    (isGap : Gap gap) : Reads (gap ++ text) document := by
  refine ⟨fun {fuel rest} enough stops => ?_⟩
  have inner : value? fuel (text ++ rest) = some (document, rest) :=
    reads.read (by simp at enough; omega) stops
  cases fuel with
  | zero => cases inner
  | succ fuel => rwa [value?, List.append_assoc, skipGap_append isGap]

/-! ### Lists and records -/

theorem stops_cons {c : Char} (ends : isEnd c = true) (rest : List Char) : Stops (c :: rest) := by
  intro first found
  cases found
  exact ends

section
variable {lead closing : List Char} {fuel : Nat}

theorem stops_closing (gap : Gap closing) {c : Char} (ends : isEnd c = true) (rest : List Char) :
    Stops (closing ++ c :: rest) := by
  cases closing with
  | nil => exact stops_cons ends rest
  | cons d closing =>
    have blank : isEnd d = true := by simp [isEnd, gap d List.mem_cons_self]
    exact stops_cons blank _

/-- Parts with commas between them are read one after another, by a reader that can read one part
before a comma and one at the end. -/
theorem read_joined {α β : Type} {reader : Nat → List Char → Option (List β × List Char)}
    {parts : List α} {text : α → List Char} {value : α → β} {ending rest : List Char}
    (last : ∀ part ∈ parts, ∀ {fuel}, 2 * (text part).length ≤ fuel →
      reader (fuel + 1) (text part ++ ending) = some ([value part], rest))
    (next : ∀ part ∈ parts, ∀ {fuel source others}, 2 * (text part).length ≤ fuel →
      reader fuel source = some (others, rest) →
      reader (fuel + 1) (text part ++ ',' :: source) = some (value part :: others, rest))
    (nonempty : parts ≠ [])
    (enough : 2 * ([','].intercalate (parts.map text)).length + 1 ≤ fuel) :
    reader fuel ([','].intercalate (parts.map text) ++ ending) = some (parts.map value, rest) := by
  induction parts generalizing fuel with
  | nil => exact absurd rfl nonempty
  | cons part parts ih =>
    obtain ⟨fuel, rfl⟩ : ∃ less, fuel = less + 1 := ⟨fuel - 1, by omega⟩
    cases parts with
    | nil => simpa using last part List.mem_cons_self (by simpa using enough)
    | cons other parts =>
      have starts : [','].intercalate ((part :: other :: parts).map text) =
          text part ++ ',' :: [','].intercalate ((other :: parts).map text) := by
        simp [List.intercalate_cons_cons]
      rw [starts] at enough ⊢
      rw [List.length_append, List.length_cons] at enough
      -- The comma pays for the unit of fuel that this step spends.
      have enoughLater : 2 * ([','].intercalate ((other :: parts).map text)).length + 1 ≤ fuel := by
        omega
      have others := ih (fun part member => last part (List.mem_cons_of_mem _ member))
        (fun part member => next part (List.mem_cons_of_mem _ member)) (by simp) enoughLater
      rw [List.append_assoc, List.cons_append]
      exact next part List.mem_cons_self (by omega) others

theorem items?_joined (gap : Gap closing) {items : List Json} {text : Json → List Char}
    (reads : ∀ item ∈ items, Reads (text item) item) (nonempty : items ≠ [])
    (enough : 2 * ([','].intercalate (items.map text)).length + 1 ≤ fuel) (rest : List Char) :
    items? fuel ([','].intercalate (items.map text) ++ (closing ++ ']' :: rest)) =
      some (items, rest) := by
  rw [show some (items, rest) = some (items.map id, rest) by rw [List.map_id]]
  refine read_joined ?_ ?_ nonempty enough
  · intro item member fuel enough
    have read := (reads item member).read enough (stops_closing gap (c := ']') rfl rest)
    simp [items?, read, skipGap_append gap, skipGap_cons (c := ']') rfl]
  · intro item member fuel source others enough later
    have read := (reads item member).read enough (stops_cons (c := ',') rfl source)
    simp [items?, read, skipGap_cons (c := ',') rfl, later]

/-- Where items are read, the list is not over before them. -/
theorem value?_items {source rest : List Char} {items : List Json}
    (read : items? fuel source = some (items, rest)) :
    value? (fuel + 1) ('[' :: source) = some (.array items, rest) := by
  have opened : ∀ left, skipGap source ≠ ']' :: left := by
    intro left closing
    -- No value starts with a closing bracket, so no item would have been read.
    have refused : scalar? (']' :: left) = none := rfl
    match fuel with
    | 0 => cases read
    | 1 => cases read
    | fuel + 2 => simp [items?, value?, closing, refused] at read
  simp [value?, skipGap_cons (c := '[') rfl, read]

/-- The text of a list. -/
theorem reads_array (gap : Gap closing) {items : List Json} {text : Json → List Char}
    (reads : ∀ item ∈ items, Reads (text item) item) :
    Reads ('[' :: ([','].intercalate (items.map text) ++ (closing ++ [']']))) (.array items) := by
  refine ⟨fun {fuel rest} enough _ => ?_⟩
  obtain ⟨fuel, rfl⟩ : ∃ less, fuel = less + 1 := ⟨fuel - 1, by simp at enough; omega⟩
  cases items with
  | nil =>
    simp [value?, skipGap_cons (c := '[') rfl, skipGap_append gap, skipGap_cons (c := ']') rfl]
  | cons item items =>
    have enoughInside : 2 * ([','].intercalate ((item :: items).map text)).length + 1 ≤ fuel := by
      simp at enough ⊢
      omega
    simpa using value?_items (items?_joined gap reads (by simp) enoughInside rest)

theorem key?_quoted (gap : Gap lead) (key : String) (rest : List Char) :
    key? (lead ++ (quote key).toList ++ ':' :: rest) = some (some key, rest) := by
  have colon : skipGap (':' :: rest) = ':' :: rest := skipGap_cons rfl rest
  have read := string?_quoted key (':' :: rest)
  simp [key?, skipGap_append gap, toList_quote, skipGap_cons (c := '"') rfl, read, colon]

/-- The text of a field, with a gap before its key. -/
def fieldText (lead : List Char) (text : Json → List Char) (field : String × Json) : List Char :=
  lead ++ (quote field.1).toList ++ ':' :: text field.2

theorem fieldText_eq (lead : List Char) (text : Json → List Char) :
    fieldText lead text = fun field => lead ++ ((quote field.1).toList ++ ':' :: text field.2) := by
  funext field
  rw [fieldText, List.append_assoc]

theorem members?_joined (leads : Gap lead) (gap : Gap closing) {fields : List (String × Json)}
    {text : Json → List Char} (reads : ∀ field ∈ fields, Reads (text field.2) field.2)
    (nonempty : fields ≠ [])
    (enough : 2 * ([','].intercalate (fields.map (fieldText lead text))).length + 1 ≤ fuel)
    (rest : List Char) :
    members? fuel ([','].intercalate (fields.map (fieldText lead text)) ++
      (closing ++ '}' :: rest)) = some (fields.map fun field => (some field.1, field.2), rest) := by
  refine read_joined ?_ ?_ nonempty enough
  · intro field member fuel enough
    have enoughValue : 2 * (text field.2).length ≤ fuel := by
      simp [fieldText] at enough
      omega
    have key := key?_quoted leads field.1 (text field.2 ++ (closing ++ '}' :: rest))
    have read := (reads field member).read enoughValue (stops_closing gap (c := '}') rfl rest)
    simp only [fieldText, List.append_assoc, List.cons_append] at key ⊢
    simp [members?, key, read, skipGap_append gap, skipGap_cons (c := '}') rfl]
  · intro field member fuel source others enough later
    have enoughValue : 2 * (text field.2).length ≤ fuel := by
      simp [fieldText] at enough
      omega
    have key := key?_quoted leads field.1 (text field.2 ++ ',' :: source)
    have read := (reads field member).read enoughValue (stops_cons (c := ',') rfl source)
    simp only [fieldText, List.append_assoc, List.cons_append] at key ⊢
    simp [members?, key, read, skipGap_cons (c := ',') rfl, later]

/-- Where fields are read, the record is not over before them. -/
theorem value?_members {source rest : List Char} {fields : List (Option String × Json)}
    (read : members? fuel source = some (fields, rest)) :
    value? (fuel + 1) ('{' :: source) = some (.object fields, rest) := by
  have opened : ∀ left, skipGap source ≠ '}' :: left := by
    intro left closing
    cases fuel with
    | zero => cases read
    | succ fuel => simp [members?, key?, closing] at read
  simp [value?, skipGap_cons (c := '{') rfl, read]

/-- The text of a record. -/
theorem reads_record (text : Json → List Char) (leads : Gap lead) (gap : Gap closing)
    {fields : List (String × Json)} (reads : ∀ field ∈ fields, Reads (text field.2) field.2) :
    Reads ('{' :: ([','].intercalate (fields.map (fieldText lead text)) ++ (closing ++ ['}'])))
      (record fields) := by
  refine ⟨fun {fuel rest} enough _ => ?_⟩
  obtain ⟨fuel, rfl⟩ : ∃ less, fuel = less + 1 := ⟨fuel - 1, by simp at enough; omega⟩
  cases fields with
  | nil =>
    simp [value?, record, skipGap_cons (c := '{') rfl, skipGap_append gap,
      skipGap_cons (c := '}') rfl]
  | cons field fields =>
    have enoughInside :
        2 * ([','].intercalate ((field :: fields).map (fieldText lead text))).length + 1 ≤ fuel := by
      simp at enough ⊢
      omega
    simpa [record] using
      value?_members (members?_joined leads gap reads (by simp) enoughInside rest)

end

/-! ### Both layouts -/

theorem gap_nil : Gap [] := by
  simp [Gap]

theorem compactItems_eq (items : List Json) : compactItems items = items.map compact := by
  induction items with
  | nil => rfl
  | cons item items ih => rw [compactItems, ih, List.map_cons]

theorem compactFields_eq (fields : List (Option String × Json)) :
    compactFields fields = fields.map fun field => literal field.1 ++ ":" ++ field.2.compact := by
  induction fields with
  | nil => rfl
  | cons field fields ih => rw [compactFields, ih, List.map_cons]

theorem toList_compact_array (items : List Json) :
    (Json.array items).compact.toList =
      '[' :: ([','].intercalate (items.map fun item => item.compact.toList) ++ ([] ++ [']'])) := by
  simp [compact, compactItems_eq, Text.joined, Function.comp_def]

theorem toList_compact_record (fields : List (String × Json)) :
    (record fields).compact.toList =
      '{' :: ([','].intercalate (fields.map (fieldText [] fun value => value.compact.toList)) ++
        ([] ++ ['}'])) := by
  simp [compact, record, compactFields_eq, Text.joined, Function.comp_def, literal, fieldText_eq]

/-- A document on one line is read back. -/
theorem Plain.reads_compact {levels : Nat} {document : Json} (plain : Plain levels document) :
    Reads document.compact.toList document := by
  induction plain with
  | text value => exact reads_quote value
  | natural bound => exact reads_natural _
  | array plain reads =>
    rw [toList_compact_array]
    exact reads_array gap_nil reads
  | record plain reads =>
    rw [toList_compact_record]
    exact reads_record (fun value => value.compact.toList) gap_nil gap_nil reads

theorem prettyItems_eq (level : Nat) (items : List Json) :
    prettyItems level items = items.map (pretty level) := by
  induction items with
  | nil => rfl
  | cons item items ih => rw [prettyItems, ih, List.map_cons]

theorem prettyFields_eq (level : Nat) (fields : List (Option String × Json)) :
    prettyFields level fields =
      fields.map fun field => literal field.1 ++ ": " ++ field.2.pretty level := by
  induction fields with
  | nil => rfl
  | cons field fields ih => rw [prettyFields, ih, List.map_cons]

/-- The line feed and the blanks before a part at some level. -/
def lineStart (level : Nat) : List Char :=
  '\n' :: (indent level).toList

theorem gap_lineStart (level : Nat) : Gap (lineStart level) := by
  intro c member
  rcases List.mem_cons.mp member with rfl | blank
  · rfl
  · rw [indent, String.toList_ofList] at blank
    rw [List.eq_of_mem_replicate blank]
    rfl

theorem cons_intercalate (c : Char) (between : List Char) {parts : List (List Char)}
    (nonempty : parts ≠ []) :
    c :: (between ++ [c]).intercalate parts = between.intercalate (parts.map (c :: ·)) := by
  induction parts with
  | nil => exact absurd rfl nonempty
  | cons part parts ih =>
    cases parts with
    | nil => simp
    | cons next parts =>
      have later := ih (by simp)
      simp only [List.map_cons, List.intercalate_cons_cons] at later ⊢
      rw [← later]
      simp

/-- Parts between brackets each start a line; only brackets with nothing between them stand on
one. -/
theorem toList_bracketed (level : Nat) (opening closing : String) (parts : List String) :
    ∃ gap, Gap gap ∧ (bracketed level opening closing parts).toList =
      opening.toList ++
        ([','].intercalate (parts.map fun part => lineStart (level + 1) ++ part.toList) ++
          (gap ++ closing.toList)) := by
  by_cases nonempty : parts = []
  · exact ⟨[], gap_nil, by simp [bracketed, nonempty]⟩
  · have some : (parts.map fun part => (indent (level + 1)).toList ++ part.toList) ≠ [] := by
      simpa using nonempty
    have starts := cons_intercalate '\n' [','] some
    rw [List.map_map] at starts
    have lines : [','].intercalate (parts.map fun part => lineStart (level + 1) ++ part.toList) =
        '\n' :: [',', '\n'].intercalate
          (parts.map fun part => (indent (level + 1)).toList ++ part.toList) := starts.symm
    refine ⟨lineStart level, gap_lineStart level, ?_⟩
    rw [lines]
    simp [bracketed, nonempty, Text.joined, lineStart, Function.comp_def]

/-- An indented document is read back. -/
theorem Plain.reads_pretty {levels : Nat} {document : Json} (plain : Plain levels document)
    (level : Nat) : Reads (document.pretty level).toList document := by
  induction plain generalizing level with
  | text value =>
    rw [Json.text, pretty]
    exact reads_quote value
  | natural bound =>
    rw [pretty]
    exact reads_natural _
  | @array _ items plain reads =>
    rw [pretty, prettyItems_eq]
    obtain ⟨closing, gap, text⟩ := toList_bracketed level "[" "]" (items.map (pretty (level + 1)))
    rw [text, List.map_map]
    exact reads_array gap fun item member =>
      (reads item member (level + 1)).gap (gap_lineStart (level + 1))
  | @record _ fields plain reads =>
    have read {closing : List Char} (gap : Gap closing) :=
      reads_record (fun value => [' '] ++ (value.pretty (level + 1)).toList)
        (gap_lineStart (level + 1)) gap fun field member =>
          (reads field member (level + 1)).gap (by simp [Gap, isGap])
    rw [Json.record, pretty, prettyFields_eq]
    obtain ⟨closing, gap, text⟩ := toList_bracketed level "\x7b" "\x7d" _
    rw [text]
    simpa [literal, Function.comp_def, Json.record, fieldText_eq] using read gap

theorem Reads.read? {text : String} {document : Json} (reads : Reads text.toList document) :
    Json.read? text = some document := by
  have stops : Stops [] := by simp [Stops]
  have read : value? (2 * text.toList.length + 2) text.toList = some (document, []) := by
    have whole := reads.read (Nat.le_add_right _ 2) stops
    rwa [List.append_nil] at whole
  simp only [Json.read?, read, Option.bind_eq_bind, Option.bind_some]
  rfl

/-- A writer whose texts of plain documents are read back. -/
def Faithful (write : Json → String) : Prop :=
  ∀ levels document, Plain levels document → Json.read? (write document) = some document

theorem faithful_compact : Faithful compact :=
  fun _ _ plain => plain.reads_compact.read?

theorem faithful_pretty : Faithful (pretty 0) :=
  fun _ _ plain => (plain.reads_pretty 0).read?

end MergeRisk.Json

/-! ### Numbers that stay finite -/

namespace MergeRisk.Decimal

theorem le_ofDigitChars (text : List Char) (value : Nat) :
    value ≤ Nat.ofDigitChars 10 text value := by
  induction text generalizing value with
  | nil => simp
  | cons c text ih =>
    rw [Nat.ofDigitChars_cons]
    have later := ih (10 * value + (c.toNat - '0'.toNat))
    omega

/-- Digits of a number of 64 bits are all taken in. -/
theorem absorb_digits {text : List Char} (digits : ∀ c ∈ text, c.isDigit = true) (value : Nat)
    (bound : Nat.ofDigitChars 10 text value ≤ Text.limit64) :
    absorb value text = (Nat.ofDigitChars 10 text value, []) := by
  induction text generalizing value with
  | nil => simp [absorb]
  | cons c text ih =>
    obtain ⟨first, later⟩ := List.forall_mem_cons.mp digits
    rw [Nat.ofDigitChars_cons] at bound ⊢
    have fits := Nat.le_trans (le_ofDigitChars text _) bound
    rw [absorb, Text.digit?_of_isDigit first]
    simp only [Option.getD_some, fits, if_true]
    exact ih later _ bound

theorem nearest_of_lt {value : Nat} (small : value < Nat.pow 2 53) : nearest value = value := by
  have unit : value.log2 + 1 - 53 = 0 := by
    rcases Nat.eq_zero_or_pos value with rfl | positive
    · rfl
    · have bits := (Nat.log2_lt (by omega)).mpr small
      omega
  simp [nearest, unit, Nat.mod_one]

theorem isFiniteInSteps_ofNat {value : Nat} (bound : value ≤ Text.limit32) :
    (ofNat value).isFiniteInSteps = true := by
  have spells : Text.Spells (Nat.toDigits 10 value) value := by
    simpa using Text.Spells.toString value
  have whole : absorb 0 (Nat.toDigits 10 value) = (value, []) := by
    rw [absorb_digits spells.digits, spells.spelled]
    rw [spells.spelled]
    exact Nat.le_trans bound (by decide)
  have leading : (ofNat value).leading = (value, .ofNat 0) := by
    simp [Decimal.leading, ofNat, whole, absorb]
  have same : nearest value = value := nearest_of_lt (Nat.lt_of_le_of_lt bound (by decide))
  have one : nearest (Nat.pow 10 0) = 1 := nearest_of_lt (by decide)
  have finite : value < doubleLimit := Nat.lt_of_le_of_lt bound (by decide +kernel)
  simp only [isFiniteInSteps, leading, same, one, Nat.mul_one, finite, decide_true, Bool.and_true,
    Bool.or_eq_true, decide_eq_true_eq]
  exact .inr (Nat.zero_le _)

end MergeRisk.Decimal

namespace MergeRisk.Json

/-! ### Kept documents -/

theorem areKept_iff {depth : Nat} {items : List Json} :
    areKept depth items = true ↔ ∀ item ∈ items, item.isKept depth = true := by
  induction items with
  | nil => simp [areKept]
  | cons item items ih => simp [areKept, ih]

theorem fieldsKept_iff {depth : Nat} {fields : List (String × Json)} :
    fieldsKept depth (fields.map fun field => (some field.1, field.2)) = true ↔
      ∀ field ∈ fields, field.2.isKept depth = true := by
  induction fields with
  | nil => simp [fieldsKept]
  | cons field fields ih => simp [fieldsKept, ih]

/-- A plain document that is not nested too deep can be kept. -/
theorem Plain.isKept {levels depth : Nat} {document : Json}
    (plain : Plain levels document) (shallow : depth + levels < depthLimit) :
    document.isKept depth = true := by
  induction plain generalizing depth with
  | text value => rfl
  | natural bound => exact Decimal.isFiniteInSteps_ofNat bound
  | @array levels items plain kept =>
    have inside : depth + 1 < depthLimit := by omega
    have all : areKept (depth + 1) items = true :=
      areKept_iff.mpr fun item member => kept item member (by omega)
    simp [Json.isKept, inside, all]
  | @record levels fields plain kept =>
    have inside : depth + 1 < depthLimit := by omega
    have all : fieldsKept (depth + 1) (fields.map fun field => (some field.1, field.2)) = true :=
      fieldsKept_iff.mpr fun field member => kept field member (by omega)
    simp [Json.isKept, Json.record, inside, all]

end MergeRisk.Json
