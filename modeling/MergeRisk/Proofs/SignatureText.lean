import MergeRisk.Proofs.HunkHeader
import MergeRisk.Signature

/-! Signatures read back from their written form. A dot in a name or a comma in a parameter type
would be taken for the separator; every other signature is read as it was written. -/

namespace MergeRisk

theorem Text.splitLast?_eq_none {separator : Char} {text : List Char} (absent : separator ∉ text) :
    splitLast? separator text = none := by
  induction text with
  | nil => rfl
  | cons c text ih =>
    have different : c ≠ separator := by
      rintro rfl
      exact absent List.mem_cons_self
    have later := ih fun member => absent (List.mem_cons_of_mem c member)
    simp [splitLast?, different, later]

theorem Text.splitLast?_append (before : List Char) {separator : Char} {rest : List Char}
    (absent : separator ∉ rest) :
    splitLast? separator (before ++ separator :: rest) = some (before, rest) := by
  induction before with
  | nil => simp [splitLast?, splitLast?_eq_none absent]
  | cons c before ih => simp [splitLast?, ih]

namespace Signature

/-- A signature whose separators stand only where its written form puts them. -/
structure Portable (signature : Signature) : Prop where
  name_noDot : '.' ∉ signature.name.toList
  params_noComma : ∀ param ∈ signature.params, ',' ∉ param.toList

instance (signature : Signature) : Decidable signature.Portable :=
  decidable_of_iff
    ('.' ∉ signature.name.toList ∧ ∀ param ∈ signature.params, ',' ∉ param.toList)
    ⟨fun ⟨name, params⟩ => ⟨name, params⟩, fun ⟨name, params⟩ => ⟨name, params⟩⟩

section
variable {text : String}

theorem isIdentifier_iff :
    isIdentifier text = true ↔
      text ≠ "" ∧ Text.trimmed text = text ∧ ∀ c ∈ text.toList, isReserved c = false := by
  simp [isIdentifier, and_assoc]

theorem isTypeText_iff : isTypeText text = true ↔ text ≠ "" ∧ Text.trimmed text = text := by
  simp [isTypeText]

theorem not_mem_of_isIdentifier (identifier : isIdentifier text = true) {c : Char}
    (reserved : isReserved c = true) : c ∉ text.toList := by
  intro member
  have free := (isIdentifier_iff.mp identifier).2.2 c member
  rw [reserved] at free
  cases free

theorem trim_toList (trimmed : Text.trimmed text = text) : Text.trim text.toList = text.toList := by
  have same := congrArg String.toList trimmed
  simpa [Text.trimmed] using same

end

variable (signature : Signature)

/-- What stands before the parenthesis. -/
def head : List Char :=
  signature.owner.toList ++ '.' :: signature.name.toList

theorem toList_text :
    signature.text.toList = signature.head ++
      '(' :: ([','].intercalate (signature.params.map String.toList) ++ [')']) := by
  simp [text, head, Text.joined]

theorem getLast?_text : signature.text.toList.getLast? = some ')' := by
  rw [toList_text, ← List.cons_append, ← List.append_assoc, List.getLast?_concat]

theorem owner_toList_ne_nil : signature.owner.toList ≠ [] := by
  simpa using (isIdentifier_iff.mp signature.owner_identifier).1

/-- The written form starts with the owner's first character, which is not blank, and ends with a
parenthesis. -/
theorem trim_text : Text.trim signature.text.toList = signature.text.toList := by
  apply Text.strip_fixed
  · have trimmed := trim_toList (isIdentifier_iff.mp signature.owner_identifier).2.1
    have starts : signature.text.toList.head? = (Text.trim signature.owner.toList).head? := by
      rw [toList_text, head, trimmed, List.append_assoc, List.head?_append]
      exact Option.or_of_isSome (by simpa using signature.owner_toList_ne_nil)
    rw [starts]
    exact Text.strip_head signature.owner.toList
  · rw [getLast?_text]
    intro c last
    cases last
    decide

theorem bracketed?_eq_some_iff {source inner : List Char} :
    bracketed? source = some inner ↔ source = '<' :: (inner ++ ['>']) := by
  simp only [bracketed?, bind, Option.bind_eq_some_iff, Text.stripStart?_eq_some_iff,
    Text.stripEnd?_eq_some_iff]
  constructor
  · rintro ⟨rest, rfl, rfl⟩
    rfl
  · rintro rfl
    exact ⟨inner ++ ['>'], rfl, rfl⟩

theorem bracketed?_text : bracketed? signature.text.toList = none := by
  rw [Option.eq_none_iff_forall_ne_some]
  intro inner found
  have ends := signature.getLast?_text
  rw [bracketed?_eq_some_iff.mp found, ← List.cons_append, List.getLast?_concat] at ends
  cases ends

theorem not_mem_head : '(' ∉ signature.head := by
  have owner := not_mem_of_isIdentifier signature.owner_identifier (c := '(') rfl
  have name := not_mem_of_isIdentifier signature.name_identifier (c := '(') rfl
  simp [head, owner, name]

variable {signature}

theorem params_typed {param : String} (listed : param ∈ signature.params) :
    param ≠ "" ∧ Text.trimmed param = param :=
  isTypeText_iff.mp (List.all_eq_true.mp signature.params_types param listed)

/-- Parameter types without commas are split as they were joined. -/
theorem Portable.split_params (portable : signature.Portable) :
    ((([','].intercalate (signature.params.map String.toList)).splitOn ',').map Text.trim).filter
      (!·.isEmpty) = signature.params.map String.toList := by
  cases params : signature.params with
  | nil => rfl
  | cons first others =>
    rw [← params, List.splitOn_intercalate ',' _ (by simp [params]), List.map_map]
    · have trimmed : signature.params.map (Text.trim ∘ String.toList) =
          signature.params.map String.toList :=
        List.map_congr_left fun param listed => trim_toList (params_typed listed).2
      rw [trimmed, List.filter_eq_self]
      intro part member
      obtain ⟨param, listed, rfl⟩ := List.mem_map.mp member
      simpa using (params_typed listed).1
    · intro part member
      obtain ⟨param, listed, rfl⟩ := List.mem_map.mp member
      exact portable.params_noComma param listed

/-- A call of whatever stands before the parenthesis is split into that and the parameter types. -/
theorem Portable.splitCall?_call (portable : signature.Portable) {head : List Char}
    (absent : '(' ∉ head) :
    splitCall? (head ++ '(' :: ([','].intercalate (signature.params.map String.toList) ++ [')'])) =
      some (head, signature.params) := by
  rw [splitCall?, Text.splitFirst?_append absent]
  simp [portable.split_params]

theorem Portable.splitCall?_text (portable : signature.Portable) :
    splitCall? signature.text.toList = some (signature.head, signature.params) := by
  rw [toList_text]
  exact portable.splitCall?_call signature.not_mem_head

theorem ofParts_self : ofParts signature.owner signature.name signature.params = .ok signature := by
  have owner := (isIdentifier_iff.mp signature.owner_identifier).2.1
  have name := (isIdentifier_iff.mp signature.name_identifier).2.1
  have params : signature.params.map Text.trimmed = signature.params.map id :=
    List.map_congr_left fun param listed => (params_typed listed).2
  rw [List.map_id] at params
  simp [ofParts, owner, name, params, signature.owner_identifier, signature.name_identifier,
    signature.params_types]

/-- The written form is read as the signature it was written for. -/
theorem Portable.read_written (portable : signature.Portable) :
    read signature.text = .ok signature := by
  have parted : Text.splitLast? '.' signature.head =
      some (signature.owner.toList, signature.name.toList) :=
    Text.splitLast?_append _ portable.name_noDot
  simp [read, trim_text, bracketed?_text, readCanonical, portable.splitCall?_text, parted,
    ofParts_self]

end Signature

end MergeRisk
