import Mathlib.Data.List.TakeWhile
import MergeRisk.Proofs.SignatureText

/-! The two notations of a signature. Which signatures the written form stands for, and that an
analyzer's notation of a method is read as the same signature as its written form. -/

namespace MergeRisk

namespace Text
variable {separator : Char} {text : List Char}

theorem not_mem_of_splitLast?_eq_none (notFound : splitLast? separator text = none) :
    separator ∉ text := by
  induction text with
  | nil => exact List.not_mem_nil
  | cons c text ih =>
    rw [splitLast?] at notFound
    cases later : splitLast? separator text with
    | some parts => rw [later] at notFound; cases notFound
    | none =>
      simp only [later, ite_eq_right_iff, reduceCtorEq, imp_false] at notFound
      rw [List.mem_cons]
      rintro (rfl | member)
      · exact notFound rfl
      · exact ih later member

/-- What follows the last separator has none. -/
theorem not_mem_of_splitLast?_eq_some {before rest : List Char}
    (found : splitLast? separator text = some (before, rest)) : separator ∉ rest := by
  induction text generalizing before with
  | nil => cases found
  | cons c text ih =>
    rw [splitLast?] at found
    cases later : splitLast? separator text with
    | some parts =>
      rw [later] at found
      cases found
      exact ih later
    | none =>
      simp only [later, Option.ite_none_right_eq_some, Option.some.injEq, Prod.mk.injEq] at found
      rw [← found.2.2]
      exact not_mem_of_splitLast?_eq_none later

theorem mem_of_mem_trim {c : Char} (member : c ∈ trim text) : c ∈ text := by
  have kept := List.mem_reverse.mp member
  have trailing := (List.dropWhile_sublist isBlank).subset kept
  exact (List.dropWhile_sublist isBlank).subset (List.mem_reverse.mp trailing)

/-- No part of a text that is split at a separator has the separator. -/
theorem not_mem_of_mem_splitOn {part : List Char} (member : part ∈ text.splitOn separator) :
    separator ∉ part := by
  induction text generalizing part with
  | nil =>
    rw [List.splitOn_nil, List.mem_singleton] at member
    rw [member]
    exact List.not_mem_nil
  | cons c text ih =>
    rw [List.splitOn_cons_eq_if_modifyHead] at member
    split at member
    · rcases List.mem_cons.mp member with rfl | later
      · exact List.not_mem_nil
      · exact ih later
    · rename_i different
      cases parts : text.splitOn separator with
      | nil => exact absurd parts (List.splitOn_ne_nil separator text)
      | cons first others =>
        rw [parts, List.modifyHead_cons] at member
        rcases List.mem_cons.mp member with rfl | later
        · have absent : separator ∉ first := ih (by rw [parts]; exact List.mem_cons_self)
          rw [List.mem_cons]
          rintro (rfl | inFirst)
          · exact different (beq_self_eq_true separator)
          · exact absent inFirst
        · exact ih (by rw [parts]; exact List.mem_cons_of_mem first later)

/-- Blanks around a text make no difference to what trimming leaves. -/
theorem trim_surrounded {before after : List Char} (blankBefore : ∀ c ∈ before, isBlank c = true)
    (blankAfter : ∀ c ∈ after, isBlank c = true) : trim (before ++ text ++ after) = trim text := by
  unfold trim strip
  rw [List.append_assoc, List.dropWhile_append_of_pos blankBefore, List.dropWhile_append]
  split
  · rename_i empty
    rw [List.isEmpty_iff.mp empty, List.dropWhile_eq_nil_iff.mpr blankAfter]
  · have blankReversed : ∀ c ∈ after.reverse, isBlank c = true :=
      fun c member => blankAfter c (List.mem_reverse.mp member)
    rw [List.reverse_append, List.dropWhile_append_of_pos blankReversed]

/-- Of a text that ends in a closed call, trimming drops only the blanks before the call. -/
theorem trim_call (head args : List Char) :
    trim (head ++ '(' :: (args ++ [')'])) = head.dropWhile isBlank ++ '(' :: (args ++ [')']) := by
  have leading : (head ++ '(' :: (args ++ [')'])).dropWhile isBlank =
      head.dropWhile isBlank ++ '(' :: (args ++ [')']) := by
    rw [List.dropWhile_append]
    split
    · rename_i empty
      rw [List.isEmpty_iff.mp empty, List.nil_append, List.dropWhile_cons_of_neg (by decide)]
    · rfl
  have reversed : (head.dropWhile isBlank ++ '(' :: (args ++ [')'])).reverse =
      ')' :: (head.dropWhile isBlank ++ '(' :: args).reverse := by
    simp
  rw [trim, strip, leading, reversed, List.dropWhile_cons_of_neg (by decide), ← reversed,
    List.reverse_reverse]

theorem words_dropWhile (text : List Char) : words (text.dropWhile isBlank) = words text := by
  induction text with
  | nil => rfl
  | cons c text ih =>
    by_cases blank : isBlank c = true
    · rw [List.dropWhile_cons_of_pos blank, ih]
      simp [words, List.splitOnP_cons_eq_if_modifyHead, blank]
    · rw [List.dropWhile_cons_of_neg blank]

/-- What follows a blank and has none itself is the last word. -/
theorem getLast?_words_append {c : Char} {word : List Char} (blank : isBlank c = true)
    (whole : ∀ d ∈ word, isBlank d = false) (nonempty : word ≠ []) :
    (words (text ++ c :: word)).getLast? = some word := by
  have kept : [word].filter (!·.isEmpty) = [word] := by simp [nonempty]
  rw [words, List.splitOnP_append_cons text word blank, List.splitOnP_eq_singleton whole,
    List.filter_append, kept, List.getLast?_concat]

end Text

namespace Signature

section
variable {source : List Char} {signature : Signature}

/-- What is made from parts has the parts, trimmed. -/
theorem parts_of_ofParts {owner name : String} {params : List String}
    (accepted : ofParts owner name params = .ok signature) :
    signature.owner = Text.trimmed owner ∧ signature.name = Text.trimmed name ∧
      signature.params = params.map Text.trimmed := by
  unfold ofParts at accepted
  simp only at accepted
  split at accepted
  · split at accepted
    · split at accepted
      · cases accepted
        exact ⟨rfl, rfl, rfl⟩
      · cases accepted
    · cases accepted
  · cases accepted

theorem not_mem_of_splitCall? {head : List Char} {params : List String}
    (found : splitCall? source = some (head, params)) {param : String} (listed : param ∈ params) :
    ',' ∉ param.toList := by
  simp only [splitCall?, bind, pure, Option.bind_eq_some_iff, Option.some.injEq,
    Prod.mk.injEq] at found
  obtain ⟨_, _, inner, _, _, rfl⟩ := found
  obtain ⟨trimmed, kept, rfl⟩ := List.mem_map.mp listed
  obtain ⟨part, member, rfl⟩ := List.mem_map.mp (List.mem_filter.mp kept).1
  rw [String.toList_ofList]
  intro comma
  exact Text.not_mem_of_mem_splitOn member (Text.mem_of_mem_trim comma)

theorem not_mem_trimmed {text : String} {c : Char} (absent : c ∉ text.toList) :
    c ∉ (Text.trimmed text).toList := by
  rw [Text.trimmed, String.toList_ofList]
  exact fun member => absent (Text.mem_of_mem_trim member)

/-- The written form is split at every comma and at the last dot, so what is read has neither where
the form would be split anew. -/
theorem Portable.of_readCanonical (found : readCanonical source = .ok signature) :
    signature.Portable := by
  unfold readCanonical at found
  split at found
  · cases found
  · rename_i head params call
    split at found
    · cases found
    · rename_i owner name dotted
      obtain ⟨_, sameName, sameParams⟩ := parts_of_ofParts found
      constructor
      case name_noDot =>
        rw [sameName]
        apply not_mem_trimmed
        rw [String.toList_ofList]
        exact Text.not_mem_of_splitLast?_eq_some dotted
      case params_noComma =>
        intro param listed
        rw [sameParams] at listed
        obtain ⟨read, member, rfl⟩ := List.mem_map.mp listed
        exact not_mem_trimmed (not_mem_of_splitCall? call member)

/-- A text that is not in brackets is read in the written form. -/
theorem read_eq_readCanonical {source : String}
    (unbracketed : ∀ inner, Text.trim source.toList ≠ '<' :: (inner ++ ['>'])) :
    read source = readCanonical (Text.trim source.toList) := by
  have plain : bracketed? (Text.trim source.toList) = none := by
    rw [Option.eq_none_iff_forall_ne_some]
    exact fun inner found => unbracketed inner (bracketed?_eq_some_iff.mp found)
  simp only [read, plain]

end

/-- A signature is read back from its written form exactly when its name has no dot and its parameter
types have no commas. On these the written form is a key, and what is read from any text that is not
in brackets is one of them. -/
theorem readBack_iff_portable :
    (∀ owner name params signature, ofParts owner name params = .ok signature →
      (read signature.text = .ok signature ↔
        '.' ∉ signature.name.toList ∧ ∀ param ∈ signature.params, ',' ∉ param.toList)) ∧
    (∀ first second : Signature, first.Portable → second.Portable → first.text = second.text →
      first = second) ∧
    ∀ source signature, (∀ inner, Text.trim source.toList ≠ '<' :: (inner ++ ['>'])) →
      read source = .ok signature → read signature.text = .ok signature := by
  refine ⟨?_, ?_, ?_⟩
  · intro _ _ _ signature _
    constructor
    · intro readBack
      have canonical : readCanonical (Text.trim signature.text.toList) = .ok signature := by
        simpa only [read, trim_text, bracketed?_text] using readBack
      have portable := Portable.of_readCanonical canonical
      exact ⟨portable.name_noDot, portable.params_noComma⟩
    · rintro ⟨noDot, noComma⟩
      exact Portable.read_written ⟨noDot, noComma⟩
  · intro first second firstPortable secondPortable same
    have readFirst := firstPortable.read_written
    rw [same, secondPortable.read_written] at readFirst
    exact (Except.ok.inj readFirst).symm
  · intro source signature unbracketed found
    rw [read_eq_readCanonical unbracketed] at found
    exact (Portable.of_readCanonical found).read_written

/-- Angles, brackets, blanks and parentheses where they do no harm. -/
def kiln : Signature :=
  ⟨"Kiln<T>", "<init>", ["Glaze<K> (V)", "Heat[]"], by decide, by decide, by decide⟩

/-- The method that `Kiln.fire( Heat[],, x )` stands for. -/
def firing : Signature := ⟨"Kiln", "fire", ["Heat[]", "x"], by decide, by decide, by decide⟩

/-- A dot in the name. -/
def dottedFiring : Signature := ⟨"Kiln", "fire.now", ["x"], by decide, by decide, by decide⟩

theorem readBack_iff_portable_kiln :
    (ofParts " Kiln<T>" "<init>" ["Glaze<K> (V)", "Heat[] "] = .ok kiln ∧
      read kiln.text = .ok kiln) ∧
    (ofParts "Kiln" "fire.now" ["x"] = .ok dottedFiring ∧
      read dottedFiring.text ≠ .ok dottedFiring) ∧
    (kiln.Portable ∧ firing.Portable ∧ kiln.text ≠ firing.text) ∧
    read "Kiln.fire( Heat[],, x )" = .ok firing ∧ read firing.text = .ok firing := by
  obtain ⟨readBack, key, survives⟩ := readBack_iff_portable
  have accepted : ofParts " Kiln<T>" "<init>" ["Glaze<K> (V)", "Heat[] "] = .ok kiln := by
    decide +kernel
  have dottedAccepted : ofParts "Kiln" "fire.now" ["x"] = .ok dottedFiring := by decide +kernel
  have found : read "Kiln.fire( Heat[],, x )" = .ok firing := by decide +kernel
  have kilnPortable : kiln.Portable := by decide
  have firingPortable : firing.Portable := by decide
  have unbracketed (inner : List Char) :
      Text.trim "Kiln.fire( Heat[],, x )".toList ≠ '<' :: (inner ++ ['>']) := by
    intro same
    have first : (Text.trim "Kiln.fire( Heat[],, x )".toList).head? = some '<' := by
      rw [same, List.head?_cons]
    exact absurd first (by decide)
  refine ⟨⟨accepted, ?_⟩, ⟨dottedAccepted, ?_⟩, ⟨kilnPortable, firingPortable, ?_⟩, found, ?_⟩
  · exact (readBack _ _ _ kiln accepted).mpr ⟨kilnPortable.1, kilnPortable.2⟩
  · intro again
    exact ((readBack _ _ _ dottedFiring dottedAccepted).mp again).1 (by decide)
  · intro same
    exact absurd (key kiln firing kilnPortable firingPortable same) (by decide)
  · exact survives _ firing unbracketed found

/-! ### The notation of an analyzer -/

/-- A method as an analyzer writes it, with the type of its result. -/
def analyzerText (signature : Signature) (result : String) : String :=
  "<" ++ signature.owner ++ ": " ++ result ++ " " ++ signature.name ++
    "(" ++ Text.joined "," signature.params ++ ")>"

variable (signature : Signature) (result : String)

/-- What stands before the parenthesis in the notation of an analyzer, after the colon. -/
def analyzerHead : List Char :=
  (' ' :: result.toList) ++ ' ' :: signature.name.toList

theorem toList_analyzerText :
    (signature.analyzerText result).toList =
      '<' :: (signature.owner.toList ++ ':' :: (signature.analyzerHead result ++
        '(' :: ([','].intercalate (signature.params.map String.toList) ++ [')'])) ++ ['>']) := by
  simp [analyzerText, analyzerHead, Text.joined]

theorem trim_analyzerText :
    Text.trim (signature.analyzerText result).toList = (signature.analyzerText result).toList := by
  rw [toList_analyzerText]
  apply Text.strip_fixed
  · intro c first
    cases first
    decide
  · rw [← List.cons_append, List.getLast?_concat]
    intro c last
    cases last
    decide

variable {signature result}

theorem Portable.readAnalyzer_inner (portable : signature.Portable)
    (ownerPlain : ':' ∉ signature.owner.toList)
    (nameWord : ∀ c ∈ signature.name.toList, Text.isBlank c = false)
    (resultPlain : '(' ∉ result.toList) (source : List Char) :
    readAnalyzer (signature.owner.toList ++ ':' :: (signature.analyzerHead result ++
      '(' :: ([','].intercalate (signature.params.map String.toList) ++ [')']))) source =
        .ok signature := by
  have nameNonempty : signature.name.toList ≠ [] := by
    simpa using (isIdentifier_iff.mp signature.name_identifier).1
  have headPlain : '(' ∉ (signature.analyzerHead result).dropWhile Text.isBlank := by
    have name := not_mem_of_isIdentifier signature.name_identifier (c := '(') rfl
    intro member
    have inHead := (List.dropWhile_sublist Text.isBlank).subset member
    simp [analyzerHead, resultPlain, name] at inHead
  -- A blank result leaves the name alone, so its words are those of the head before trimming.
  have lastWord : (Text.words ((signature.analyzerHead result).dropWhile Text.isBlank)).getLast? =
      some signature.name.toList := by
    rw [Text.words_dropWhile]
    exact Text.getLast?_words_append (by decide) nameWord nameNonempty
  simp only [readAnalyzer, Text.splitFirst?_append ownerPlain, Text.trim_call,
    portable.splitCall?_call headPlain, lastWord, String.ofList_toList, ofParts_self]

theorem Portable.read_analyzerText (portable : signature.Portable)
    (ownerPlain : ':' ∉ signature.owner.toList)
    (nameWord : ∀ c ∈ signature.name.toList, Text.isBlank c = false)
    (resultPlain : '(' ∉ result.toList) : read (signature.analyzerText result) = .ok signature := by
  have inner := bracketed?_eq_some_iff.mpr (signature.toList_analyzerText result)
  simp only [read, trim_analyzerText, inner]
  exact portable.readAnalyzer_inner ownerPlain nameWord resultPlain _

theorem read_surrounded {text before after : String}
    (blankBefore : ∀ c ∈ before.toList, Text.isBlank c = true)
    (blankAfter : ∀ c ∈ after.toList, Text.isBlank c = true) :
    read (before ++ text ++ after) = read text := by
  have trimmed : Text.trim (before ++ text ++ after).toList = Text.trim text.toList := by
    rw [String.toList_append, String.toList_append, Text.trim_surrounded blankBefore blankAfter]
  simp only [read, trimmed]

/-- The two notations of a method are read as the one signature, whatever the type of the result and
with any blanks around them. -/
theorem read_notations (signature : Signature) (result before after : String)
    (ownerPlain : ':' ∉ signature.owner.toList)
    (nameWord : ∀ c ∈ signature.name.toList, Text.isBlank c = false)
    (nameNoDot : '.' ∉ signature.name.toList)
    (paramsNoComma : ∀ param ∈ signature.params, ',' ∉ param.toList)
    (resultPlain : '(' ∉ result.toList)
    (blankBefore : ∀ c ∈ before.toList, Text.isBlank c = true)
    (blankAfter : ∀ c ∈ after.toList, Text.isBlank c = true) :
    ofParts signature.owner signature.name signature.params = .ok signature ∧
    read (before ++ signature.analyzerText result ++ after) = .ok signature ∧
    read (before ++ signature.text ++ after) = .ok signature := by
  have portable : signature.Portable := ⟨nameNoDot, paramsNoComma⟩
  refine ⟨ofParts_self, ?_, ?_⟩
  · rw [read_surrounded blankBefore blankAfter]
    exact portable.read_analyzerText ownerPlain nameWord resultPlain
  · rw [read_surrounded blankBefore blankAfter]
    exact portable.read_written

/-- The result of the kiln's method has blanks, dots, colons and brackets of its own. -/
theorem read_notations_kiln :
    ':' ∉ kiln.owner.toList ∧ '(' ∉ "std::Map<a.B, int[]>".toList ∧ kiln.Portable ∧
    read "\t<Kiln<T>: std::Map<a.B, int[]> <init>(Glaze<K> (V),Heat[])>\n" = .ok kiln ∧
    read "\tKiln<T>.<init>(Glaze<K> (V),Heat[])\n" = .ok kiln := by
  have ownerPlain : ':' ∉ kiln.owner.toList := by decide
  have nameWord : kiln.name.toList.any Text.isBlank = false := by decide
  have portable : kiln.Portable := by decide
  have resultPlain : '(' ∉ "std::Map<a.B, int[]>".toList := by decide
  have blankBefore : "\t".toList.all Text.isBlank = true := by decide
  have blankAfter : "\n".toList.all Text.isBlank = true := by decide
  obtain ⟨_, analyzer, written⟩ := read_notations kiln "std::Map<a.B, int[]>" "\t" "\n" ownerPlain
    (by simpa using nameWord) portable.name_noDot portable.params_noComma resultPlain
    (List.all_eq_true.mp blankBefore) (List.all_eq_true.mp blankAfter)
  exact ⟨ownerPlain, resultPlain, portable, analyzer, written⟩

end Signature

end MergeRisk
