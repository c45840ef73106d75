/-! Cutting texts: marks at the ends, first and last separators, occurrences, lines. A text is a
list of characters; every cut is recursion on it. -/

namespace MergeRisk.Text

/-- What follows `mark` in a text that starts with it. -/
def stripStart? : List Char → List Char → Option (List Char)
  | [], text => some text
  | _ :: _, [] => none
  | m :: mark, c :: text => if m = c then stripStart? mark text else none

/-- What precedes `mark` in a text that ends with it. -/
def stripEnd? (mark text : List Char) : Option (List Char) :=
  (stripStart? mark.reverse text.reverse).map List.reverse

def startsWith (mark text : List Char) : Bool :=
  (stripStart? mark text).isSome

def endsWith (mark text : List Char) : Bool :=
  (stripEnd? mark text).isSome

/-- The texts before and after the first occurrence of `mark`. -/
def cut? (mark : List Char) : List Char → Option (List Char × List Char)
  | [] => (stripStart? mark []).map fun rest => ([], rest)
  | c :: text =>
    match stripStart? mark (c :: text) with
    | some rest => some ([], rest)
    | none => (cut? mark text).map fun (before, rest) => (c :: before, rest)

/-- Whether `mark` occurs anywhere in a text. -/
def occurs (mark text : List Char) : Bool :=
  (cut? mark text).isSome

/-- The texts before and after the first `separator`. -/
def splitFirst? (separator : Char) : List Char → Option (List Char × List Char)
  | [] => none
  | c :: text =>
    if c = separator then some ([], text)
    else (splitFirst? separator text).map fun (before, rest) => (c :: before, rest)

/-- The texts before and after the last `separator`. -/
def splitLast? (separator : Char) : List Char → Option (List Char × List Char)
  | [] => none
  | c :: text =>
    match splitLast? separator text with
    | some (before, rest) => some (c :: before, rest)
    | none => if c = separator then some ([], text) else none

/-- The text before the first `separator`, or all of it. -/
def before (separator : Char) (text : List Char) : List Char :=
  text.takeWhile (· != separator)

/-- The text after the last `separator`, or all of it. -/
def afterLast (separator : Char) (text : List Char) : List Char :=
  match splitLast? separator text with
  | some (_, rest) => rest
  | none => text

/-- The lines of a text. A line ends at a line feed, together with a carriage return right before
it; what follows the last line feed is a line unless it is empty. -/
def lines : List Char → List (List Char)
  | [] => []
  | '\n' :: text => [] :: lines text
  | '\r' :: '\n' :: text => [] :: lines text
  | c :: text =>
    match lines text with
    | [] => [[c]]
    | line :: others => (c :: line) :: others

/-- The texts joined with `separator` between them. -/
def joined (separator : String) (texts : List String) : String :=
  separator.intercalate texts

theorem stripStart?_eq_some_iff {mark text rest : List Char} :
    stripStart? mark text = some rest ↔ text = mark ++ rest := by
  induction mark generalizing text with
  | nil => simp [stripStart?]
  | cons m mark ih =>
    cases text with
    | nil => simp [stripStart?]
    | cons c text =>
      by_cases same : m = c
      · simp [stripStart?, same, ih]
      · simp [stripStart?, same, Ne.symm same]

@[simp] theorem stripStart?_append (mark rest : List Char) :
    stripStart? mark (mark ++ rest) = some rest :=
  stripStart?_eq_some_iff.mpr rfl

theorem stripEnd?_eq_some_iff {mark text kept : List Char} :
    stripEnd? mark text = some kept ↔ text = kept ++ mark := by
  simp only [stripEnd?, Option.map_eq_some_iff, stripStart?_eq_some_iff]
  constructor
  · rintro ⟨rest, found, rfl⟩
    have := congrArg List.reverse found
    simpa using this
  · rintro rfl
    exact ⟨kept.reverse, by simp, by simp⟩

@[simp] theorem stripEnd?_append (kept mark : List Char) :
    stripEnd? mark (kept ++ mark) = some kept :=
  stripEnd?_eq_some_iff.mpr rfl

/-- What is cut at `mark` is put together again with it. -/
theorem eq_of_cut?_eq_some {mark text before rest : List Char}
    (found : cut? mark text = some (before, rest)) : text = before ++ mark ++ rest := by
  induction text generalizing before with
  | nil =>
    obtain ⟨after, starts, same⟩ := Option.map_eq_some_iff.mp found
    cases same
    exact stripStart?_eq_some_iff.mp starts
  | cons c text ih =>
    rw [cut?] at found
    cases starts : stripStart? mark (c :: text) with
    | some after =>
      rw [starts] at found
      cases found
      exact stripStart?_eq_some_iff.mp starts
    | none =>
      rw [starts] at found
      obtain ⟨⟨earlier, after⟩, later, same⟩ := Option.map_eq_some_iff.mp found
      cases same
      rw [ih later]
      rfl

theorem occurs_iff {mark text : List Char} : occurs mark text = true ↔ mark <:+: text := by
  rw [occurs]
  induction text with
  | nil =>
    rw [cut?, Option.isSome_map, List.infix_nil]
    cases mark <;> simp [stripStart?]
  | cons c text ih =>
    rw [cut?, List.infix_cons_iff, ← ih]
    cases starts : stripStart? mark (c :: text) with
    | none =>
      have later : ¬ mark <+: c :: text := by
        rintro ⟨rest, whole⟩
        rw [stripStart?_eq_some_iff.mpr whole.symm] at starts
        cases starts
      simp [later]
    | some rest =>
      have here : mark <+: c :: text := ⟨rest, (stripStart?_eq_some_iff.mp starts).symm⟩
      simp [here]

end MergeRisk.Text
