import MergeRisk.Pattern.Reader

/-! Wildcards for paths, as patterns. `?` takes a character, `*` any number of them, and brackets
enclose a set. Where slashes count, only `**` between them takes them. -/

namespace MergeRisk.Wildcard

/-- The characters that a wildcard may take. -/
def taken (slashes : Bool) (set : CharSet) : CharSet :=
  if slashes then set.filter (· != '/') else set

/-- Any number of the characters that a wildcard may take. -/
def many (slashes : Bool) : Pattern :=
  .repeated 0 none true (.one (taken slashes byteChars))

/-- Any number of directories, each with its slash. -/
def directories : Pattern :=
  .either .empty (.both (many false) (.one ['/']))

/-- The sets with names that are known between brackets. -/
def namedSet? (name : List Char) : Option CharSet :=
  let name := String.ofList name
  if name = "ascii" || name = "word" then none else Pattern.namedSet? name

/-- The set between brackets, after the character before in it, and what follows it. The fuel is the
length of the text. -/
def setFrom? : (fuel : Nat) → (before : Option Char) → (isFirst : Bool) → List Char →
    Option (CharSet × List Char)
  | 0, _, _, _ => none
  | _ + 1, _, _, [] => none
  | fuel + 1, before, isFirst, c :: text =>
    let further (before : Option Char) (found : CharSet) (text : List Char) := do
      let (set, rest) ← setFrom? fuel before false text
      return (found ++ set, rest)
    if c = ']' && !isFirst then some ([], text)
    else match c, before, text with
    | '\\', _, next :: text => further next [next] text
    | '\\', _, [] => none
    | '-', some low, '\\' :: high :: text => further none (CharSet.range low high) text
    | '-', some low, high :: rest =>
      if high = ']' then further '-' ['-'] text else further none (CharSet.range low high) rest
    | '[', _, ':' :: inner =>
      match Text.splitFirst? ']' inner with
      | none => none
      | some (marked, rest) =>
        match Text.stripEnd? [':'] marked with
        | some name => (namedSet? name).bind (further none · rest)
        | none => further '[' ['['] text
    | c, _, text => further c [c] text

/-- The set between brackets, after the first of them. A mark negates it. -/
def set? (text : List Char) : Option (CharSet × List Char) :=
  match text with
  | c :: rest =>
    if c = '!' || c = '^' then
      (setFrom? text.length none true rest).map fun (set, rest) => (set.complement, rest)
    else setFrom? text.length none true text
  | [] => none

/-- The pattern for a text with wildcards, after some character. The fuel is more than the length of
the text. -/
def patternFrom? (slashes : Bool) :
    (fuel : Nat) → (before : Option Char) → List Char → Option Pattern
  | 0, _, _ => none
  | _ + 1, _, [] => some .empty
  | fuel + 1, before, c :: text =>
    match c with
    | '?' => (patternFrom? slashes fuel c text).map (.both (.one (taken slashes byteChars)))
    | '[' => do
      let (set, rest) ← set? text
      return .both (.one (taken slashes set)) (← patternFrom? slashes fuel ']' rest)
    | '\\' => match text with
      | next :: text => (patternFrom? slashes fuel next text).map (.both (.one [next]))
      | [] => none
    | '*' =>
      let rest := text.dropWhile (· == '*')
      let isAlone := before.all (· == '/') && rest.head?.all (· == '/')
      if slashes && rest != text && isAlone then
        match rest with
        | '/' :: rest => (patternFrom? slashes fuel '/' rest).map (.both directories)
        | rest => (patternFrom? slashes fuel '*' rest).map (.both (many false))
      else (patternFrom? slashes fuel '*' rest).map (.both (many slashes))
    | c => (patternFrom? slashes fuel c text).map (.both (.one [c]))

/-- The pattern for whole texts that a text with wildcards describes. -/
def pattern? (slashes : Bool) (text : List Char) : Option Pattern :=
  (patternFrom? slashes (text.length + 1) none text).map fun pattern =>
    .both (.anchor .textStart) (.both pattern (.anchor .textEnd))

end MergeRisk.Wildcard
