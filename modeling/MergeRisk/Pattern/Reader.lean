import MergeRisk.Pattern.Basic
import MergeRisk.Text.Hex
import MergeRisk.Text.Natural

/-! Reading patterns. Most characters stand for themselves; the others are

- `^`, `$` and `.`, classes in brackets, escapes after a backslash,
- groups in parentheses, with what they are for after `(?`, and alternatives between bars,
- `*`, `+`, `?` and counts in braces after what they repeat. -/

namespace MergeRisk

namespace Pattern

/-- How what follows is to be read. -/
structure Options where
  anyCase : Bool := false
  /-- Anchors hold at every line. -/
  lines : Bool := false
  /-- A dot takes line feeds too. -/
  dotAll : Bool := false
  /-- Blanks and comments are skipped. -/
  spaced : Bool := false
  lazy : Bool := false
deriving DecidableEq, Repr

/-- What is left of the text of a pattern, and what was found in it so far. -/
structure Reading where
  rest : List Char
  options : Options := {}
  groups : Nat := 0
  names : List (List Char × Nat) := []
deriving Repr

abbrev Reader := StateT Reading Option

namespace Reader

def fail {α : Type} : Reader α := fun _ => none

def peek : Reader (List Char) := return (← get).rest

def setRest (rest : List Char) : Reader Unit :=
  modify fun reading => { reading with rest }

def options : Reader Options := return (← get).options

/-- Pass over a text if it follows. -/
def skip? (mark : String) : Reader Bool := do
  match Text.stripStart? mark.toList (← peek) with
  | some rest => setRest rest; return true
  | none => return false

def next : Reader Char := do
  match ← peek with
  | c :: rest => setRest rest; return c
  | [] => fail

/-- The text up to a mark, which is passed over. -/
def upTo (mark : Char) : Reader (List Char) := do
  match Text.splitFirst? mark (← peek) with
  | some (text, rest) => setRest rest; return text
  | none => fail

/-- The longest text of characters that satisfy a condition. -/
def takeWhile (condition : Char → Bool) : Reader (List Char) := do
  let (text, rest) := (← peek).span condition
  setRest rest
  return text

end Reader

open Reader

/-! ### Characters -/

/-- Spell out what stands between `\Q` and `\E`, by the numbers of the characters, so that none of
them is special. -/
def unquoted : (quoted : Bool) → List Char → List Char
  | _, [] => []
  | false, '\\' :: 'Q' :: text => unquoted true text
  | false, '\\' :: 'E' :: text => unquoted false text
  | false, '\\' :: c :: text => '\\' :: c :: unquoted false text
  | false, c :: text => c :: unquoted false text
  | true, '\\' :: 'E' :: text => unquoted false text
  | true, c :: text => '\\' :: 'x' :: Text.hexByte c.toUInt8 ++ unquoted true text

def horizontalBlanks : CharSet := ['\t', ' ', Char.ofNat 0xA0]

def verticalBlanks : CharSet := CharSet.range '\n' '\r' ++ [Char.ofNat 0x85]

/-- The set that an escaped letter stands for. -/
def escapedSet? : Char → Option CharSet
  | 'd' => some .digits
  | 'D' => some (CharSet.complement .digits)
  | 's' => some .spaces
  | 'S' => some (CharSet.complement .spaces)
  | 'w' => some .wordly
  | 'W' => some (CharSet.complement .wordly)
  | 'h' => some horizontalBlanks
  | 'H' => some (CharSet.complement horizontalBlanks)
  | 'v' => some verticalBlanks
  | 'V' => some (CharSet.complement verticalBlanks)
  | _ => none

/-- The set with a name in a class. -/
def namedSet? : String → Option CharSet
  | "alpha" => some .letters
  | "lower" => some .lower
  | "upper" => some .upper
  | "alnum" => some (CharSet.letters ++ CharSet.digits)
  | "ascii" => some (CharSet.range '\x00' '\x7f')
  | "blank" => some [' ', '\t']
  | "cntrl" => some ('\x7f' :: CharSet.range '\x00' '\x1f')
  | "digit" => some .digits
  | "graph" => some (CharSet.range '!' '~')
  | "print" => some (CharSet.range ' ' '~')
  | "punct" => some ((CharSet.range '!' '~').filter fun c => !c.isAlphanum)
  | "space" => some .spaces
  | "word" => some .wordly
  | "xdigit" => some (CharSet.digits ++ CharSet.range 'a' 'f' ++ CharSet.range 'A' 'F')
  | _ => none

/-- The character that digits in a base stand for, if it stands for a byte. -/
def charOf (base : Nat) (digits : List Char) : Reader Char := do
  let value := digits.foldl (fun value digit => base * value + (Text.hexDigit? digit).getD 0) 0
  if value < 256 then return Char.ofNat value else fail

def isOctalDigit (c : Char) : Bool := '0' ≤ c && c ≤ '7'

/-- At most so many digits that follow. -/
def digitsUpTo (count : Nat) (isDigit : Char → Bool) : Reader (List Char) := do
  let rest ← peek
  let digits := (rest.take count).takeWhile isDigit
  setRest (rest.drop digits.length)
  return digits

/-- The digits in braces. -/
def bracedDigits (isDigit : Char → Bool) : Reader (List Char) := do
  let digits ← upTo '\x7d'
  if digits.isEmpty || !digits.all isDigit then fail else return digits

/-- The character that an escape stands for, after its backslash and first character. -/
def escapedChar : Char → Reader Char
  | 'a' => return '\x07'
  | 'e' => return '\x1b'
  | 'f' => return '\x0c'
  | 'n' => return '\n'
  | 'r' => return '\r'
  | 't' => return '\t'
  | 'c' => do
    let c ← next
    if c.toNat < 128 then return Char.ofNat (c.toUpper.toNat ^^^ 64) else fail
  | 'o' => do
    if ← skip? "\x7b" then charOf 8 (← bracedDigits isOctalDigit) else fail
  | 'x' => do
    if ← skip? "\x7b" then charOf 16 (← bracedDigits Text.isHexDigit)
    else charOf 16 (← digitsUpTo 2 Text.isHexDigit)
  | '0' => do charOf 8 (← digitsUpTo 2 isOctalDigit)
  | c => if ['p', 'P', 'L', 'l', 'U', 'u', 'N'].contains c then fail else return c

/-! ### Classes -/

/-- A name between two marks, the second of which is followed by a bracket, and what follows. -/
def markedName? : List Char → Option (Char × List Char × List Char)
  | mark :: inner => do
    guard (mark = ':' || mark = '.' || mark = '=')
    let (name, after) ← Text.cut? [mark, ']'] inner
    guard (!name.contains ']' && !name.contains '\\')
    return (mark, name, after)
  | [] => none

/-- The set with a name between colons in brackets, or its complement, if one follows. -/
def namedClass? : Reader (Option CharSet) := do
  match (Text.stripStart? ['['] (← peek)).bind markedName? with
  | none => return none
  | some (mark, name, after) =>
    if mark != ':' then fail
    setRest after
    let bare := (Text.stripStart? ['^'] name).getD name
    match namedSet? (String.ofList bare) with
    | some set => return some (if bare = name then set else set.complement)
    | none => fail

/-- A part of a class: a set, or one character, which may start a range. -/
def classPart : Reader (CharSet ⊕ Char) := do
  match ← namedClass? with
  | some set => return .inl set
  | none =>
    let c ← next
    if c != '\\' then return .inr c
    let c ← next
    match escapedSet? c with
    | some set => return .inl set
    | none =>
      if c = 'b' then return .inr '\x08'
      if isOctalDigit c then
        return .inr (← charOf 8 (c :: (← digitsUpTo 2 isOctalDigit)))
      return .inr (← escapedChar c)

/-- The parts of a class up to the bracket that ends it. -/
def classParts : (fuel : Nat) → (isFirst : Bool) → Reader CharSet
  | 0, _ => fail
  | fuel + 1, isFirst => do
    if !isFirst && (← skip? "]") then return []
    let part ← classPart
    let found ← match part, ← peek with
      | _, '-' :: ']' :: _ => pure (part.elim id fun c => [c])
      | .inl _, '-' :: _ => fail
      | .inr low, '-' :: rest =>
        setRest rest
        match ← classPart with
        | .inl _ => fail
        | .inr high => if low ≤ high then pure (CharSet.range low high) else fail
      | _, _ => pure (part.elim id fun c => [c])
    return found ++ (← classParts fuel false)

/-- A class, after the bracket that starts it. It is not itself a name between colons. -/
def readClass : Reader Pattern := do
  if (markedName? (← peek)).isSome then fail
  let isNegated ← skip? "^"
  let set ← classParts ((← peek).length + 1) true
  let set := if (← options).anyCase then set.anyCase else set
  return .one (if isNegated then set.complement else set)

/-! ### Counts -/

/-- The greatest count of a repetition. -/
def countLimit : Nat := 65535

/-- A count in braces: the least number of times and the greatest one, if there is one. -/
def counts? (text : List Char) : Option ((Nat × Option Nat) × List Char) := do
  let (inner, rest) ← Text.splitFirst? '\x7d' (← Text.stripStart? ['\x7b'] text)
  match Text.splitFirst? ',' inner with
  | none =>
    let count ← Text.digits? inner
    return ((count, some count), rest)
  | some (least, []) => return ((← Text.digits? least, none), rest)
  | some (least, most) => return ((← Text.digits? least, some (← Text.digits? most)), rest)

/-- How often the part before is repeated, if that follows. -/
def repetition? : Reader (Option (Nat × Option Nat)) := do
  if ← skip? "*" then return some (0, none)
  if ← skip? "+" then return some (1, none)
  if ← skip? "?" then return some (0, some 1)
  match counts? (← peek) with
  | none => return none
  | some ((least, most), rest) =>
    if countLimit < least || most.any (fun most => countLimit < most || most < least) then fail
    setRest rest
    return some (least, most)

/-- Repeat a part as what follows asks for. -/
def withRepetition (part : Pattern) : Reader Pattern := do
  match ← repetition? with
  | none => return part
  | some (least, most) =>
    let isLazy := (← options).lazy
    if ← skip? "?" then return .repeated least most isLazy part
    if ← skip? "+" then return .fixed (.repeated least most true part)
    return .repeated least most (!isLazy) part

/-! ### Parts -/

/-- The length of all texts that a pattern matches, if they have one. -/
def width? : Pattern → Option Nat
  | empty => some 0
  | one _ => some 1
  | anchor _ => some 0
  | both first second => do return (← first.width?) + (← second.width?)
  | either first second => do
    let width ← first.width?
    if (← second.width?) = width then some width else none
  | repeated least most _ inner => do
    if most = some least then return least * (← inner.width?) else none
  | group _ inner => inner.width?
  | again _ _ => none
  | ahead _ _ => some 0
  | behind _ _ _ => some 0
  | fixed inner => inner.width?

/-- What must come before, or must not. The alternatives may have different lengths. -/
def lookBehind? (wanted : Bool) : Pattern → Option Pattern
  | either first second => do
    let first ← lookBehind? wanted first
    let second ← lookBehind? wanted second
    return if wanted then .either first second else .both first second
  | pattern => do return .behind wanted (← pattern.width?) pattern

/-- One of the line ends. -/
def lineBreak : Pattern :=
  .fixed (.either (.both (.one ['\r']) (.one ['\n'])) (.one verticalBlanks))

def literal (c : Char) : Reader Pattern := do
  return .one (if (← options).anyCase then CharSet.anyCase [c] else [c])

/-- The number of the group that a text names, by its number, by how far it is back, or by name. -/
def groupNamed (text : List Char) : Reader Nat := do
  let reading ← get
  match Text.digits? text with
  | some number => if number = 0 then fail else return number
  | none =>
    match (Text.stripStart? ['-'] text).bind Text.digits? with
    | some back => if 0 < back && back ≤ reading.groups then return reading.groups + 1 - back else fail
    | none => match reading.names.lookup text with
      | some number => return number
      | none => fail

/-- The same text as that of a group. -/
def sameAs (group : Reader Nat) : Reader Pattern := do
  return .again (← group) (← options).anyCase

/-- A number that refers to a group, or else stands for a character. -/
def numbered (first : Char) : Reader Pattern := do
  let digits := first :: (← peek).takeWhile Text.isDigit
  let number := (Text.digits? digits).getD 0
  if number < 8 || number ≤ (← get).groups then
    setRest ((← peek).drop (digits.length - 1))
    sameAs (pure number)
  else if isOctalDigit first then
    literal (← charOf 8 (first :: (← digitsUpTo 2 isOctalDigit)))
  else literal first

/-- The name of a group between the marks that may enclose it. -/
def enclosedName : Reader (List Char) := do
  if ← skip? "<" then upTo '>'
  else if ← skip? "'" then upTo '\x27'
  else if ← skip? "\x7b" then upTo '\x7d'
  else fail

/-- An escape, after its backslash, and whether it may be repeated. -/
def readEscape : Reader (Pattern × Bool) := do
  let c ← next
  match escapedSet? c with
  | some set => return (.one set, true)
  | none =>
    match c with
    | 'b' => return (.anchor .wordEdge, false)
    | 'B' => return (.anchor .noWordEdge, false)
    | 'A' => return (.anchor .textStart, false)
    | 'G' => return (.anchor .textStart, false)
    | 'Z' => return (.anchor .lastLineEnd, false)
    | 'z' => return (.anchor .textEnd, false)
    | 'K' => return (.empty, false)
    | 'C' => return (.one byteChars, true)
    | 'R' => return (lineBreak, true)
    | 'N' =>
      let rest ← peek
      if rest.head? = some '\x7b' && (counts? rest).isNone then fail
      return (.one (CharSet.complement ['\n']), true)
    | 'X' => fail
    | 'k' => return (← sameAs (do groupNamed (← enclosedName)), true)
    | 'g' =>
      if ← skip? "\x7b" then return (← sameAs (do groupNamed (← upTo '\x7d')), true)
      let sign := if ← skip? "-" then ['-'] else []
      return (← sameAs (do groupNamed (sign ++ (← takeWhile Text.isDigit))), true)
    | c =>
      if Text.isDigit c && c != '0' then return (← numbered c, true)
      return (← literal (← escapedChar c), true)

/-- The options with one of them set or not. -/
def Options.set? (options : Options) (value : Bool) : Char → Option Options
  | 'i' => some { options with anyCase := value }
  | 'm' => some { options with lines := value }
  | 's' => some { options with dotAll := value }
  | 'x' => some { options with spaced := value }
  | 'U' => some { options with lazy := value }
  | 'J' => some options
  | _ => none

/-- The options after letters that set them or, behind a minus sign, unset them. -/
def Options.after? (options : Options) : (value : Bool) → List Char → Option Options
  | _, [] => some options
  | _, '-' :: letters => options.after? false letters
  | value, letter :: letters => (options.set? value letter).bind (·.after? value letters)

def isOptionLetter (c : Char) : Bool := c.isAlpha || c == '-'

/-- Skip comments, and blanks where they do not count. -/
def skipIgnored : (fuel : Nat) → Reader Unit
  | 0 => pure ()
  | fuel + 1 => do
    if ← skip? "(?#" then
      let _ ← upTo ')'
      skipIgnored fuel
    else if (← options).spaced then
      match ← peek with
      | c :: rest =>
        if CharSet.spaces.contains c then
          setRest rest
          skipIgnored fuel
        else if c = '#' then
          setRest ((rest.dropWhile (· != '\n')).drop 1)
          skipIgnored fuel
      | [] => pure ()

/-- What a group is for. -/
inductive GroupUse where
  | plain
  | kept (number : Nat)
  | ahead (wanted : Bool)
  | behind (wanted : Bool)
  | fixed
  /-- It only sets options, for what follows in the group around it. -/
  | setting
  | same (pattern : Pattern)

/-- A new number for a group, with its name if it has one. -/
def newGroup (name : Option (List Char)) : Reader GroupUse := do
  let number := (← get).groups + 1
  modify fun reading => { reading with
    groups := number
    names := reading.names ++ (name.map fun name => (name, number)).toList }
  return .kept number

/-- A name of a group up to a mark. -/
def groupName (mark : Char) : Reader (List Char) := do
  let name ← upTo mark
  let isName := name.head?.any (!Text.isDigit ·) && name.all CharSet.wordly.contains &&
    name.length ≤ 32
  if isName then return name else fail

/-- What a group is for, after its parenthesis. -/
def groupUse : Reader GroupUse := do
  if !(← skip? "?") then
    if ← skip? "*" then fail
    return ← newGroup none
  if ← skip? ":" then return .plain
  if ← skip? "|" then return .plain
  if ← skip? ">" then return .fixed
  if ← skip? "=" then return .ahead true
  if ← skip? "!" then return .ahead false
  if ← skip? "<=" then return .behind true
  if ← skip? "<!" then return .behind false
  if ← skip? "P<" then return ← newGroup (← groupName '>')
  if ← skip? "<" then return ← newGroup (← groupName '>')
  if ← skip? "'" then return ← newGroup (← groupName '\x27')
  if ← skip? "P=" then return .same (← sameAs (do groupNamed (← upTo ')')))
  let letters ← takeWhile isOptionLetter
  match (← options).after? true letters with
  | none => fail
  | some options =>
    modify fun reading => { reading with options }
    if ← skip? ":" then return .plain
    if ← skip? ")" then return .setting
    fail

mutual

/-- Alternatives, up to the end or a closing parenthesis. -/
def readAlternatives : (fuel : Nat) → Reader Pattern
  | 0 => fail
  | fuel + 1 => do
    let first ← readSequence fuel
    if ← skip? "|" then return .either first (← readAlternatives fuel) else return first

/-- Parts one after another. -/
def readSequence : (fuel : Nat) → Reader Pattern
  | 0 => fail
  | fuel + 1 => do
    skipIgnored ((← peek).length + 1)
    match (← peek).head? with
    | none => return .empty
    | some c =>
      if c = '|' || c = ')' then return .empty
      let (part, mayRepeat) ← readPart fuel
      skipIgnored ((← peek).length + 1)
      let part ← if mayRepeat then withRepetition part else pure part
      return .both part (← readSequence fuel)

/-- One part, and whether it may be repeated. -/
def readPart : (fuel : Nat) → Reader (Pattern × Bool)
  | 0 => fail
  | fuel + 1 => do
    if (← repetition?).isSome then fail
    match ← next with
    | '^' => return (.anchor (if (← options).lines then .lineStart else .textStart), false)
    | '$' => return (.anchor (if (← options).lines then .lineEnd else .lastLineEnd), false)
    | '.' =>
      return (.one (if (← options).dotAll then byteChars else CharSet.complement ['\n']), true)
    | '[' => return (← readClass, true)
    | '\\' => readEscape
    | '(' =>
      let outer ← options
      let use ← groupUse
      match use with
      | .setting => return (.empty, false)
      | .same pattern => return (pattern, true)
      | _ =>
        let inner ← readAlternatives fuel
        if !(← skip? ")") then fail
        modify fun reading => { reading with options := outer }
        match use with
        | .kept number => return (.group number inner, true)
        | .ahead wanted => return (.ahead wanted inner, true)
        | .behind wanted => match lookBehind? wanted inner with
          | some pattern => return (pattern, true)
          | none => fail
        | .fixed => return (.fixed inner, true)
        | _ => return (inner, true)
    | c => return (← literal c, true)

end

/-- The greatest number of a group to which a pattern refers. -/
def greatestReference : Pattern → Nat
  | both first second => max first.greatestReference second.greatestReference
  | either first second => max first.greatestReference second.greatestReference
  | repeated _ _ _ inner => inner.greatestReference
  | group _ inner => inner.greatestReference
  | again number _ => number
  | ahead _ inner => inner.greatestReference
  | behind _ _ inner => inner.greatestReference
  | fixed inner => inner.greatestReference
  | _ => 0

/-- Read a pattern. It must not be empty, and the groups to which it refers must be there. -/
def read? (text : String) : Option Pattern := do
  guard (text != "")
  let text := unquoted false (byteText text)
  let (pattern, reading) ← readAlternatives (4 * text.length + 4) ⟨text, {}, 0, []⟩
  guard (reading.rest.isEmpty && pattern.greatestReference ≤ reading.groups)
  return pattern

end Pattern

end MergeRisk
