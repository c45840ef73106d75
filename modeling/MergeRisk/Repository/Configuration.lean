import MergeRisk.Repository.Reference

/-! The configuration that a repository keeps in a file: sections of variables with values. -/

namespace MergeRisk

open Text (Bytes)

/-- Variables by their names, with section and subsection before them, in the order of the file. A
variable without a value only says that it is there. -/
structure Configuration where
  assignments : List (String × Option String) := []
deriving DecidableEq, Repr

namespace Configuration

/-! ### Reading -/

/-- The characters of the names of variables. -/
def isNameChar (c : Char) : Bool :=
  c.isAlphanum || c == '-'

def lowered (text : List Char) : String :=
  (String.ofList text).toLower

def isComment (c : Char) : Bool := c == '#' || c == ';'

/-- The name of a subsection in quotes, after the first of them, and what follows. -/
def quotedName? : List Char → Option (List Char × List Char)
  | [] => none
  | '"' :: text => some ([], text)
  | '\\' :: c :: text => (quotedName? text).map fun (name, rest) => (c :: name, rest)
  | c :: text => (quotedName? text).map fun (name, rest) => (c :: name, rest)

/-- The name of a section, after its bracket, and what follows. Only that of a subsection in quotes
depends on case. -/
def section? (text : List Char) : Option (String × List Char) := do
  let (name, rest) := text.span fun c => isNameChar c || c == '.'
  match rest with
  | ']' :: rest =>
    guard (!name.isEmpty)
    return (lowered name, rest)
  | rest =>
    let inner ← Text.stripStart? ['"'] (rest.dropWhile Reference.isSpace)
    guard (rest.head?.any Reference.isSpace)
    let (subsection, rest) ← quotedName? inner
    return (lowered name ++ "." ++ String.ofList subsection, ← Text.stripStart? [']'] rest)

/-- The character that an escape stands for. -/
def escaped? : Char → Option Char
  | 'n' => some '\n'
  | 't' => some '\t'
  | 'b' => some '\x08'
  | '"' => some '"'
  | '\\' => some '\\'
  | _ => none

/-- The value of a variable. Quotes are left out, also one that is not closed. -/
def value? : List Char → Option (List Char)
  | [] => some []
  | '"' :: text => value? text
  | '\\' :: c :: text => do
    let found ← escaped? c
    return found :: (← value? text)
  | '\\' :: [] => some []
  | c :: text => (value? text).map (c :: ·)

/-- A variable and its value. -/
def assignment? (within : String) (text : List Char) : Option (String × Option String) := do
  let (name, rest) := text.span isNameChar
  guard (!name.isEmpty)
  let full := if within = "" then lowered name else within ++ "." ++ lowered name
  match rest.dropWhile Reference.isSpace with
  | [] => return (full, none)
  | '=' :: rest => return (full, some (String.ofList (← value? (rest.dropWhile Reference.isSpace))))
  | _ => none

/-- Read lines one after another, the first of them in a section. -/
def readFrom? : (within : String) → List (List Char) → Option (List (String × Option String))
  | _, [] => some []
  | within, line :: lines =>
    match line.dropWhile Reference.isSpace with
    | [] => readFrom? within lines
    | '[' :: text => do
      let (name, rest) ← section? text
      match rest.dropWhile Reference.isSpace with
      | [] => readFrom? name lines
      | rest => return (← assignment? name rest) :: (← readFrom? name lines)
    | text => do return (← assignment? within text) :: (← readFrom? within lines)

/-- A line up to a comment, which does not start in quotes or after a backslash. -/
def beforeComment : (quoted : Bool) → List Char → List Char
  | _, [] => []
  | quoted, '\\' :: c :: text => '\\' :: c :: beforeComment quoted text
  | quoted, c :: text =>
    if isComment c && !quoted then []
    else c :: beforeComment (if c == '"' then !quoted else quoted) text

/-- Put lines together that a backslash at the end continues. -/
def joinLines : List (List Char) → List (List Char)
  | [] => []
  | line :: lines =>
    match Text.stripEnd? ['\\'] line, joinLines lines with
    | some start, next :: others =>
      if Text.endsWith ['\\'] start then line :: next :: others else (start ++ next) :: others
    | _, others => line :: others

/-- Read a configuration. -/
def read? (content : Bytes) : Option Configuration := do
  let text := (Text.decodeLossy content).toList
  let text := (Text.stripStart? [Char.ofNat 0xFEFF] text).getD text
  let lines := (Text.lines text).map fun line => Reference.trimEnd (beforeComment false line)
  return ⟨← readFrom? "" (joinLines lines)⟩

/-! ### Looking up -/

/-- What the last variable with a name says. -/
def find? (configuration : Configuration) (name : String) : Option (Option String) :=
  configuration.assignments.reverse.lookup name

/-- Whether a variable with a name is set, if it says so. -/
def flag? (configuration : Configuration) (name : String) : Option Bool := do
  match ← configuration.find? name with
  | none => return true
  | some value =>
    let value := value.toLower
    if ["true", "yes", "on"].contains value then return true
    if ["false", "no", "off", ""].contains value then return false
    return (← Revision.integer? value.toList) != 0

/-- The greatest version of the way in which repositories are kept. -/
def latestVersion : Int := 1

/-- Whether a repository is kept in a known way. -/
def isKnown (configuration : Configuration) : Bool :=
  match configuration.find? "core.repositoryformatversion" with
  | some (some value) => (Revision.integer? value.toList).any (· ≤ latestVersion)
  | some none => false
  | none => true

end Configuration

end MergeRisk
