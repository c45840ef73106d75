import MergeRisk.Text.Cut

/-! Options on a command line: `--name value`, `--name=value`, and flags, which also have one-letter
forms that can stand together. -/

namespace MergeRisk.CommandLine

/-- Why arguments do not lead to a command. -/
inductive Stop where
  /-- The arguments are not usable. -/
  | refused
  /-- The version is asked for. -/
  | version
  /-- An explanation of the usage is asked for. -/
  | help
deriving DecidableEq, Repr

/-- How an option is used. -/
inductive Usage where
  /-- Stands alone, at most once. -/
  | flag
  /-- Stands alone and ends the reading of arguments. -/
  | answer (stop : Stop)
  /-- Takes a value, at most once. -/
  | single (accepts : String → Bool)
  /-- Takes a value each time. -/
  | repeated (accepts : String → Bool)

structure OptionRule where
  name : String
  usage : Usage
  letter : Option Char := none

/-- An option that was given, with its value; the value of a flag is empty. -/
structure Given where
  name : String
  value : String
deriving DecidableEq, Repr

/-- What was read from arguments: options, words, and the arguments left unread. -/
structure Reading where
  options : List Given := []
  words : List String := []
  rest : List String := []
deriving DecidableEq, Repr

namespace Reading

def has (reading : Reading) (name : String) : Bool :=
  reading.options.any (·.name == name)

/-- All values given for an option, in order. -/
def values (reading : Reading) (name : String) : List String :=
  (reading.options.filter (·.name == name)).map (·.value)

def value? (reading : Reading) (name : String) : Option String :=
  (reading.values name).head?

end Reading

/-- What the arguments of one level may be. -/
structure Level where
  rules : List OptionRule
  /-- Whether the first word ends the level. -/
  endsAtWord : Bool := false
  /-- The test for the one word of the level, if it takes a word. -/
  word : Option (String → Bool) := none

/-- What an argument looks like. -/
inductive Shape where
  | word
  /-- Two dashes alone: only words follow. -/
  | separator
  | long (name : String) (value : Option String)
  | letters (letters : List Char)
deriving DecidableEq, Repr

def Shape.ofArgument (argument : String) : Shape :=
  match argument.toList with
  | ['-', '-'] => .separator
  | '-' :: '-' :: text =>
    match Text.splitFirst? '=' text with
    | some (name, value) => .long (String.ofList name) (some (String.ofList value))
    | none => .long (String.ofList text) none
  | ['-'] => .word
  | '-' :: cluster => .letters cluster
  | _ => .word

namespace Level

/-- Record an option; one that may be given once must not be given again. -/
def record (reading : Reading) (rule : OptionRule) (value : Option String) :
    Except Stop Reading :=
  let grown : Reading :=
    { reading with options := reading.options ++ [⟨rule.name, value.getD ""⟩] }
  match rule.usage, value with
  | .answer stop, none => .error stop
  | .flag, none => if reading.has rule.name then .error .refused else .ok grown
  | .single accepts, some value =>
    if accepts value && !reading.has rule.name then .ok grown else .error .refused
  | .repeated accepts, some value => if accepts value then .ok grown else .error .refused
  | _, _ => .error .refused

/-- Record a word. -/
def recordWord (level : Level) (reading : Reading) (word : String) : Except Stop Reading :=
  if reading.words.isEmpty && level.word.any (· word) then
    .ok { reading with words := [word] }
  else .error .refused

def recordLetter (level : Level) (reading : Reading) (letter : Char) : Except Stop Reading :=
  match level.rules.find? (·.letter == some letter) with
  | some rule => record reading rule none
  | none => .error .refused

def takesValue : Usage → Bool
  | .single _ => true
  | .repeated _ => true
  | _ => false

/-- Read arguments from left to right; the first fault or answer ends the reading. The value of an
option does not look like an option itself. -/
def read (level : Level) : (arguments : List String) → Reading → Except Stop Reading
  | [], reading => .ok reading
  | argument :: arguments, reading =>
    match Shape.ofArgument argument with
    | .word =>
      if level.endsAtWord then .ok { reading with rest := argument :: arguments }
      else do read level arguments (← level.recordWord reading argument)
    | .separator => arguments.foldlM level.recordWord reading
    | .letters letters => do read level arguments (← letters.foldlM level.recordLetter reading)
    | .long name value =>
      match level.rules.find? (·.name == name) with
      | none => .error .refused
      | some rule =>
        if takesValue rule.usage && value.isNone then
          match arguments with
          | [] => .error .refused
          | next :: others =>
            if Shape.ofArgument next = .word then do
              read level others (← record reading rule (some next))
            else .error .refused
        else do read level arguments (← record reading rule value)

end Level

end MergeRisk.CommandLine
