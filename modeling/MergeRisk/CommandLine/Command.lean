import MergeRisk.CommandLine.Option
import MergeRisk.OutputFormat
import MergeRisk.Signature
import MergeRisk.Text.Natural

/-! The commands of the program, read from arguments. -/

namespace MergeRisk.CommandLine

/-- Which call graph a command works on. What is not given comes from the settings. -/
structure GraphChoice where
  program : String
  entryClass : Option String := none
  entryMethod : Option String := none
  maxDepth : Option Nat := none
deriving DecidableEq, Repr

/-- Where an analysis finds its merges. -/
inductive MergeSource where
  | scenarios (path : String)
  /-- Merges of a repository; of none, the current revision is taken. -/
  | repository (path spans program : String) (merges : List String) (project : Option String)
deriving DecidableEq, Repr

/-- What a report gets other than from the settings. -/
structure ReportChoice where
  output : Option String := none
  compact : Bool := false
deriving DecidableEq, Repr

inductive Command where
  /-- Show a call graph, or one method of it with its callers and callees. -/
  | graph (choice : GraphChoice) (around : Option Signature)
  /-- Find the common ancestors of changed methods. -/
  | ancestors (choice : GraphChoice) (left right : List Signature)
  /-- Attribute the changed lines of scenarios. -/
  | attribution (scenarios : String)
  /-- Show the lines changed between two revisions. -/
  | lines (repository old new : String) (file : Option String)
  /-- List the files changed by both parents of a merge. -/
  | files (repository merge : String)
  /-- Analyse merges and write the report. -/
  | analysis (source : MergeSource) (report : ReportChoice)
  /-- Create a settings file. -/
  | init
  | completions (shell : String)
deriving DecidableEq, Repr

/-- A command with the options that every command has. -/
structure Invocation where
  settings : Option String := none
  format : OutputFormat := .text
  verbose : Bool := false
  command : Command
deriving DecidableEq, Repr

/-! ### Inputs -/

/-- The files that a command reads. -/
def Command.inputFiles : Command → List String
  | graph choice _ => [choice.program]
  | ancestors choice .. => [choice.program]
  | attribution scenarios => [scenarios]
  | analysis (.scenarios path) _ => [path]
  | analysis (.repository _ spans program ..) _ => [spans, program]
  | _ => []

/-- The repository that a command reads, with the revisions it asks for. -/
def Command.repository? : Command → Option (String × List String)
  | lines repository old new _ => some (repository, [old, new])
  | files repository merge => some (repository, [merge])
  | analysis (.repository path _ _ merges _) _ => some (path, merges ++ ["HEAD"])
  | _ => none

/-! ### Values -/

def signature? (value : String) : Option Signature :=
  (Signature.read value).toOption

def format? (value : String) : Option OutputFormat :=
  (OutputFormat.read value).toOption

/-- A depth, with or without a plus sign. -/
def depth? (value : String) : Option Nat :=
  Text.natural? Text.limit64 value.toList

def isPath (value : String) : Bool :=
  value != ""

def shells : List String := ["bash", "elvish", "fish", "powershell", "zsh"]

/-! ### Options -/

def pathOption (name : String) : OptionRule := ⟨name, .single isPath, none⟩

def textOption (name : String) : OptionRule := ⟨name, .single fun _ => true, none⟩

def signatures (name : String) : OptionRule := ⟨name, .repeated fun value => (signature? value).isSome, none⟩

/-- The options of every command. -/
def sharedOptions : List OptionRule :=
  [pathOption "config", ⟨"format", .single fun value => (format? value).isSome, none⟩,
    ⟨"verbose", .flag, some 'v'⟩, ⟨"help", .answer .help, some 'h'⟩]

def programOptions : List OptionRule :=
  sharedOptions ++ [⟨"version", .answer .version, some 'V'⟩]

def graphOptions : List OptionRule :=
  [pathOption "program", textOption "entry-class", textOption "entry-method",
    ⟨"max-depth", .single fun value => (depth? value).isSome, none⟩]

def graphChoice? (given : Reading) : Option GraphChoice := do
  return {
    program := ← given.value? "program"
    entryClass := given.value? "entry-class"
    entryMethod := given.value? "entry-method"
    maxDepth := (given.value? "max-depth").bind depth? }

def mergeSource? (given : Reading) : Option MergeSource :=
  match given.value? "scenarios", given.value? "repo" with
  | some _, some _ => none
  | none, none => none
  | some path, none =>
    if ["merge", "spans", "program", "project"].any given.has then none else some (.scenarios path)
  | none, some path => do
    return .repository path (← given.value? "spans") (← given.value? "program")
      (given.values "merge") (given.value? "project")

/-! ### Commands -/

/-- A command by name: its options, its word, and how they make it up. -/
structure CommandRule where
  name : String
  options : List OptionRule := []
  word : Option (String → Bool) := none
  command? : Reading → Option Command

def commandRules : List CommandRule := [
  { name := "graph"
    options := graphOptions ++ [⟨"around", .single fun value => (signature? value).isSome, none⟩]
    command? := fun given => do
      return .graph (← graphChoice? given) ((given.value? "around").bind signature?) },
  { name := "ancestors"
    options := graphOptions ++ [signatures "left", signatures "right"]
    command? := fun given => do
      let left := (given.values "left").filterMap signature?
      let right := (given.values "right").filterMap signature?
      guard (!left.isEmpty && !right.isEmpty)
      return .ancestors (← graphChoice? given) left right },
  { name := "attribute"
    options := [pathOption "scenarios"]
    command? := fun given => do
      return .attribution (← given.value? "scenarios") },
  { name := "lines"
    options := [pathOption "repo", textOption "from", textOption "to", textOption "file"]
    command? := fun given => do
      return .lines ((given.value? "repo").getD ".") (← given.value? "from") (← given.value? "to")
        (given.value? "file") },
  { name := "files"
    options := [pathOption "repo", textOption "merge"]
    command? := fun given =>
      some (.files ((given.value? "repo").getD ".") ((given.value? "merge").getD "HEAD")) },
  { name := "analyze"
    options := [pathOption "scenarios", pathOption "repo", ⟨"merge", .repeated fun _ => true, none⟩,
      pathOption "spans", pathOption "program", textOption "project", pathOption "output",
      ⟨"compact", .flag, none⟩]
    command? := fun given => do
      return .analysis (← mergeSource? given) ⟨given.value? "output", given.has "compact"⟩ },
  { name := "init"
    command? := fun _ => some .init },
  { name := "completions"
    word := some shells.contains
    command? := fun given => given.words.head?.map .completions }]

/-- What the words after `help` lead to: help on the program or on one of its commands. -/
def helpOn : (words : List String) → Stop
  | [] => .help
  | [word] => if word = "help" ∨ commandRules.any (·.name == word) then .help else .refused
  | _ => .refused

/-- Read the arguments of the program. Options that every command has may stand before the command or
after it; those after it win. -/
def Invocation.read (arguments : List String) : Except Stop Invocation := do
  let before ← Level.read ⟨programOptions, true, none⟩ arguments {}
  match before.rest with
  | [] => throw .refused
  | name :: rest =>
    if name = "help" then throw (helpOn rest)
    match commandRules.find? (·.name == name) with
    | none => throw .refused
    | some rule =>
      let given ← Level.read ⟨rule.options ++ sharedOptions, false, rule.word⟩ rest {}
      match rule.command? given with
      | none => throw .refused
      | some command =>
        let shared (name : String) : Option String :=
          (given.value? name).orElse fun _ => before.value? name
        return {
          settings := shared "config"
          format := ((shared "format").bind format?).getD .text
          verbose := before.has "verbose" || given.has "verbose"
          command := command }

end MergeRisk.CommandLine
