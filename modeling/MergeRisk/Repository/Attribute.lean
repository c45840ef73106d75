import MergeRisk.Pattern.Wildcard
import MergeRisk.Repository.Reference

/-! Attributes of paths, as files of rules give them. A rule is a line: a path with wildcards, and the
attributes that it sets, unsets, leaves open or gives a text. -/

namespace MergeRisk

open Text (Bytes)

inductive AttributeValue where
  | set
  | unset
  /-- As if nothing were said of it. -/
  | left
  | text (value : String)
deriving DecidableEq, Repr

/-- Attributes with their values, of which the last of a name counts. -/
abbrev Assignments := List (String × AttributeValue)

structure AttributeRule where
  /-- What the path must match, or its last name if the rule has no slash. -/
  pattern : Option Pattern
  wholePath : Bool
  /-- It holds for the paths that do not match. -/
  negated : Bool
  assignments : Assignments
deriving DecidableEq, Repr

/-- The rules for the paths in a directory, which is empty or ends with a slash. -/
structure AttributeFile where
  directory : String
  rules : List AttributeRule
deriving DecidableEq, Repr

/-- Attributes that are set together under one name. -/
abbrev AttributeGroups := List (String × Assignments)

namespace AttributeRule

/-- The groups that are always known. -/
def standardGroups : AttributeGroups :=
  [("binary", [("diff", .unset), ("merge", .unset), ("text", .unset), ("crlf", .unset)])]

/-! ### Reading -/

/-- The text up to the first blank that no backslash precedes, and the rest. -/
def splitWord : List Char → List Char × List Char
  | [] => ([], [])
  | '\\' :: c :: text =>
    let (word, rest) := splitWord text
    ('\\' :: c :: word, rest)
  | c :: text =>
    if Reference.isSpace c then ([], c :: text)
    else
      let (word, rest) := splitWord text
      (c :: word, rest)

/-- Leave out the backslashes before blanks. -/
def unescapeBlanks : List Char → List Char
  | [] => []
  | '\\' :: c :: text =>
    if Reference.isSpace c then c :: unescapeBlanks text else '\\' :: c :: unescapeBlanks text
  | c :: text => c :: unescapeBlanks text

/-- The words of a text. -/
def words (text : List Char) : List (List Char) :=
  (text.splitOnP Reference.isSpace).filter (!·.isEmpty)

/-- What a word assigns. A text after an equals sign counts more than a mark at the start. -/
def assignment? (word : List Char) : Option (String × AttributeValue) := do
  let (mark, rest) := match word with
    | '-' :: rest => (AttributeValue.unset, rest)
    | '!' :: rest => (.left, rest)
    | rest => (.set, rest)
  let (name, value) := (Text.splitFirst? '=' rest).getD (rest, [])
  guard (!name.isEmpty)
  return (String.ofList name, if value.isEmpty then mark else .text (String.ofList value))

/-- What some words assign, up to a comment. The name of a group assigns what is in it first. -/
def assignedBy (groups : AttributeGroups) (text : List Char) : Assignments :=
  ((words text).takeWhile (·.head? != some '#')).flatMap fun word =>
    match assignment? word with
    | none => []
    | some (name, .set) => (groups.lookup name).getD [] ++ [(name, .set)]
    | some found => [found]

/-- The rule of a path with wildcards. One that ends with a slash is for directories, so no file
matches it. -/
def ofPath (path : List Char) (assignments : Assignments) : AttributeRule :=
  let (isNegated, path) := match Text.stripStart? ['!'] path with
    | some path => (true, path)
    | none => (false, path)
  let wholePath := path.contains '/'
  let path := (Text.stripStart? ['/'] path).getD path
  let pattern := if Text.endsWith ['/'] path then none
    else Wildcard.pattern? wholePath (byteText (String.ofList (unescapeBlanks path)))
  ⟨pattern, wholePath, isNegated, assignments⟩

/-- Read lines one after another. A line may make a group, for those that follow it, where that is
allowed. -/
def readLines (mayGroup : Bool) :
    AttributeGroups → List (List Char) → List AttributeRule × AttributeGroups
  | groups, [] => ([], groups)
  | groups, line :: lines =>
    let line := line.dropWhile Reference.isSpace
    let group := Text.stripStart? "[attr]".toList line
    let (word, rest) := splitWord (group.getD line)
    let assigned := assignedBy groups rest
    if line.isEmpty || line.head? = some '#' || word.isEmpty || assigned.isEmpty then
      readLines mayGroup groups lines
    else match group with
    | some _ =>
      readLines mayGroup (if mayGroup then (String.ofList word, assigned) :: groups else groups) lines
    | none =>
      let (rules, groups) := readLines mayGroup groups lines
      (ofPath word assigned :: rules, groups)

/-! ### Looking up -/

/-- Whether a rule holds for a path, given from the directory of the rule. -/
def holds (rule : AttributeRule) (path : List Char) : Bool :=
  let text := if rule.wholePath then path else Text.afterLast '/' path
  rule.pattern.any (·.occursIn (String.ofList text)) != rule.negated

/-- What a rule says of an attribute. -/
def value? (rule : AttributeRule) (name : String) : Option AttributeValue :=
  rule.assignments.reverse.lookup name

end AttributeRule

namespace AttributeFile

/-- Read the files of rules of a repository: one of its own, and those in its directories. The groups
of its own and of the outermost directory are known in all. Rules count in the order of the
result. -/
def readAll (own : Option Bytes) (files : List (String × Bytes)) : List AttributeFile :=
  let lines (content : Bytes) := (Text.decodeLossy content).toList.splitOn '\n'
  let (first, groups) := AttributeRule.readLines true AttributeRule.standardGroups
    ((own.map lines).getD [])
  let (outer, groups) := AttributeRule.readLines true groups
    (((files.lookup "").map lines).getD [])
  let inner := (files.filter (·.1 != "")).map fun (directory, content) =>
    (⟨directory, (AttributeRule.readLines false groups (lines content)).1⟩ : AttributeFile)
  ⟨"", first⟩ :: (inner.mergeSort fun deep high => high.directory.length ≤ deep.directory.length) ++
    [⟨"", outer⟩]

/-- What a file of rules says of an attribute of a path: the last rule that says something. -/
def value? (file : AttributeFile) (name path : String) : Option AttributeValue := do
  let path ← Text.stripStart? file.directory.toList path.toList
  file.rules.reverse.findSome? fun rule => if rule.holds path then rule.value? name else none

end AttributeFile

end MergeRisk
