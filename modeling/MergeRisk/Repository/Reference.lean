import MergeRisk.Repository.Object

/-! The names that a repository gives to its objects, and the logs of what they meant before. -/

namespace MergeRisk

/-- What a name refers to. -/
inductive Reference where
  | object (id : String)
  | name (name : String)
deriving DecidableEq, Repr

/-- A change of a reference: what it means since then, who made it, and why. -/
structure LogEntry where
  id : String
  stamp : Stamp
  reason : String
deriving DecidableEq, Repr

namespace Reference

/-! ### Names -/

def isNameChar (c : Char) : Bool :=
  ' ' < c && !(['~', '^', ':', '\\', '?', '[', '*'].contains c)

/-- Whether a text may stand between the slashes of a name. -/
def isNamePart (part : List Char) : Bool :=
  part != [] && part.head? != some '.' && part.all isNameChar && !Text.occurs ['.', '.'] part &&
    !Text.occurs ['@', '\x7b'] part && !Text.endsWith ".lock".toList part

/-- Whether a text has only capital letters, and underscores between them. -/
def isCapital (part : List Char) : Bool :=
  part.all (fun c => 'A' ≤ c && c ≤ 'Z' || c == '_') && part.head? != some '_' &&
    part.getLast? != some '_'

/-- Whether a text is the full name of a reference. A name of one part is in capitals; a longer one
does not start with such a part. -/
def isName (name : String) : Bool :=
  let parts := name.toList.splitOn '/'
  parts.all isNamePart && name.toList.getLast? != some '.' &&
    (decide (parts.length = 1) == isCapital (parts.headD []))

/-- The full names that a short name may stand for. -/
def paths (name : String) : List String :=
  [name, "refs/" ++ name, "refs/tags/" ++ name, "refs/heads/" ++ name, "refs/remotes/" ++ name,
    "refs/remotes/" ++ name ++ "/HEAD"]

/-! ### Files -/

/-- The texts of identifiers. -/
def isId (text : List Char) : Bool :=
  text.length == idLength && text.all Text.isHexDigit

def isSpace (c : Char) : Bool := Revision.isBlank c

def trimEnd (text : List Char) : List Char :=
  (text.reverse.dropWhile isSpace).reverse

/-- The text of the file in which a reference is kept. -/
def text : Reference → String
  | object id => id ++ "\n"
  | name target => "ref: " ++ target ++ "\n"

/-- Read the file in which a reference is kept. Something may follow an identifier after a blank. -/
def read? (text : List Char) : Option Reference :=
  match Text.stripStart? "ref: ".toList text with
  | some target =>
    if (trimEnd target).isEmpty then none else some (.name (String.ofList (trimEnd target)))
  | none =>
    let id := text.take idLength
    if isId id && (text.drop idLength).head?.all isSpace then
      some (.object (String.ofList id).toLower)
    else none

/-- Read the list of references that are kept together: an identifier, a space and a name on each
line. Other lines are about the one before. -/
def readList (text : List Char) : List (String × Reference) :=
  (Text.lines text).filterMap fun line => do
    let (id, listed) ← Text.splitFirst? ' ' line
    guard (isId id)
    return (String.ofList listed, .object (String.ofList id).toLower)

end Reference

namespace LogEntry

/-- The line of an entry, after what the reference meant before it. -/
def text (entry : LogEntry) (before : String) : String :=
  before ++ " " ++ entry.id ++ " " ++ entry.stamp.text ++ "\t" ++ entry.reason ++ "\n"

/-- The text of a log, given latest first. The first change is one from nothing. -/
def logText : List LogEntry → String
  | [] => ""
  | entry :: earlier =>
    let before := (earlier.head?.map (·.id)).getD (String.ofList (List.replicate idLength '0'))
    logText earlier ++ entry.text before

/-- Read who made a change, and when. -/
def readStamp? (text : List Char) : Option Stamp := do
  let (before, zone) ← Text.splitLast? ' ' text
  let (who, time) ← Text.splitLast? ' ' before
  let (name, email) ← Text.cut? [' ', '<'] who
  return ⟨String.ofList name, String.ofList ((Text.stripEnd? ['>'] email).getD email),
    ← Text.digits? time, String.ofList zone⟩

/-- Read the line of an entry. -/
def read? (line : List Char) : Option LogEntry := do
  let (change, reason) := (Text.splitFirst? '\t' line).getD (line, [])
  let (_, after) ← Text.splitFirst? ' ' change
  let (id, stamp) ← Text.splitFirst? ' ' after
  guard (Reference.isId id)
  return ⟨String.ofList id, ← readStamp? stamp, String.ofList reason⟩

/-- Read a log, latest first. -/
def readLog (text : List Char) : List LogEntry :=
  ((Text.lines text).filterMap read?).reverse

/-- The branch that was left with a change, if the current one was changed to another. -/
def left? (entry : LogEntry) : Option String := do
  let (_, change) ← Text.cut? "checkout: moving from ".toList entry.reason.toList
  let (_, branch) ← Text.cut? " to ".toList.reverse change.reverse
  return String.ofList branch.reverse

end LogEntry

end MergeRisk
