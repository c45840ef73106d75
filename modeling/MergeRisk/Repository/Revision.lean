import MergeRisk.Pattern.Reader
import MergeRisk.Text.Cut
import MergeRisk.Text.Natural

/-! Revisions as they are asked for: where to start, and steps from there. -/

namespace MergeRisk

/-- What a repository holds. -/
inductive ObjectKind where
  | commit
  | tree
  | content
  | tag
deriving DecidableEq, Repr

def ObjectKind.ofName? : String → Option ObjectKind
  | "commit" => some commit
  | "tree" => some tree
  | "blob" => some content
  | "tag" => some tag
  | _ => none

/-- Where a revision starts. -/
inductive Revision.Start where
  /-- At what has a name: an identifier or a reference. -/
  | named (name : String)
  /-- At what a reference meant so many changes ago, or at a time given by its number. -/
  | logged (name : String) (number : Nat)
  /-- At what a reference meant at a date. -/
  | dated (name : String) (date : String)
  /-- At the branch that was left so many changes of branches ago. -/
  | left (count : Nat)
  /-- At the youngest commit of all with a message in which a pattern occurs. -/
  | matching (pattern : Pattern)
deriving DecidableEq, Repr

/-- A step from one object to another. -/
inductive Revision.Step where
  /-- To a parent, counted from one; zero stays at the commit. -/
  | parent (number : Nat)
  /-- To the first parent, so many times. -/
  | back (count : Nat)
  /-- To the object of a kind that belongs to it. -/
  | kind (kind : ObjectKind)
  /-- To what tags stand for. -/
  | untagged
  /-- To the youngest commit of its past with a message in which a pattern occurs. -/
  | matching (pattern : Pattern)
  /-- To what is at a path of its files. -/
  | path (path : String)
deriving DecidableEq, Repr

structure Revision where
  start : Revision.Start
  steps : List Revision.Step
deriving DecidableEq, Repr

namespace Revision

/-- The greatest number that a revision may have. -/
def countLimit : Nat := 2147483647

/-- Digits and what follows them; no digits mean one. -/
def count? (text : List Char) : Option (Nat × List Char) := do
  let (digits, rest) := text.span Text.isDigit
  if digits.isEmpty then return (1, rest)
  let count ← Text.digits? digits
  guard (count ≤ countLimit)
  return (count, rest)

/-- The step that a text in braces spells. -/
def braced? : List Char → Option Step
  | [] => some .untagged
  | '/' :: pattern => (Pattern.read? (String.ofList pattern)).map .matching
  | text => (ObjectKind.ofName? (String.ofList text)).map .kind

/-- The steps that a text spells: `^n` goes to the parent with that number, `~n` goes to the first
parent `n` times, a kind in braces after `^` asks for an object of it, a pattern there for a commit,
and a path after a colon goes into the files. The fuel is the length of the text. -/
def stepsFrom? : (fuel : Nat) → List Char → Option (List Step)
  | _, [] => some []
  | 0, _ => none
  | fuel + 1, mark :: text =>
    if mark = ':' then some [.path (String.ofList text)]
    else if mark = '~' then do
      let (count, rest) ← count? text
      return .back count :: (← stepsFrom? fuel rest)
    else if mark = '^' then
      match text with
      | '\x7b' :: text => do
        let (inner, rest) ← Text.splitFirst? '\x7d' text
        return (← braced? inner) :: (← stepsFrom? fuel rest)
      | text => do
        let (count, rest) ← count? text
        return .parent count :: (← stepsFrom? fuel rest)
    else none

def steps? (text : List Char) : Option (List Step) :=
  stepsFrom? text.length text

/-- The characters that start a step. -/
def isStepMark (c : Char) : Bool :=
  c == '^' || c == '~' || c == ':'

/-- The name at the start of a text, up to a step or an entry of its log. -/
def splitName : List Char → List Char × List Char
  | [] => ([], [])
  | c :: text =>
    if isStepMark c || c == '@' && text.head? == some '\x7b' then ([], c :: text)
    else
      let (name, rest) := splitName text
      (c :: name, rest)

/-- The name of the current revision. -/
def current : String := "HEAD"

/-- Blanks that may come before a number. -/
def isBlank (c : Char) : Bool :=
  c == ' ' || '\t' ≤ c && c ≤ '\r'

/-- A whole number of 32 bits, after blanks. -/
def integer? (text : List Char) : Option Int := do
  match text.dropWhile isBlank with
  | '-' :: digits =>
    let value ← Text.digits? digits
    guard (value ≤ countLimit + 1)
    return -value
  | '+' :: digits => (Text.digits? digits).filter (· ≤ countLimit)
  | digits => (Text.digits? digits).filter (· ≤ countLimit)

/-- The entry of the log of a name that a text in braces asks for: by its number, latest first, by a
date, or, with a negative number and without a name, by how many branches ago it was. -/
def entry? (name : String) (asked : List Char) : Option Start :=
  match integer? asked with
  | some number =>
    if 0 < number ∨ number = 0 ∧ asked.head? ≠ some '-' then some (.logged name number.toNat)
    else if number < 0 ∧ name = "" then some (.left number.natAbs)
    else none
  | none =>
    if asked.head? = some '-' then none else some (.dated name (String.ofList asked))

/-- Read a revision. An at sign alone is the current one, and a pattern after `:/` asks for any commit
in whose message it occurs. -/
def read? (text : String) : Option Revision := do
  let text := text.toList
  guard (!text.contains '\x00')
  if text = ['@'] then return ⟨.named current, []⟩
  let (name, rest) := splitName text
  match rest with
  | '@' :: '\x7b' :: rest =>
    let (asked, rest) ← Text.splitFirst? '\x7d' rest
    return ⟨← entry? (String.ofList name) asked, ← steps? rest⟩
  | rest =>
    if name ≠ [] then return ⟨.named (String.ofList name), ← steps? rest⟩
    let pattern ← Text.stripStart? [':', '/'] rest
    return ⟨.matching (← Pattern.read? (String.ofList pattern)), []⟩

end Revision

end MergeRisk
