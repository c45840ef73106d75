import MergeRisk.Text.Utf8

/-! Patterns for texts, and whether they occur in one. A text is a list of characters that each stand
for a byte. -/

namespace MergeRisk

/-- The characters that stand for a byte. -/
def byteChars : List Char := (List.range 256).map Char.ofNat

/-- The bytes of a text, each as the character with its number. -/
def byteText (text : String) : List Char :=
  (Text.encode text).map fun byte => Char.ofNat byte.toNat

/-- Characters of which a pattern takes one. -/
abbrev CharSet := List Char

namespace CharSet

def range (low high : Char) : CharSet :=
  byteChars.filter fun c => low ≤ c && c ≤ high

def complement (set : CharSet) : CharSet :=
  byteChars.filter (!set.contains ·)

def digits : CharSet := range '0' '9'

def lower : CharSet := range 'a' 'z'

def upper : CharSet := range 'A' 'Z'

def letters : CharSet := lower ++ upper

/-- The characters of words. -/
def wordly : CharSet := letters ++ digits ++ ['_']

def spaces : CharSet := [' ', '\t', '\n', '\x0b', '\x0c', '\r']

/-- The set with both cases of its letters. -/
def anyCase (set : CharSet) : CharSet :=
  set ++ set.map Char.toLower ++ set.map Char.toUpper

end CharSet

/-- Conditions on a place between two characters. -/
inductive Anchor where
  | textStart
  | lineStart
  | textEnd
  /-- The end, or right before a line feed that ends the text. -/
  | lastLineEnd
  | lineEnd
  /-- Between a character of a word and one that is none. -/
  | wordEdge
  | noWordEdge
deriving DecidableEq, Repr

inductive Pattern where
  | empty
  /-- One character of a set. -/
  | one (set : CharSet)
  | anchor (anchor : Anchor)
  | both (first second : Pattern)
  /-- The first of two if what follows can match then, else the second. -/
  | either (first second : Pattern)
  /-- So many times; as often as possible if it is greedy, else as seldom. -/
  | repeated (least : Nat) (most : Option Nat) (greedy : Bool) (inner : Pattern)
  /-- A part whose text is kept under a number. -/
  | group (number : Nat) (inner : Pattern)
  /-- The text of a group once more. -/
  | again (number : Nat) (anyCase : Bool)
  /-- What must follow, or must not. -/
  | ahead (wanted : Bool) (inner : Pattern)
  /-- What must come right before, or must not, with its length. -/
  | behind (wanted : Bool) (width : Nat) (inner : Pattern)
  /-- A part that is matched in the first possible way or not at all. -/
  | fixed (inner : Pattern)
deriving DecidableEq, Repr

/-- A place in a text: the characters before it, nearest first, those after it, and the texts of the
groups matched so far, latest first. -/
structure Cursor where
  before : List Char
  rest : List Char
  groups : List (Nat × List Char) := []
deriving DecidableEq, Repr

namespace Cursor

/-- The place behind the next character, if it is in a set. -/
def take? (cursor : Cursor) (set : CharSet) : Option Cursor :=
  match cursor.rest with
  | c :: rest => if set.contains c then some { cursor with before := c :: cursor.before, rest } else none
  | [] => none

/-- The place behind a text that follows. -/
def takeText? (cursor : Cursor) (anyCase : Bool) : List Char → Option Cursor
  | [] => some cursor
  | c :: text =>
    match cursor.take? (if anyCase then CharSet.anyCase [c] else [c]) with
    | some next => next.takeText? anyCase text
    | none => none

/-- The place so many characters before. -/
def back? (cursor : Cursor) (count : Nat) : Option Cursor :=
  if count ≤ cursor.before.length then
    some { cursor with
      before := cursor.before.drop count
      rest := (cursor.before.take count).reverse ++ cursor.rest }
  else none

/-- The characters from another place of the same text up to this one. -/
def since (cursor start : Cursor) : List Char :=
  start.rest.take (start.rest.length - cursor.rest.length)

def isWordEdge (cursor : Cursor) : Bool :=
  cursor.before.head?.any CharSet.wordly.contains != cursor.rest.head?.any CharSet.wordly.contains

def meets (cursor : Cursor) : Anchor → Bool
  | .textStart => cursor.before.isEmpty
  | .lineStart => cursor.before.isEmpty || cursor.before.head? == some '\n' && !cursor.rest.isEmpty
  | .textEnd => cursor.rest.isEmpty
  | .lastLineEnd => cursor.rest.isEmpty || cursor.rest == ['\n']
  | .lineEnd => cursor.rest.head?.all (· == '\n')
  | .wordEdge => cursor.isWordEdge
  | .noWordEdge => !cursor.isWordEdge

end Cursor

namespace Pattern

/-- What follows a part of a pattern, from the place where that part ends. -/
abbrev Next := Cursor → Option Cursor

/-- Match a part so many times. A turn that takes no character is the last one. The fuel is more than
the turns that are required and the characters that are left. -/
def repeatFrom (turn : Cursor → Next → Option Cursor) (greedy : Bool) :
    (fuel : Nat) → (least : Nat) → (most : Option Nat) → Cursor → Next → Option Cursor
  | 0, _, _, _, _ => none
  | fuel + 1, least + 1, most, cursor, next =>
    turn cursor fun after => repeatFrom turn greedy fuel least (most.map (· - 1)) after next
  | fuel + 1, 0, most, cursor, next =>
    if most = some 0 then next cursor
    else
      let more (_ : Unit) := turn cursor fun after =>
        if after.rest.length < cursor.rest.length then
          repeatFrom turn greedy fuel 0 (most.map (· - 1)) after next
        else next after
      if greedy then (more ()).orElse fun _ => next cursor
      else (next cursor).orElse more

/-- The place behind the first way in which a pattern and what follows it match from a place. -/
def run : Pattern → Cursor → Next → Option Cursor
  | empty, cursor, next => next cursor
  | one set, cursor, next => (cursor.take? set).bind next
  | anchor required, cursor, next => if cursor.meets required then next cursor else none
  | both first second, cursor, next => first.run cursor fun after => second.run after next
  | either first second, cursor, next =>
    (first.run cursor next).orElse fun _ => second.run cursor next
  | repeated least most greedy inner, cursor, next =>
    repeatFrom inner.run greedy (least + cursor.rest.length + 1) least most cursor next
  | group number inner, cursor, next =>
    inner.run cursor fun after =>
      next { after with groups := (number, after.since cursor) :: after.groups }
  | again number anyCase, cursor, next =>
    ((cursor.groups.lookup number).bind (cursor.takeText? anyCase)).bind next
  | ahead wanted inner, cursor, next =>
    match inner.run cursor some, wanted with
    | some after, true => next { cursor with groups := after.groups }
    | none, false => next cursor
    | _, _ => none
  | behind wanted width inner, cursor, next =>
    let found := (cursor.back? width).bind fun start =>
      inner.run start fun after => if after.rest == cursor.rest then some after else none
    match found, wanted with
    | some after, true => next { cursor with groups := after.groups }
    | none, false => next cursor
    | _, _ => none
  | fixed inner, cursor, next => (inner.run cursor some).bind next

/-- Whether a pattern matches at a place or at a later one. -/
def occursFrom (pattern : Pattern) : (before rest : List Char) → Bool
  | before, [] => (pattern.run ⟨before, [], []⟩ some).isSome
  | before, c :: rest =>
    (pattern.run ⟨before, c :: rest, []⟩ some).isSome || pattern.occursFrom (c :: before) rest

/-- Whether a pattern matches anywhere in a text. -/
def occursIn (pattern : Pattern) (text : String) : Bool :=
  pattern.occursFrom [] (byteText text)

end Pattern

end MergeRisk
