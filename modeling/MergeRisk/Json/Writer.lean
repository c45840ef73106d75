import MergeRisk.Json.Basic

/-! Writing JSON documents, on one line or indented. -/

namespace MergeRisk.Json

def hexDigit (value : Nat) : Char :=
  "0123456789abcdef".toList.getD value '0'

/-- A character inside a string literal: quotes, backslashes and control characters are escaped. -/
def escapedChar (c : Char) : List Char :=
  match c with
  | '"' => ['\\', '"']
  | '\\' => ['\\', '\\']
  | '\n' => ['\\', 'n']
  | '\r' => ['\\', 'r']
  | '\t' => ['\\', 't']
  | '\x08' => ['\\', 'b']
  | '\x0c' => ['\\', 'f']
  | c =>
    if c.toNat < 0x20 then ['\\', 'u', '0', '0', hexDigit (c.toNat / 16), hexDigit (c.toNat % 16)]
    else [c]

def quote (text : String) : String :=
  String.ofList ('"' :: text.toList.flatMap escapedChar ++ ['"'])

/-- A literal without text is written as the half pair it may have been. -/
def literal : Option String → String
  | some text => quote text
  | none => "\"\\ud800\""

mutual

/-- The document with the fields of every object in ascending order of their keys. -/
def sorted : Json → Json
  | .array items => .array (sortedItems items)
  | .object fields =>
    .object ((sortedFields fields).mergeSort fun first second => first.1.getD "" ≤ second.1.getD "")
  | value => value

def sortedItems : List Json → List Json
  | [] => []
  | item :: items => item.sorted :: sortedItems items

def sortedFields : List (Option String × Json) → List (Option String × Json)
  | [] => []
  | (key, value) :: fields => (key, value.sorted) :: sortedFields fields

end

mutual

/-- The document on one line. -/
def compact : Json → String
  | .null => "null"
  | .bool value => if value then "true" else "false"
  | .natural value => toString value
  | .decimal literal => literal
  | .string text => literal text
  | .array items => "[" ++ Text.joined "," (compactItems items) ++ "]"
  | .object fields => "\x7b" ++ Text.joined "," (compactFields fields) ++ "\x7d"

def compactItems : List Json → List String
  | [] => []
  | item :: items => item.compact :: compactItems items

def compactFields : List (Option String × Json) → List String
  | [] => []
  | (key, value) :: fields => (literal key ++ ":" ++ value.compact) :: compactFields fields

end

/-- Two spaces for each level. -/
def indent (level : Nat) : String :=
  String.ofList (List.replicate (2 * level) ' ')

/-- Parts between brackets, one to a line; nothing between the brackets if there are none. -/
def bracketed (level : Nat) (opening closing : String) (parts : List String) : String :=
  if parts.isEmpty then opening ++ closing
  else opening ++ "\n" ++ Text.joined ",\n" (parts.map (indent (level + 1) ++ ·)) ++ "\n" ++
    indent level ++ closing

mutual

/-- The document over several lines, each level indented by two spaces. -/
def pretty (level : Nat) : Json → String
  | .array items => bracketed level "[" "]" (prettyItems (level + 1) items)
  | .object fields => bracketed level "\x7b" "\x7d" (prettyFields (level + 1) fields)
  | .null => "null"
  | .bool value => if value then "true" else "false"
  | .natural value => toString value
  | .decimal literal => literal
  | .string text => literal text

def prettyItems (level : Nat) : List Json → List String
  | [] => []
  | item :: items => item.pretty level :: prettyItems level items

def prettyFields (level : Nat) : List (Option String × Json) → List String
  | [] => []
  | (key, value) :: fields =>
    (literal key ++ ": " ++ value.pretty level) :: prettyFields level fields

end

end MergeRisk.Json
