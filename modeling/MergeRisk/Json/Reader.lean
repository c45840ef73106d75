import MergeRisk.Json.Basic

/-! Reading JSON texts. The grammar is strict: no comments, no trailing commas, no control
characters in strings, nothing after the document. -/

namespace MergeRisk.Json

def isGap (c : Char) : Bool :=
  c == ' ' || c == '\t' || c == '\n' || c == '\r'

def skipGap (source : List Char) : List Char :=
  source.dropWhile isGap

def hexDigit? (c : Char) : Option Nat :=
  if '0' ≤ c ∧ c ≤ '9' then some (c.toNat - '0'.toNat)
  else if 'a' ≤ c ∧ c ≤ 'f' then some (c.toNat - 'a'.toNat + 10)
  else if 'A' ≤ c ∧ c ≤ 'F' then some (c.toNat - 'A'.toNat + 10)
  else none

/-- A piece of a string literal: a character, or the UTF-16 unit that an escape names. -/
inductive Piece where
  | char (c : Char)
  | unit (value : Nat)
deriving DecidableEq, Repr

/-- The character that a one-letter escape names. -/
def escape? : Char → Option Char
  | '"' => some '"'
  | '\\' => some '\\'
  | '/' => some '/'
  | 'b' => some '\x08'
  | 'f' => some '\x0c'
  | 'n' => some '\n'
  | 'r' => some '\r'
  | 't' => some '\t'
  | _ => none

/-- Read the pieces of a string up to its closing quote. -/
def pieces? : List Char → Option (List Piece × List Char)
  | [] => none
  | '"' :: rest => some ([], rest)
  | '\\' :: 'u' :: a :: b :: c :: d :: rest => do
    let value := (((← hexDigit? a) * 16 + (← hexDigit? b)) * 16 + (← hexDigit? c)) * 16 + (← hexDigit? d)
    let (pieces, rest) ← pieces? rest
    return (.unit value :: pieces, rest)
  | '\\' :: c :: rest => do
    let named ← escape? c
    let (pieces, rest) ← pieces? rest
    return (.char named :: pieces, rest)
  | c :: rest => do
    guard (0x20 ≤ c.toNat)
    let (pieces, rest) ← pieces? rest
    return (.char c :: pieces, rest)

def isHigh (unit : Nat) : Bool := 0xD800 ≤ unit && unit < 0xDC00

def isLow (unit : Nat) : Bool := 0xDC00 ≤ unit && unit < 0xE000

/-- The text of a literal, with surrogate pairs joined; a half alone has none. -/
def joinPieces? : List Piece → Option (List Char)
  | [] => some []
  | .char c :: rest => (joinPieces? rest).map (c :: ·)
  | .unit high :: .unit low :: rest =>
    if isHigh high && isLow low then
      (joinPieces? rest).map (Char.ofNat (0x10000 + (high - 0xD800) * 0x400 + (low - 0xDC00)) :: ·)
    else if isHigh high || isLow high then none
    else (joinPieces? (.unit low :: rest)).map (Char.ofNat high :: ·)
  | .unit value :: rest =>
    if isHigh value || isLow value then none
    else (joinPieces? rest).map (Char.ofNat value :: ·)

/-- Read a string after its opening quote. -/
def string? (source : List Char) : Option (Option String × List Char) := do
  let (pieces, rest) ← pieces? source
  return ((joinPieces? pieces).map String.ofList, rest)

/-- One or more digits. -/
def digits? (source : List Char) : Option (List Char × List Char) :=
  let (digits, rest) := source.span Text.isDigit
  if digits.isEmpty then none else some (digits, rest)

/-- Digits without a leading zero. -/
def whole? (source : List Char) : Option (List Char × List Char) := do
  let (digits, rest) ← digits? source
  guard (digits.head? != some '0' || digits.length == 1)
  return (digits, rest)

/-- The fraction of a number, if there is one. -/
def fraction? : List Char → Option (List Char × List Char)
  | '.' :: source => do
    let (digits, rest) ← digits? source
    return ('.' :: digits, rest)
  | source => some ([], source)

/-- The exponent of a number, if there is one. -/
def exponent? : List Char → Option (List Char × List Char)
  | c :: source =>
    if c == 'e' || c == 'E' then
      let (sign, source) := match source with
        | '+' :: rest => (['+'], rest)
        | '-' :: rest => (['-'], rest)
        | rest => ([], rest)
      do
        let (digits, rest) ← digits? source
        return (c :: sign ++ digits, rest)
    else some ([], c :: source)
  | [] => some ([], [])

/-- Read a number. -/
def number? (source : List Char) : Option (Json × List Char) := do
  let (sign, source) := match source with
    | '-' :: rest => (['-'], rest)
    | rest => ([], rest)
  let (whole, source) ← whole? source
  let (fraction, source) ← fraction? source
  let (exponent, source) ← exponent? source
  if sign.isEmpty && fraction.isEmpty && exponent.isEmpty then
    return (.natural (← Text.digits? whole), source)
  else return (.decimal (String.ofList (sign ++ whole ++ fraction ++ exponent)), source)

/-- Read a value that is no array and no object. -/
def scalar? : List Char → Option (Json × List Char)
  | '"' :: rest => do
    let (text, rest) ← string? rest
    return (.string text, rest)
  | 'n' :: 'u' :: 'l' :: 'l' :: rest => some (.null, rest)
  | 't' :: 'r' :: 'u' :: 'e' :: rest => some (.bool true, rest)
  | 'f' :: 'a' :: 'l' :: 's' :: 'e' :: rest => some (.bool false, rest)
  | source => number? source

/-- Read a key and its colon. -/
def key? (source : List Char) : Option (Option String × List Char) :=
  match skipGap source with
  | '"' :: rest => do
    let (key, rest) ← string? rest
    match skipGap rest with
    | ':' :: rest => return (key, rest)
    | _ => none
  | _ => none

mutual

/-- Read a value; the fuel bounds the nesting and the number of elements. -/
def value? : (fuel : Nat) → List Char → Option (Json × List Char)
  | 0, _ => none
  | fuel + 1, source =>
    match skipGap source with
    | '[' :: rest =>
      match skipGap rest with
      | ']' :: rest => some (.array [], rest)
      | _ => do
        let (items, rest) ← items? fuel rest
        return (.array items, rest)
    | '{' :: rest =>
      match skipGap rest with
      | '}' :: rest => some (.object [], rest)
      | _ => do
        let (fields, rest) ← members? fuel rest
        return (.object fields, rest)
    | source => scalar? source

/-- Read the elements of an array up to its end. -/
def items? : (fuel : Nat) → List Char → Option (List Json × List Char)
  | 0, _ => none
  | fuel + 1, source => do
    let (item, rest) ← value? fuel source
    match skipGap rest with
    | ',' :: rest =>
      let (items, rest) ← items? fuel rest
      return (item :: items, rest)
    | ']' :: rest => return ([item], rest)
    | _ => none

/-- Read the fields of an object up to its end. -/
def members? : (fuel : Nat) → List Char → Option (List (Option String × Json) × List Char)
  | 0, _ => none
  | fuel + 1, source => do
    let (key, rest) ← key? source
    let (value, rest) ← value? fuel rest
    match skipGap rest with
    | ',' :: rest =>
      let (fields, rest) ← members? fuel rest
      return ((key, value) :: fields, rest)
    | '}' :: rest => return ([(key, value)], rest)
    | _ => none

end

/-- Read a document. Every step of the reader that spends fuel reads a character or opens one
element, so twice the length is enough. -/
def read? (source : String) : Option Json := do
  let source := source.toList
  let (document, rest) ← value? (2 * source.length + 2) source
  guard (skipGap rest).isEmpty
  return document

end MergeRisk.Json
