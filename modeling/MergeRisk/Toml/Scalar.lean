import MergeRisk.Decimal
import MergeRisk.Json.Reader
import MergeRisk.Toml.Basic

/-! The parts of a TOML document that hold no other values: blanks, strings, numbers, times. Each
reader gives what it read and the rest of the source. -/

namespace MergeRisk.Toml

def isGap (c : Char) : Bool := c == ' ' || c == '\t'

def skipGap (source : List Char) : List Char :=
  source.dropWhile isGap

def newline? : List Char → Option (List Char)
  | '\n' :: rest => some rest
  | '\r' :: '\n' :: rest => some rest
  | _ => none

/-- The characters of comments: no control characters but the tab. -/
def isPlain (c : Char) : Bool :=
  c == '\t' || (0x20 ≤ c.toNat && c.toNat != 0x7F)

def skipComment : List Char → List Char
  | '#' :: rest => rest.dropWhile isPlain
  | source => source

/-- What follows a line, of which only blanks and a comment may be left. -/
def lineEnd? (source : List Char) : Option (List Char) :=
  match skipComment (skipGap source) with
  | [] => some []
  | rest => newline? rest

/-- Skip blanks, comments and line ends. -/
def skipLines : (fuel : Nat) → List Char → List Char
  | 0, source => source
  | fuel + 1, source =>
    let rest := skipComment (skipGap source)
    match newline? rest with
    | some rest => skipLines fuel rest
    | none => rest

/-- Skip blanks and line ends. -/
def skipBlankLines : List Char → List Char
  | [] => []
  | '\r' :: '\n' :: rest => skipBlankLines rest
  | c :: rest => if isGap c || c == '\n' then skipBlankLines rest else c :: rest

/-! ### Strings -/

def hexValue? (digits : List Char) : Option Nat :=
  digits.foldlM (fun value c => do return value * 16 + (← Json.hexDigit? c)) 0

/-- The character with a code point; halves of surrogate pairs are none. -/
def scalar? (code : Nat) : Option Char :=
  if code < 0xD800 || (0xE000 ≤ code && code < 0x110000) then some (Char.ofNat code) else none

/-- Read an escape after its backslash. -/
def escape? : List Char → Option (Char × List Char)
  | 'u' :: rest => do
    let digits := rest.take 4
    guard (digits.length = 4)
    return (← scalar? (← hexValue? digits), rest.drop 4)
  | 'U' :: rest => do
    let digits := rest.take 8
    guard (digits.length = 8)
    return (← scalar? (← hexValue? digits), rest.drop 8)
  | 'b' :: rest => some ('\x08', rest)
  | 't' :: rest => some ('\t', rest)
  | 'n' :: rest => some ('\n', rest)
  | 'f' :: rest => some ('\x0c', rest)
  | 'r' :: rest => some ('\r', rest)
  | '"' :: rest => some ('"', rest)
  | '\\' :: rest => some ('\\', rest)
  | _ => none

/-- Read a basic string after its opening quote. -/
def basic? : (fuel : Nat) → List Char → Option (List Char × List Char)
  | 0, _ => none
  | fuel + 1, source =>
    match source with
    | '"' :: rest => some ([], rest)
    | '\\' :: rest => do
      let (c, rest) ← escape? rest
      let (text, rest) ← basic? fuel rest
      return (c :: text, rest)
    | c :: rest => do
      guard (isPlain c)
      let (text, rest) ← basic? fuel rest
      return (c :: text, rest)
    | [] => none

/-- Read a literal string after its opening quote. -/
def literal? (source : List Char) : Option (List Char × List Char) :=
  match source.span fun c => isPlain c && c != '\x27' with
  | (text, '\x27' :: rest) => some (text, rest)
  | _ => none

/-- Up to two further quotes after three closing ones belong to the string. -/
def closing (quote : Char) : List Char → List Char × List Char
  | first :: second :: rest =>
    if first = quote then
      if second = quote then ([quote, quote], rest) else ([quote], second :: rest)
    else ([], first :: second :: rest)
  | [first] => if first = quote then ([quote], []) else ([], [first])
  | [] => ([], [])

/-- Read a basic string of several lines after its opening quotes. A backslash at the end of a line
drops the line end and the blanks after it. -/
def basicLines? : (fuel : Nat) → List Char → Option (List Char × List Char)
  | 0, _ => none
  | fuel + 1, source =>
    match source with
    | '"' :: '"' :: '"' :: rest => some (closing '"' rest)
    | '\\' :: rest =>
      match newline? (skipGap rest) with
      | some rest => basicLines? fuel (skipBlankLines rest)
      | none => do
        let (c, rest) ← escape? rest
        let (text, rest) ← basicLines? fuel rest
        return (c :: text, rest)
    | '\r' :: '\n' :: rest => do
      let (text, rest) ← basicLines? fuel rest
      return ('\n' :: text, rest)
    | c :: rest => do
      guard (isPlain c || c == '\n')
      let (text, rest) ← basicLines? fuel rest
      return (c :: text, rest)
    | [] => none

/-- Read a literal string of several lines after its opening quotes. -/
def literalLines? : List Char → Option (List Char × List Char)
  | '\x27' :: '\x27' :: '\x27' :: rest => some (closing '\x27' rest)
  | '\r' :: '\n' :: rest => do
    let (text, rest) ← literalLines? rest
    return ('\n' :: text, rest)
  | c :: rest => do
    guard (isPlain c || c == '\n')
    let (text, rest) ← literalLines? rest
    return (c :: text, rest)
  | [] => none

/-- A line end right after the opening quotes is dropped. -/
def afterOpening (source : List Char) : List Char :=
  (newline? source).getD source

/-- Read a string on one line. -/
def lineString? : List Char → Option (List Char × List Char)
  | '"' :: rest => basic? (rest.length + 1) rest
  | '\x27' :: rest => literal? rest
  | _ => none

/-- Read a string of any kind. -/
def string? (source : List Char) : Option (List Char × List Char) :=
  match source with
  | '"' :: '"' :: '"' :: rest => basicLines? (rest.length + 1) (afterOpening rest)
  | '\x27' :: '\x27' :: '\x27' :: rest => literalLines? (afterOpening rest)
  | source => lineString? source

/-! ### Numbers -/

/-- Further digits, of which single underscores may stand between two. -/
def moreDigits (isDigit : Char → Bool) : List Char → List Char × List Char
  | '_' :: c :: rest =>
    if isDigit c then
      let (digits, rest) := moreDigits isDigit rest
      (c :: digits, rest)
    else ([], '_' :: c :: rest)
  | c :: rest =>
    if isDigit c then
      let (digits, rest) := moreDigits isDigit rest
      (c :: digits, rest)
    else ([], c :: rest)
  | [] => ([], [])

/-- One or more digits. -/
def digits? (isDigit : Char → Bool) : List Char → Option (List Char × List Char)
  | c :: rest =>
    if isDigit c then
      let (digits, rest) := moreDigits isDigit rest
      some (c :: digits, rest)
    else none
  | [] => none

def sign : List Char → List Char × List Char
  | '+' :: rest => (['+'], rest)
  | '-' :: rest => (['-'], rest)
  | source => ([], source)

/-- A sign and decimal digits without a leading zero. -/
def decimal? (source : List Char) : Option (List Char × List Char) := do
  let (sign, source) := sign source
  match source with
  | '0' :: rest => return (sign ++ ['0'], rest)
  | source =>
    let (digits, rest) ← digits? Text.isDigit source
    return (sign ++ digits, rest)

def isDigitOf (base : Nat) (c : Char) : Bool :=
  (Json.hexDigit? c).any (· < base)

/-- Digits of a base other than ten. -/
def based? (base : Nat) (source : List Char) : Option (Int × List Char) := do
  let (digits, rest) ← digits? (isDigitOf base) source
  let value := digits.foldl (fun value c => value * base + (Json.hexDigit? c).getD 0) 0
  return (value, rest)

def signedValue? : List Char → Option Int
  | '-' :: digits => do return -(← Text.digits? digits : Nat)
  | '+' :: digits => do return (← Text.digits? digits : Nat)
  | digits => do return (← Text.digits? digits : Nat)

/-- Read an integer of at most 64 bits. -/
def integer? (source : List Char) : Option (Toml × List Char) := do
  let (value, rest) ← match source with
    | '0' :: 'x' :: rest => based? 16 rest
    | '0' :: 'o' :: rest => based? 8 rest
    | '0' :: 'b' :: rest => based? 2 rest
    | source => do
      let (digits, rest) ← decimal? source
      pure (← signedValue? digits, rest)
  guard (-9223372036854775808 ≤ value ∧ value ≤ 9223372036854775807)
  return (.integer value, rest)

def exponent? : List Char → Option (List Char × List Char)
  | c :: rest => do
    guard (c == 'e' || c == 'E')
    let (sign, rest) := sign rest
    let (digits, rest) ← digits? Text.isDigit rest
    return ('e' :: sign ++ digits, rest)
  | [] => none

def fraction? : List Char → Option (List Char × List Char)
  | '.' :: rest => do
    let (digits, rest) ← digits? Text.isDigit rest
    return ('.' :: digits, rest)
  | _ => none

/-- Infinities and the undefined number. -/
def special? (source : List Char) : Option (Toml × List Char) :=
  let (sign, rest) := sign source
  match rest with
  | 'i' :: 'n' :: 'f' :: rest => some (.float (String.ofList (sign ++ "inf".toList)), rest)
  | 'n' :: 'a' :: 'n' :: rest => some (.float (String.ofList (sign ++ "nan".toList)), rest)
  | _ => none

/-- Read a number with a fraction or an exponent; a positive one must not be too large. -/
def float? (source : List Char) : Option (Toml × List Char) := do
  let (whole, rest) ← decimal? source
  let (fraction, rest) := (fraction? rest).getD ([], rest)
  let (exponent, rest) := (exponent? rest).getD ([], rest)
  guard (!(fraction ++ exponent).isEmpty)
  let unsigned := (Text.stripStart? ['+'] whole).getD whole
  let written := unsigned ++ fraction ++ exponent
  guard (unsigned.head? == some '-' || (Decimal.ofLiteral written).isFinite)
  return (.float (String.ofList written), rest)

/-! ### Times -/

/-- A number of exactly so many digits, within bounds. -/
def fixed? (count low high : Nat) (source : List Char) : Option (Nat × List Char) := do
  let digits := source.take count
  guard (digits.length = count)
  let value ← Text.digits? digits
  guard (low ≤ value ∧ value ≤ high)
  return (value, source.drop count)

def expect? (c : Char) (source : List Char) : Option (List Char) :=
  Text.stripStart? [c] source

def isLeap (year : Nat) : Bool :=
  year % 4 == 0 && (year % 100 != 0 || year % 400 == 0)

def daysIn (year month : Nat) : Nat :=
  if month = 2 then (if isLeap year then 29 else 28)
  else if month = 4 ∨ month = 6 ∨ month = 9 ∨ month = 11 then 30
  else 31

/-- What follows a date. -/
def date? (source : List Char) : Option (List Char) := do
  let (year, source) ← fixed? 4 0 9999 source
  let (month, source) ← fixed? 2 1 12 (← expect? '-' source)
  let (_, source) ← fixed? 2 1 (daysIn year month) (← expect? '-' source)
  return source

/-- What follows a time of day. -/
def clock? (source : List Char) : Option (List Char) := do
  let (_, source) ← fixed? 2 0 23 source
  let (_, source) ← fixed? 2 0 59 (← expect? ':' source)
  let (_, source) ← fixed? 2 0 60 (← expect? ':' source)
  match source with
  | '.' :: rest =>
    let (digits, after) := rest.span Text.isDigit
    return if digits.isEmpty then source else after
  | source => return source

/-- What follows the offset of a time, which may be missing. -/
def skipOffset (source : List Char) : List Char :=
  match source with
  | 'Z' :: rest => rest
  | 'z' :: rest => rest
  | c :: rest =>
    if c = '+' || c = '-' then
      ((do
        let (_, rest) ← fixed? 2 0 23 rest
        let (_, rest) ← fixed? 2 0 59 (← expect? ':' rest)
        return rest) : Option (List Char)).getD source
    else source
  | [] => []

/-- What follows a date, with a time of day and an offset if they are there. -/
def dateTime? (source : List Char) : Option (List Char) := do
  let rest ← date? source
  match rest with
  | c :: after =>
    if c = 'T' || c = 't' || c = ' ' then
      match clock? after with
      | some rest => return skipOffset rest
      | none => return rest
    else return rest
  | [] => return []

/-- Read a date, a time of day, or both. -/
def time? (source : List Char) : Option (Toml × List Char) := do
  let rest ← match dateTime? source with
    | some rest => some rest
    | none => clock? source
  return (.time (String.ofList (source.take (source.length - rest.length))), rest)

/-- Read a value that holds no other values. -/
def simple? (source : List Char) : Option (Toml × List Char) :=
  match source with
  | 't' :: 'r' :: 'u' :: 'e' :: rest => some (.boolean true, rest)
  | 'f' :: 'a' :: 'l' :: 's' :: 'e' :: rest => some (.boolean false, rest)
  | c :: rest =>
    if c = '"' || c = '\x27' then do
      let (text, rest) ← string? (c :: rest)
      return (.string (String.ofList text), rest)
    else match time? (c :: rest) with
    | some found => some found
    | none =>
      match float? (c :: rest) with
      | some found => some found
      | none =>
        match special? (c :: rest) with
        | some found => some found
        | none => integer? (c :: rest)
  | [] => none

end MergeRisk.Toml
