import MergeRisk.Date.Basic
import MergeRisk.Text.Cut
import MergeRisk.Text.Natural

/-! Dates as people write them: in numbers, with the names of months, or by how long ago they were. -/

namespace MergeRisk.Date

def monthNames : List String :=
  ["January", "February", "March", "April", "May", "June", "July", "August", "September", "October",
    "November", "December"]

def weekdayNames : List String :=
  ["Sundays", "Mondays", "Tuesdays", "Wednesdays", "Thursdays", "Fridays", "Saturdays"]

def numberNames : List String :=
  ["one", "two", "three", "four", "five", "six", "seven", "eight", "nine", "ten"]

/-- Spans of time and their seconds. -/
def spans : List (String × Nat) :=
  [("seconds", 1), ("minutes", 60), ("hours", 3600), ("days", 86400), ("weeks", 604800)]

/-- How much of a name a word gives: all of the word or nothing. Case does not matter. -/
def given (word : List Char) (name : String) : Nat :=
  if Text.startsWith (word.map Char.toLower) (name.toList.map Char.toLower) then word.length else 0

/-- The position of the first name of which a word gives so many characters. -/
def named? (word : List Char) (least : Nat) (names : List String) : Option Nat :=
  names.findIdx? fun name => least ≤ given word name

/-- Whether a word is a name. -/
def isNamed (word : List Char) (name : String) : Bool :=
  given word name == name.length

/-! ### Numbers -/

/-- Digits, and what follows them. -/
def number (text : List Char) : Nat × List Char :=
  let (digits, rest) := text.span Text.isDigit
  ((Text.digits? digits).getD 0, rest)

/-- The date with a day of a year, if there can be one that is not ten days away or more. The year may
be left out; its century may be, too. -/
def withDay? (now : Int) (date : Date) (year : Option Int) (month day : Int) : Option Date := do
  guard (0 < month ∧ month < 13 ∧ 0 < day ∧ day < 32)
  let full ← match year with
    | none => (ofSeconds now).year
    | some year =>
      if 1970 ≤ year ∧ year < 2100 then some year
      else if 70 < year ∧ year < 100 then some (1900 + year)
      else if year < 38 then some (2000 + year)
      else none
  let found := { date with year := some full, month := some month, day := some day }
  guard (found.seconds?.all fun time => time ≤ now + 10 * daySeconds)
  return if year.isSome then found else { found with year := date.year }

/-- The date with two or three numbers, of which the first is known, with a mark between them: a time
of day, or a day in one of the usual orders. -/
def withNumbers? (now : Int) (date : Date) (first : Nat) (mark : Char) (text : List Char) :
    Option (Date × List Char) := do
  let (second, rest) := number text
  let (third, rest) : Option Nat × List Char := match rest with
    | c :: digit :: after =>
      if c = mark && Text.isDigit digit then
        let (third, rest) := number (digit :: after)
        (some third, rest)
      else (none, rest)
    | rest => (none, rest)
  let year : Option Int := third.map (·)
  let last : Int := (year.getD (-1))
  if mark = ':' then
    let last := third.getD 0
    guard (first < 25 ∧ second < 60 ∧ last ≤ 60)
    return ({ date with hour := some first, minute := some second, second := some last }, rest)
  let orders : List (Option Date) :=
    (if 70 < first then [withDay? now date (some first) second last,
      withDay? now date (some first) last second] else []) ++
    (if mark != '.' then [withDay? now date year first second] else []) ++
    [withDay? now date year second first] ++
    (if mark = '.' then [withDay? now date year first second] else [])
  return (← orders.findSome? id, rest)

/-- Whether a mark with a digit behind it follows. -/
def isMarked (text : List Char) : Bool :=
  match text with
  | mark :: digit :: _ => [':', '.', '/', '-'].contains mark && Text.isDigit digit
  | _ => false

/-! ### Full dates -/

/-- What is known of a date with all its parts: the minutes it is ahead of universal time, and whether
it was given in seconds. -/
structure Exact where
  date : Date := {}
  ahead : Option Int := none
  isCounted : Bool := false

namespace Exact

/-- Take a number alone, by its number of digits: a time in seconds, a year or a zone, a day, a short
year, or a month. -/
def takeNumber (exact : Exact) (value count : Nat) : Exact :=
  let date := exact.date
  if 100000000 ≤ value && date.isEmpty then
    { exact with date := ofSeconds value, isCounted := true }
  else if count = 4 then
    if value ≤ 1400 && exact.ahead.isNone then
      { exact with ahead := some (value / 100 * 60 + value % 100 : Nat) }
    else if 1900 < value && value < 2100 then
      { exact with date := { date with year := some value } }
    else exact
  else if 2 < count then exact
  else if 0 < value && value < 32 && date.day.isNone then
    { exact with date := { date with day := some value } }
  else if count = 2 && date.year.isNone && value < 10 && date.day.isSome then
    { exact with date := { date with year := some (2000 + value) } }
  else if count = 2 && date.year.isNone && 70 ≤ value then
    { exact with date := { date with year := some (1900 + value) } }
  else if 0 < value && value < 13 && date.month.isNone then
    { exact with date := { date with month := some value } }
  else exact

def takeDigits (exact : Exact) (now : Int) (text : List Char) : Exact × List Char :=
  let (value, rest) := number text
  let alone := (exact.takeNumber value (text.length - rest.length), rest)
  if 100000000 ≤ value && exact.date.isEmpty || !isMarked rest then alone
  else match withNumbers? now exact.date value (rest.headD ':') (rest.drop 1) with
    | some (date, rest) => ({ exact with date }, rest)
    | none => alone

/-- Take a word: the name of a month, or a half of the day. -/
def takeWord (exact : Exact) (word : List Char) : Exact :=
  let date := exact.date
  match named? word 3 monthNames with
  | some index => { exact with date := { date with month := some (index + 1) } }
  | none =>
    if isNamed word "PM" then
      { exact with date := { date with hour := some ((date.hour.getD (-1)).tmod 12 + 12) } }
    else if isNamed word "AM" then
      { exact with date := { date with hour := some ((date.hour.getD (-1)).tmod 12) } }
    else exact

/-- Take the hours and minutes of a zone, with or without a colon between them. -/
def takeZone (exact : Exact) (isBehind : Bool) (text : List Char) : Exact × List Char :=
  let (value, rest) := number text
  let count := text.length - rest.length
  let (hours, minutes, rest) :=
    if count = 4 then (value / 100, value % 100, rest)
    else if count ≠ 2 then (value, 99, rest)
    else match rest with
      | ':' :: after =>
        let (minutes, rest) := number after
        (value, if after.length - rest.length = 2 then minutes else 99, rest)
      | rest => (value, 0, rest)
  if minutes < 60 && hours < 24 then
    let ahead : Int := (hours * 60 + minutes : Nat)
    ({ exact with ahead := some (if isBehind then -ahead else ahead) }, rest)
  else (exact, rest)

/-- Take the parts of a text one after another. The fuel is the length of the text. -/
def readFrom (now : Int) : (fuel : Nat) → Exact → List Char → Exact
  | 0, exact, _ => exact
  | _, exact, [] => exact
  | fuel + 1, exact, c :: text =>
    if c = '\n' then exact
    else if c.isAlpha then
      let word := (c :: text).takeWhile Char.isAlphanum
      let isKnown := (named? word 3 (monthNames ++ weekdayNames)).isSome
      readFrom now fuel (exact.takeWord word)
        (if isKnown then (c :: text).drop word.length else (c :: text).dropWhile Char.isAlpha)
    else if Text.isDigit c then
      let (exact, rest) := exact.takeDigits now (c :: text)
      readFrom now fuel exact rest
    else if (c = '-' || c = '+') && text.head?.any Text.isDigit then
      let (exact, rest) := exact.takeZone (c = '-') text
      readFrom now fuel exact rest
    else readFrom now fuel exact text

def time? (exact : Exact) : Option Int := do
  let time ← exact.date.seconds?
  return if exact.isCounted then time else time - exact.ahead.getD 0 * 60

end Exact

/-! ### Dates by and by -/

/-- What is known of a date that is described: a time that some of it is taken from, with its day of
the week, a number whose meaning is not known yet, and whether anything was said at all. -/
structure Guess where
  date : Date
  weekday : Int
  pending : Nat := 0
  isTouched : Bool := false

namespace Guess

/-- The present, but for the day. -/
def start (now : Int) : Guess :=
  ⟨{ ofSeconds now with year := none, month := none, day := none }, Date.weekday now, 0, false⟩

/-- The time, with today for what is not known of the day. A later month is one of last year. -/
def time (guess : Guess) (now : Int) : Int :=
  let today := ofSeconds now
  let date := guess.date
  let month := (date.month.orElse fun _ => today.month).getD 1
  let isLater := today.month.any (· < month)
  let year := date.year.getD (today.year.getD 1970 - if isLater then 1 else 0)
  secondsTo year month ((date.day.orElse fun _ => today.day).getD 1) (date.hour.getD 0)
    (date.minute.getD 0) (date.second.getD 0)

/-- Go back so many seconds. -/
def back (guess : Guess) (now seconds : Int) : Guess :=
  let time := guess.time now - seconds
  { guess with date := ofSeconds time, weekday := Date.weekday time }

/-- Go to an hour, of the day before if it is still to come. -/
def atHour (guess : Guess) (now hour : Int) : Guess :=
  let guess := if guess.date.hour.any (· < hour) then guess.back now daySeconds else guess
  { guess with date := { guess.date with hour := some hour, minute := some 0, second := some 0 } }

/-- Take the pending number as an hour of a half of the day. -/
def inHalf (guess : Guess) (start : Int) : Guess :=
  let date := if guess.pending = 0 then guess.date
    else { guess.date with hour := some guess.pending, minute := some 0, second := some 0 }
  { guess with pending := 0, date := { date with hour := some (date.hour.getD 0 % 12 + start) } }

/-- Take the pending number as a day, a month or a year. -/
def settle (guess : Guess) : Guess :=
  let value := guess.pending
  let date := guess.date
  let date :=
    if value = 0 then date
    else if value < 32 && date.day.isNone then { date with day := some value }
    else if value < 13 && date.month.isNone then { date with month := some value }
    else if date.year.isSome then date
    else if 1969 < value && value < 2100 then { date with year := some value }
    else if 69 < value && value < 100 then { date with year := some (1900 + value) }
    else if value < 38 then { date with year := some (2000 + value) }
    else date
  { guess with date, pending := 0 }

/-- Take a word that means the same with any number before it. -/
def takeSpecial? (guess : Guess) (now : Int) (word : List Char) : Option Guess :=
  if isNamed word "yesterday" then some (guess.back now daySeconds)
  else if isNamed word "noon" then some (guess.atHour now 12)
  else if isNamed word "midnight" then some (guess.atHour now 0)
  else if isNamed word "tea" then some (guess.atHour now 17)
  else if isNamed word "PM" then some (guess.inHalf 12)
  else if isNamed word "AM" then some (guess.inHalf 0)
  else if isNamed word "never" then some { guess with date := ofSeconds 0, weekday := 4 }
  else if isNamed word "now" then some (guess.back now 0)
  else none

/-- Take a word for a number. -/
def takeCount? (guess : Guess) (word : List Char) : Option Guess :=
  match numberNames.findIdx? (isNamed word) with
  | some index => some { guess with pending := index + 1 }
  | none => if isNamed word "last" then some { guess with pending := 1 } else none

/-- Take what the pending number counts. -/
def takeCounted? (guess : Guess) (now : Int) (word : List Char) : Option Guess :=
  let count : Int := guess.pending
  let counted := { guess with pending := 0 }
  match spans.find? fun (name, _) => name.length - 1 ≤ given word name with
  | some (_, length) => some (counted.back now (count * length))
  | none =>
    match named? word 3 weekdayNames with
    | some index =>
      let days := guess.weekday - index
      let weeks := if days ≤ 0 then count else count - 1
      some (counted.back now ((days + 7 * weeks) * daySeconds))
    | none =>
      let filled := counted.back now 0
      let date := filled.date
      if 5 ≤ given word "months" then
        let months := 12 * date.year.getD 1970 + date.month.getD 1 - 1 - count
        some { filled with
          date := { date with year := some (months / 12), month := some (months % 12 + 1) } }
      else if 4 ≤ given word "years" then
        some { filled with date := { date with year := some (date.year.getD 1970 - count) } }
      else none

def takeWord (guess : Guess) (now : Int) (word : List Char) : Guess :=
  let found := match named? word 3 monthNames with
    | some index => some { guess with date := { guess.date with month := some (index + 1 : Nat) } }
    | none => (guess.takeSpecial? now word).orElse fun _ =>
      if guess.pending = 0 then guess.takeCount? word else guess.takeCounted? now word
  (found.map fun guess => { guess with isTouched := true }).getD guess

/-- Take digits: a date or a time of day, or else a number whose meaning is to be found. Only small
numbers start with a zero. -/
def takeDigits (guess : Guess) (now : Int) (text : List Char) : Guess × List Char :=
  let (value, rest) := number text
  let isPlain := text.head? != some '0' || text.length - rest.length ≤ 2
  let alone := (if isPlain then { guess with pending := value } else guess, rest)
  if !isMarked rest then alone
  else match withNumbers? now guess.date value (rest.headD ':') (rest.drop 1) with
    | some (date, rest) => ({ guess with date }, rest)
    | none => alone

/-- Take the parts of a text one after another. The fuel is the length of the text. -/
def readFrom (now : Int) : (fuel : Nat) → Guess → List Char → Guess
  | 0, guess, _ => guess
  | _, guess, [] => guess
  | fuel + 1, guess, c :: text =>
    if Text.isDigit c then
      let (guess, rest) := guess.settle.takeDigits now (c :: text)
      readFrom now fuel { guess with isTouched := true } rest
    else if c.isAlpha then
      readFrom now fuel (guess.takeWord now ((c :: text).takeWhile Char.isAlphanum))
        ((c :: text).dropWhile Char.isAlpha)
    else readFrom now fuel guess text

end Guess

/-- The time that a text means at some present time, if it means any. -/
def read? (now : Int) (text : String) : Option Int :=
  let text := text.toList
  ((Exact.readFrom now text.length {} text).time?).orElse fun _ =>
    let guess := (Guess.readFrom now text.length (.start now) text).settle
    if guess.isTouched then some (guess.time now) else none

end MergeRisk.Date
