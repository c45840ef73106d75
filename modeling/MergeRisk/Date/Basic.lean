/-! Dates and times of day, in universal time, and the seconds that they stand for. -/

namespace MergeRisk

/-- A date and a time of day, as far as they are known. -/
structure Date where
  year : Option Int := none
  month : Option Int := none
  day : Option Int := none
  hour : Option Int := none
  minute : Option Int := none
  second : Option Int := none
deriving DecidableEq, Repr

namespace Date

def daySeconds : Int := 86400

/-- The days from the start of 1970 to a day of a month. Years are counted from March, so that the day
a leap year adds is the last, and in periods of four hundred. -/
def daysTo (year month day : Int) : Int :=
  let months := 12 * year + (month - 3)
  let year := months / 12
  let month := months % 12
  let inPeriod := year % 400
  let days := (153 * month + 2) / 5 + day - 1
  year / 400 * 146097 + inPeriod * 365 + inPeriod / 4 - inPeriod / 100 + days - 719468

/-- The seconds from the start of 1970 to a date. Every part may be too great or too small. -/
def secondsTo (year month day hour minute second : Int) : Int :=
  daysTo year month day * daySeconds + hour * 3600 + minute * 60 + second

/-- The date so many seconds after the start of 1970. -/
def ofSeconds (time : Int) : Date :=
  let days := time / daySeconds + 719468
  let inDay := time % daySeconds
  let inPeriod := days % 146097
  let year := (inPeriod - inPeriod / 1460 + inPeriod / 36524 - inPeriod / 146096) / 365
  let inYear := inPeriod - (365 * year + year / 4 - year / 100)
  let month := (5 * inYear + 2) / 153
  let isLate := 10 ≤ month
  { year := some (year + days / 146097 * 400 + if isLate then 1 else 0)
    month := some (if isLate then month - 9 else month + 3)
    day := some (inYear - (153 * month + 2) / 5 + 1)
    hour := some (inDay / 3600)
    minute := some (inDay / 60 % 60)
    second := some (inDay % 60) }

/-- The day of the week, counted from Sunday. -/
def weekday (time : Int) : Int :=
  (time / daySeconds + 4) % 7

/-- The seconds to a date of the years from 1970 to 2099 with all its parts, but for the day. -/
def seconds? (date : Date) : Option Int := do
  let year ← date.year
  guard (1970 ≤ year ∧ year < 2100)
  return secondsTo year (← date.month) (date.day.getD (-1)) (← date.hour) (← date.minute)
    (← date.second)

/-- Whether nothing is known. -/
def isEmpty (date : Date) : Bool := date = {}

end Date

end MergeRisk
