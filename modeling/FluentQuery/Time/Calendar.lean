/-
  The proleptic Gregorian calendar of the years 1 to 9999: dates as day numbers, day 0 being the
  first of January of the year 1, and times of day as seconds.
-/

namespace FluentQuery

/-- A date of the calendar with a time of day. -/
structure CivilTime where
  year : Nat
  month : Nat
  day : Nat
  hour : Nat
  minute : Nat
  second : Nat
  deriving DecidableEq, Repr

namespace Calendar

/-- Every fourth year is a leap year, but of the centuries only every fourth. -/
def isLeap (year : Nat) : Bool := year % 4 = 0 && (year % 100 ≠ 0 || year % 400 = 0)

/-- The lengths of the months, January first. -/
def monthLengths (leap : Bool) : List Nat :=
  [31, if leap then 29 else 28, 31, 30, 31, 30, 31, 31, 30, 31, 30, 31]

/-- The number of days in a month, months counting from one; zero for a month that does not exist. -/
def daysInMonth (year month : Nat) : Nat :=
  if month = 0 then 0 else (monthLengths (isLeap year)).getD (month - 1) 0

/-- The number of days before the first day of a year. -/
def daysBeforeYear (year : Nat) : Nat :=
  let past := year - 1
  past * 365 + past / 4 - past / 100 + past / 400

/-- The number of days of the year before the first day of a month. -/
def daysBeforeMonth (year month : Nat) : Nat :=
  ((monthLengths (isLeap year)).take (month - 1)).foldr (· + ·) 0

/-- The day number of a date. -/
def dayNumber (year month day : Nat) : Nat :=
  daysBeforeYear year + daysBeforeMonth year month + (day - 1)

/-- Month and day of the month for a day of the year, counting from `month` with these lengths. -/
def monthAndDay (month : Nat) : List Nat → Nat → Nat × Nat
  | [], day => (month, day + 1)
  | length :: rest, day =>
    if day < length then (month, day + 1) else monthAndDay (month + 1) rest (day - length)

/-- Year and day of the year for a day number. -/
def yearAndDay (number : Nat) : Nat × Nat :=
  let era := number / 146097
  let inEra := number % 146097
  let century := min (inEra / 36524) 3
  let inCentury := inEra - century * 36524
  let olympiad := inCentury / 1461
  let inOlympiad := inCentury % 1461
  let year := min (inOlympiad / 365) 3
  (400 * era + 100 * century + 4 * olympiad + year + 1, inOlympiad - year * 365)

/-- Year, month and day for a day number. -/
def dateOf (number : Nat) : Nat × Nat × Nat :=
  let (year, day) := yearAndDay number
  let (month, day) := monthAndDay 1 (monthLengths (isLeap year)) day
  (year, month, day)

/-- The day number of the first of January 1970. -/
def epochDay : Nat := dayNumber 1970 1 1

end Calendar

namespace CivilTime

/-- Whether such a date exists in the years 1 to 9999 and such a time in a day. -/
def isValid (t : CivilTime) : Bool :=
  1 ≤ t.year && t.year ≤ 9999 && 1 ≤ t.month && t.month ≤ 12 && 1 ≤ t.day &&
    t.day ≤ Calendar.daysInMonth t.year t.month && t.hour < 24 && t.minute < 60 && t.second < 60

/-- The seconds since the beginning of 1970. -/
def toSeconds (t : CivilTime) : Int :=
  ((Calendar.dayNumber t.year t.month t.day : Int) - Calendar.epochDay) * 86400 +
    (t.hour * 3600 + t.minute * 60 + t.second : Nat)

/-- The date and time of day so many seconds after the beginning of 1970, if that lies in the years
1 to 9999. -/
def ofSeconds? (seconds : Int) : Option CivilTime :=
  let day := seconds / 86400 + Calendar.epochDay
  let inDay := (seconds % 86400).toNat
  if day < 0 then none
  else
    let (year, month, day) := Calendar.dateOf day.toNat
    if 9999 < year then none
    else some ⟨year, month, day, inDay / 3600, inDay % 3600 / 60, inDay % 60⟩

end CivilTime

end FluentQuery
