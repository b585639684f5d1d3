import ItemMapper.Number.Basic

/-!
# Instants and civil dates

Instants are counted in seconds from the start of 1970 in UTC, without leap seconds; a leap second is
the last second of its minute, going on for another 10^9 nanoseconds. Civil dates are those of the
Gregorian calendar, continued to all years. Days are numbered from the first day of the year 0.
-/

namespace ItemMapper

/-- A day of the Gregorian calendar. -/
structure CivilDate where
  year : Int
  month : Nat
  day : Nat
deriving DecidableEq, Repr

/-- A point in time: seconds since the start of 1970 and nanoseconds within the second. -/
structure Instant where
  seconds : Int
  nanos : Nat
deriving DecidableEq, Repr

namespace CivilDate

/-- Whether a year has a 29th of February. -/
def isLeapYear (year : Int) : Bool :=
  year % 4 == 0 && (year % 100 != 0 || year % 400 == 0)

/-- The lengths of the months of a year. -/
def monthLengths (year : Int) : List Nat :=
  [31, if isLeapYear year then 29 else 28, 31, 30, 31, 30, 31, 31, 30, 31, 30, 31]

/-- The number of the first day of a year. -/
def firstDay (year : Int) : Int :=
  -- Divisions rounded up count the leap days before the year: the year 0 has one itself.
  365 * year + (year + 3) / 4 - (year + 99) / 100 + (year + 399) / 400

/-- Whether the month has the day. -/
def isValid (date : CivilDate) : Bool :=
  1 ≤ date.month && 1 ≤ date.day &&
    match (monthLengths date.year)[date.month - 1]? with
    | some length => date.day ≤ length
    | none => false

/-- The number of a day. -/
def dayNumber (date : CivilDate) : Int :=
  let before : Nat := ((monthLengths date.year).take (date.month - 1)).foldr (· + ·) 0
  firstDay date.year + before + (date.day - 1 : Nat)

/-- The year that a numbered day lies in. -/
def yearOfDay (number : Int) : Int :=
  -- 400 years have 146097 days, so the guess is wrong by one year at most.
  let guess := 400 * number / 146097
  if number < firstDay guess then guess - 1
  else if number < firstDay (guess + 1) then guess
  else guess + 1

/-- The month, counted from the given one, and the day for a position in a run of months. -/
def monthAndDay (month position : Nat) : List Nat → Nat × Nat
  | [] => (month, position + 1)
  | length :: rest =>
    if position < length then (month, position + 1)
    else monthAndDay (month + 1) (position - length) rest

/-- The civil date of a numbered day. -/
def ofDayNumber (number : Int) : CivilDate :=
  let year := yearOfDay number
  let (month, day) := monthAndDay 1 (number - firstDay year).toNat (monthLengths year)
  ⟨year, month, day⟩

/-- The day of the week, counted from Monday as 0. -/
def weekday (date : CivilDate) : Nat :=
  -- Day 0 is a Saturday.
  ((date.dayNumber + 5) % 7).toNat

end CivilDate

namespace Instant

/-- The number of the day on which 1970 starts. -/
def epochDay : Int := 719528

/-- The seconds of a day. -/
def daySeconds : Int := 86400

/-- The length of a second in nanoseconds. -/
def secondNanos : Nat := 1000000000

/-- The least year that instants are kept in. -/
def leastYear : Int := -262143

/-- The greatest year that instants are kept in. -/
def greatestYear : Int := 262142

/-- The seconds at a time of a civil day. -/
def secondsAt (date : CivilDate) (hour minute second : Nat) : Int :=
  (date.dayNumber - epochDay) * daySeconds + (hour * 3600 + minute * 60 + second : Nat)

/-- The civil day in UTC. -/
def date (instant : Instant) : CivilDate :=
  CivilDate.ofDayNumber (instant.seconds / daySeconds + epochDay)

/-- The second of the day in UTC. -/
def secondOfDay (instant : Instant) : Nat :=
  (instant.seconds % daySeconds).toNat

/-- Whether the seconds lie in the years that instants are kept in. -/
def inRange (seconds : Int) : Bool :=
  secondsAt ⟨leastYear, 1, 1⟩ 0 0 0 ≤ seconds && seconds < secondsAt ⟨greatestYear + 1, 1, 1⟩ 0 0 0

/-- Whether the nanoseconds fit the second: 10^9 or more only in the last second of a minute. -/
def nanosFit (seconds : Int) (nanos : Nat) : Bool :=
  nanos < secondNanos || (nanos < 2 * secondNanos && seconds % 60 == 59)

/-- The instant at some seconds and nanoseconds, if there is one. -/
def ofParts? (seconds : Int) (nanos : Nat) : Option Instant :=
  if inRange seconds && nanosFit seconds nanos then some ⟨seconds, nanos⟩ else none

/-- The instant that lies a number of milliseconds after the start of 1970. -/
def ofMillis? (millis : Int) : Option Instant :=
  ofParts? (millis / 1000) ((millis % 1000).toNat * 1000000)

/-- The instant that a number denotes as milliseconds since the start of 1970. -/
def ofNumber? (n : Number) : Option Instant :=
  ofMillis? n.toSigned

/-! ### Text -/

/-- A number with zeros in front, up to a width. -/
def padded (width n : Nat) : List Char :=
  let digits := Nat.toDigits 10 n
  List.replicate (width - digits.length) '0' ++ digits

/-- A year: four digits, or a sign and at least four digits outside 0 to 9999. -/
def yearText (year : Int) : List Char :=
  if 0 ≤ year ∧ year ≤ 9999 then padded 4 year.natAbs
  else (if year < 0 then '-' else '+') :: padded 4 year.natAbs

/-- The text of an instant in UTC, cut to milliseconds; a leap second has the number 60. -/
def chars (instant : Instant) : List Char :=
  let date := instant.date
  let second := instant.secondOfDay
  let leap := instant.nanos / secondNanos
  yearText date.year ++ '-' :: padded 2 date.month ++ '-' :: padded 2 date.day ++
    'T' :: padded 2 (second / 3600) ++ ':' :: padded 2 (second / 60 % 60) ++
    ':' :: padded 2 (second % 60 + leap) ++
    '.' :: padded 3 (instant.nanos % secondNanos / 1000000) ++ ['Z']

/-- The text under which an instant is stored. -/
def text (instant : Instant) : String :=
  String.ofList instant.chars

end Instant

end ItemMapper
