import ItemMapper.Calendar.Instant
import ItemMapper.Number.Decimal
import ItemMapper.Text.Blank

/-!
# Parts of date texts

What the spellings of dates share. Every scan takes something off the front of a text and gives the
text after it.
-/

namespace ItemMapper.Calendar

/-- Takes one character. -/
def scanChar (c : Char) : List Char → Option (List Char)
  | [] => none
  | first :: rest => if first = c then some rest else none

/-- Takes as many digits as there are, but at least and at most so many. -/
def scanNumber (least most : Nat) (cs : List Char) : Option (Nat × List Char) :=
  let digits := (cs.take most).takeWhile Char.isDigit
  if digits.length < least then none
  else some (Decimal.digitsValue digits, cs.drop digits.length)

/-- Takes all digits, but at least so many; also gives their number. -/
def scanDigits (least : Nat) (cs : List Char) : Option ((Nat × Nat) × List Char) :=
  let digits := cs.takeWhile Char.isDigit
  if digits.length < least then none
  else some ((Decimal.digitsValue digits, digits.length), cs.dropWhile Char.isDigit)

/-- Takes blanks, at least one. -/
def scanBlanks (cs : List Char) : Option (List Char) :=
  match cs with
  | [] => none
  | c :: _ => if Text.isBlank c then some (Text.trimStart cs) else none

/-- The nanoseconds that digits after a point stand for; digits after the ninth do not count. -/
def fractionNanos (digits : List Char) : Nat :=
  let kept := digits.take 9
  Decimal.digitsValue kept * Nat.pow 10 (9 - kept.length)

/-- Takes a point and digits, at least one, if there is a point. -/
def scanFraction (cs : List Char) : Option (Nat × List Char) :=
  match cs with
  | '.' :: rest =>
    let digits := rest.takeWhile Char.isDigit
    if digits.isEmpty then none else some (fractionNanos digits, rest.dropWhile Char.isDigit)
  | _ => some (0, cs)

/-- A civil time: an hour, a minute, a second up to 60 and nanoseconds. -/
structure CivilTime where
  hour : Nat
  minute : Nat
  second : Nat
  nanos : Nat
deriving DecidableEq, Repr

/-- Whether a day has such a time; second 60 is a leap second, which any minute may have. -/
def CivilTime.isValid (time : CivilTime) : Bool :=
  time.hour ≤ 23 && time.minute ≤ 59 && time.second ≤ 60

/-- Whether instants are kept for a year. -/
def yearInRange (year : Int) : Bool :=
  Instant.leastYear ≤ year && year ≤ Instant.greatestYear

/-- The instant of a civil date and time that are ahead of UTC by so many minutes. -/
def instant? (date : CivilDate) (time : CivilTime) (offset : Int) : Option Instant :=
  if yearInRange date.year && date.isValid && time.isValid then
    -- A leap second stays within second 59 and has 10^9 nanoseconds more.
    let leap := if time.second = 60 then Instant.secondNanos else 0
    let seconds := Instant.secondsAt date time.hour time.minute (min time.second 59) - offset * 60
    if Instant.inRange seconds then some ⟨seconds, time.nanos + leap⟩ else none
  else none

/-- Two digits each for hours and minutes, the minutes below 60, with text between them. -/
def scanHoursMinutes (between : List Char → Option (List Char)) (cs : List Char) : Option (Int × List Char) := do
  let (hours, cs) ← scanNumber 2 2 cs
  let cs ← between cs
  let (minutes, cs) ← scanNumber 2 2 cs
  if minutes ≤ 59 then some (hours * 60 + minutes, cs) else none

end ItemMapper.Calendar
