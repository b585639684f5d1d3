import ItemMapper.Calendar.Scan

/-!
# RFC 3339

A date, `T` or a blank, a time, and an offset from UTC: `2024-03-01T12:30:00.5+02:00`. Every number has
a fixed width.
-/

namespace ItemMapper.Calendar.Rfc3339

/-- The characters that may stand between the date and the time. -/
def isDivider (c : Char) : Bool :=
  c = 'T' || c = 't' || c = ' '

/-- Takes `Z`, or a sign and an offset with a colon; the offset is in minutes and below a day. -/
def scanOffset (cs : List Char) : Option (Int × List Char) :=
  let signed (sign : Int) (rest : List Char) : Option (Int × List Char) := do
    let (minutes, rest) ← scanHoursMinutes (scanChar ':') rest
    if minutes < 24 * 60 then some (sign * minutes, rest) else none
  match cs with
  | 'Z' :: rest | 'z' :: rest => some (0, rest)
  | '+' :: rest => signed 1 rest
  -- The second one is the minus sign U+2212.
  | '-' :: rest | '−' :: rest => signed (-1) rest
  | _ => none

/-- Takes `YYYY-MM-DD`. -/
def scanDate (cs : List Char) : Option (CivilDate × List Char) := do
  let (year, cs) ← scanNumber 4 4 cs
  let cs ← scanChar '-' cs
  let (month, cs) ← scanNumber 2 2 cs
  let cs ← scanChar '-' cs
  let (day, cs) ← scanNumber 2 2 cs
  some (⟨year, month, day⟩, cs)

/-- Takes `hh:mm:ss` and an optional fraction. -/
def scanTime (cs : List Char) : Option (CivilTime × List Char) := do
  let (hour, cs) ← scanNumber 2 2 cs
  let cs ← scanChar ':' cs
  let (minute, cs) ← scanNumber 2 2 cs
  let cs ← scanChar ':' cs
  let (second, cs) ← scanNumber 2 2 cs
  let (nanos, cs) ← scanFraction cs
  some (⟨hour, minute, second, nanos⟩, cs)

def read? (cs : List Char) : Option Instant := do
  let (date, cs) ← scanDate cs
  match cs with
  | [] => none
  | divider :: cs =>
    if isDivider divider then
      let (time, cs) ← scanTime cs
      let (offset, cs) ← scanOffset cs
      if cs.isEmpty then instant? date time offset else none
    else none

end ItemMapper.Calendar.Rfc3339
