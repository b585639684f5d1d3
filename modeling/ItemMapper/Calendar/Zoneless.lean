import ItemMapper.Calendar.Scan

/-!
# Dates without a zone

A date, alone or with a time after `T` or after blanks, taken as UTC: `2024-3-1 12:30:00.5`. Blanks may
stand in front of every number, and years may have a sign.
-/

namespace ItemMapper.Calendar.Zoneless

/-- Takes a year: after a sign any number of digits, else up to four. -/
def scanYear (cs : List Char) : Option (Int × List Char) :=
  match Text.trimStart cs with
  | '-' :: rest => (scanDigits 1 rest).map fun ((year, _), rest) => (-(year : Int), rest)
  | '+' :: rest => (scanDigits 1 rest).map fun ((year, _), rest) => ((year : Int), rest)
  | rest => (scanNumber 1 4 rest).map fun (year, rest) => ((year : Int), rest)

/-- Takes a number of one or two digits, with blanks in front. -/
def scanPart (cs : List Char) : Option (Nat × List Char) :=
  scanNumber 1 2 (Text.trimStart cs)

/-- Takes a date. -/
def scanDate (cs : List Char) : Option (CivilDate × List Char) := do
  let (year, cs) ← scanYear cs
  let cs ← scanChar '-' cs
  let (month, cs) ← scanPart cs
  let cs ← scanChar '-' cs
  let (day, cs) ← scanPart cs
  some (⟨year, month, day⟩, cs)

/-- Takes a time. -/
def scanTime (cs : List Char) : Option (CivilTime × List Char) := do
  let (hour, cs) ← scanPart cs
  let cs ← scanChar ':' cs
  let (minute, cs) ← scanPart cs
  let cs ← scanChar ':' cs
  let (second, cs) ← scanPart cs
  let (nanos, cs) ← scanFraction cs
  some (⟨hour, minute, second, nanos⟩, cs)

/-- Reads a whole text with a date and a time, which something divides. -/
def readDateTime? (divider : List Char → Option (List Char)) (cs : List Char) : Option Instant := do
  let (date, cs) ← scanDate cs
  let cs ← divider cs
  let (time, cs) ← scanTime cs
  if cs.isEmpty then instant? date time 0 else none

/-- Reads a whole text with a date alone, which means its first instant. -/
def readDate? (cs : List Char) : Option Instant := do
  let (date, cs) ← scanDate cs
  if cs.isEmpty then instant? date ⟨0, 0, 0, 0⟩ 0 else none

def read? (cs : List Char) : Option Instant :=
  readDateTime? (scanChar 'T') cs <|> readDateTime? (fun cs => some (Text.trimStart cs)) cs <|>
    readDate? cs

end ItemMapper.Calendar.Zoneless
