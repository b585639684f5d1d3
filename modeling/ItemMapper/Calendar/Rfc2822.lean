import ItemMapper.Calendar.Scan

/-!
# RFC 2822

Dates as mail headers have them: `Fri, 1 Mar 2024 12:30:00 +0200 (comment)`. Names count without regard
to case, and blanks may be repeated.
-/

namespace ItemMapper.Calendar.Rfc2822

/-- The names of the days of the week, from Monday on. -/
def weekdays : List (List Char) :=
  [['m', 'o', 'n'], ['t', 'u', 'e'], ['w', 'e', 'd'], ['t', 'h', 'u'], ['f', 'r', 'i'],
    ['s', 'a', 't'], ['s', 'u', 'n']]

/-- The names of the months, from January on. -/
def months : List (List Char) :=
  [['j', 'a', 'n'], ['f', 'e', 'b'], ['m', 'a', 'r'], ['a', 'p', 'r'], ['m', 'a', 'y'],
    ['j', 'u', 'n'], ['j', 'u', 'l'], ['a', 'u', 'g'], ['s', 'e', 'p'], ['o', 'c', 't'],
    ['n', 'o', 'v'], ['d', 'e', 'c']]

/-- Takes one of several names of three letters and gives its position among them. -/
def scanName (names : List (List Char)) (cs : List Char) : Option (Nat × List Char) :=
  match names.idxOf? ((cs.take 3).map Char.toLower) with
  | some index => some (index, cs.drop 3)
  | none => none

/-- Takes a day of the week and a comma, if the text starts with a day of the week. -/
def scanWeekday (cs : List Char) : Option ((Option Nat) × List Char) :=
  match scanName weekdays cs with
  | none => some (none, cs)
  | some (weekday, rest) =>
    match rest with
    | ',' :: rest => some (some weekday, rest)
    | _ => none

/-- The year that digits mean: years of two or three digits are short for ones of our time. -/
def fullYear (year digits : Nat) : Nat :=
  if digits = 2 then if year ≤ 49 then year + 2000 else year + 1900
  else if digits = 3 then year + 1900
  else year

/-- The offset in hours that a zone name stands for. -/
def zoneHours? (name : List Char) : Option Int :=
  let lower := name.map Char.toLower
  if lower = ['g', 'm', 't'] ∨ lower = ['u', 't'] then some 0
  else if lower = ['e', 'd', 't'] then some (-4)
  else if lower = ['e', 's', 't'] ∨ lower = ['c', 'd', 't'] then some (-5)
  else if lower = ['c', 's', 't'] ∨ lower = ['m', 'd', 't'] then some (-6)
  else if lower = ['m', 's', 't'] ∨ lower = ['p', 'd', 't'] then some (-7)
  else if lower = ['p', 's', 't'] then some (-8)
  else
    match lower with
    -- Military zones: an earlier standard swapped their signs, so all of them are read as UTC.
    | [letter] => if letter = 'j' then none else some 0
    | _ => none

/-- Takes a zone: a name, or a sign and four digits. -/
def scanZone (cs : List Char) : Option (Int × List Char) :=
  let signed (sign : Int) (rest : List Char) : Option (Int × List Char) := do
    let (minutes, rest) ← scanHoursMinutes some rest
    if minutes < 24 * 60 then some (sign * minutes, rest) else none
  match cs.takeWhile Char.isAlpha with
  | [] =>
    match cs with
    | '+' :: rest => signed 1 rest
    | '-' :: rest => signed (-1) rest
    | _ => none
  | name => (zoneHours? name).map fun hours => (hours * 60, cs.dropWhile Char.isAlpha)

/-- The text after the end of a comment that is open so many times. -/
def closeComment (depth : Nat) : List Char → Option (List Char)
  | [] => none
  | ['\\'] => none
  -- A backslash takes its meaning from a parenthesis behind it.
  | '\\' :: _ :: rest => closeComment depth rest
  | '(' :: rest => closeComment (depth + 1) rest
  | ')' :: rest => if depth ≤ 1 then some rest else closeComment (depth - 1) rest
  | _ :: rest => closeComment depth rest

/-- Whether a text is a run of comments with blanks in front of each; `budget` bounds their number. -/
def areComments (budget : Nat) (cs : List Char) : Bool :=
  match budget with
  | 0 => cs.isEmpty
  | budget + 1 =>
    cs.isEmpty ||
      match Text.trimStart cs with
      | '(' :: rest =>
        match closeComment 1 rest with
        | some rest => areComments budget rest
        | none => false
      | _ => false

/-- Takes the seconds after a colon, if there is a colon. -/
def scanSeconds (cs : List Char) : Option (Nat × List Char) :=
  match scanChar ':' (Text.trimStart cs) with
  | some rest => scanNumber 2 2 rest
  | none => some (0, cs)

/-- Reads a whole text; a day of the week must be that of the date. -/
def read? (cs : List Char) : Option Instant := do
  let (weekday, cs) ← scanWeekday (Text.trimStart cs)
  let (day, cs) ← scanNumber 1 2 (Text.trimStart cs)
  let cs ← scanBlanks cs
  let (month, cs) ← scanName months cs
  let cs ← scanBlanks cs
  let ((year, digits), cs) ← scanDigits 2 cs
  let cs ← scanBlanks cs
  let (hour, cs) ← scanNumber 2 2 cs
  let cs ← scanChar ':' (Text.trimStart cs)
  let (minute, cs) ← scanNumber 2 2 (Text.trimStart cs)
  let (second, cs) ← scanSeconds cs
  let cs ← scanBlanks cs
  let (offset, cs) ← scanZone cs
  let date : CivilDate := ⟨fullYear year digits, month + 1, day⟩
  if areComments cs.length cs && (weekday.all fun named => named == date.weekday) then
    instant? date ⟨hour, minute, second, 0⟩ offset
  else none

end ItemMapper.Calendar.Rfc2822
