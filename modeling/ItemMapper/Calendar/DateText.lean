import ItemMapper.Calendar.Rfc2822
import ItemMapper.Calendar.Rfc3339
import ItemMapper.Calendar.Zoneless

/-!
# Date texts

The spellings of dates that are understood, tried one after another.
-/

namespace ItemMapper

/-- The instant that a text denotes in the first spelling that fits all of it between its blanks. -/
def Instant.ofChars? (cs : List Char) : Option Instant :=
  let trimmed := Text.trim cs
  Calendar.Rfc3339.read? trimmed <|> Calendar.Rfc2822.read? trimmed <|>
    Calendar.Zoneless.read? trimmed

/-- The instant that a text denotes. -/
def Instant.ofText? (text : String) : Option Instant :=
  Instant.ofChars? text.toList

end ItemMapper
