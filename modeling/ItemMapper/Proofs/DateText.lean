import ItemMapper.Calendar.DateText
import ItemMapper.Proofs.CivilDays
import ItemMapper.Proofs.NumberText

/-!
# Reading back stored dates

An instant is stored as a text whose numbers have a fixed width. The reader of that spelling takes every
number back off the front, and the civil date leads back to the day it was made from, so an instant of
whole milliseconds in a year of four digits is read back from its text (`ofText?_text`). The text of any
other instant in such a year is that of one (`isStorable_shown`, `text_shown`): nanoseconds below the
millisecond are not shown, and those beyond a second are shown as the next one.
-/

namespace ItemMapper

/-! ### Numbers of a fixed width -/

namespace Instant

theorem length_padded {width n : Nat} (positive : 0 < width) (small : n < 10 ^ width) :
    (padded width n).length = width := by
  have fits := (Nat.length_toDigits_le_iff (by decide) positive).mpr small
  simp only [padded, List.length_append, List.length_replicate]
  omega

theorem isDigit_of_mem_padded {width n : Nat} {c : Char} (member : c ∈ padded width n) :
    c.isDigit := by
  rcases List.mem_append.mp member with zero | digit
  · rw [List.eq_of_mem_replicate zero]
    decide
  · exact Decimal.isDigit_of_mem_toDigits digit

theorem digitsValue_padded (width n : Nat) : Decimal.digitsValue (padded width n) = n := by
  change Nat.ofDigitChars 10 (padded width n) 0 = n
  simp [padded, Nat.ofDigitChars_append]

end Instant

namespace Calendar

open Instant

theorem scanNumber_padded {least width n : Nat} (positive : 0 < width) (enough : least ≤ width)
    (small : n < 10 ^ width) (rest : List Char) :
    scanNumber least width (padded width n ++ rest) = some (n, rest) := by
  have length := length_padded positive small
  have digits : (padded width n).takeWhile Char.isDigit = padded width n :=
    List.takeWhile_eq_self_iff.mpr fun _ => isDigit_of_mem_padded
  have taken : (padded width n ++ rest).take width = padded width n := List.take_left' length
  unfold scanNumber
  simp only [taken, digits, length, Nat.not_lt.mpr enough, if_false, digitsValue_padded]
  rw [List.drop_left' length]

theorem scanFraction_point {digits rest : List Char} (each : Decimal.AreDigits digits) (some_digit : digits ≠ [])
    (stops : Decimal.StopsDigits rest) :
    scanFraction ('.' :: (digits ++ rest)) = some (fractionNanos digits, rest) := by
  have taken := Decimal.takeWhile_digits each stops
  have dropped := Decimal.dropWhile_digits each stops
  simp [scanFraction, taken, dropped, some_digit]

theorem scanFraction_padded {millis : Nat} (small : millis < 1000) :
    scanFraction ('.' :: (padded 3 millis ++ ['Z'])) = some (millis * 1000000, ['Z']) := by
  have length : (padded 3 millis).length = 3 := length_padded (by decide) small
  have present : padded 3 millis ≠ [] := by
    intro empty
    rw [empty] at length
    exact absurd length (by decide)
  have stops : Decimal.StopsDigits ['Z'] := by
    rintro _ ⟨⟩
    decide
  have nanos : fractionNanos (padded 3 millis) = millis * 1000000 := by
    have kept : (padded 3 millis).take 9 = padded 3 millis := by
      rw [List.take_of_length_le]
      omega
    simp [fractionNanos, kept, length, digitsValue_padded]
  rw [scanFraction_point (fun _ => isDigit_of_mem_padded) present stops, nanos]

namespace Rfc3339

theorem scanDate_padded {year month day : Nat} (year_small : year < 10000) (month_small : month < 100)
    (day_small : day < 100) (rest : List Char) :
    scanDate (padded 4 year ++ '-' :: (padded 2 month ++ '-' :: (padded 2 day ++ rest))) =
      some (⟨year, month, day⟩, rest) := by
  have scanned_year := @scanNumber_padded 4 4 year (by decide) (by decide) year_small
  have scanned_month := @scanNumber_padded 2 2 month (by decide) (by decide) month_small
  have scanned_day := @scanNumber_padded 2 2 day (by decide) (by decide) day_small
  simp [scanDate, scanned_year, scanned_month, scanned_day, scanChar]

theorem scanTime_padded {hour minute second nanos : Nat} (hour_small : hour < 100)
    (minute_small : minute < 100) (second_small : second < 100) {behind rest : List Char}
    (scanned_fraction : scanFraction behind = some (nanos, rest)) :
    scanTime (padded 2 hour ++ ':' :: (padded 2 minute ++ ':' :: (padded 2 second ++ behind))) =
      some (⟨hour, minute, second, nanos⟩, rest) := by
  have scanned_hour := @scanNumber_padded 2 2 hour (by decide) (by decide) hour_small
  have scanned_minute := @scanNumber_padded 2 2 minute (by decide) (by decide) minute_small
  have scanned_second := @scanNumber_padded 2 2 second (by decide) (by decide) second_small
  simp [scanTime, scanned_hour, scanned_minute, scanned_second, scanned_fraction, scanChar]

end Rfc3339

end Calendar

/-! ### Instants -/

namespace Instant

/--
The instants that keep their value in their text: whole milliseconds, in a year of four digits. The
nanoseconds go beyond a second only in a leap second, which ends a minute.
-/
structure IsStorable (instant : Instant) : Prop where
  fits : nanosFit instant.seconds instant.nanos
  wholeMillis : instant.nanos % 1000000 = 0
  fourDigits : 0 ≤ instant.date.year ∧ instant.date.year ≤ 9999

theorem isValid_date (instant : Instant) : instant.date.isValid :=
  CivilDate.isValid_ofDayNumber _

theorem dayNumber_date (instant : Instant) :
    instant.date.dayNumber = instant.seconds / daySeconds + epochDay :=
  CivilDate.dayNumber_ofDayNumber _

/-- A day and a second of it make up the seconds of an instant. -/
theorem secondsAt_date (instant : Instant) :
    secondsAt instant.date (instant.secondOfDay / 3600) (instant.secondOfDay / 60 % 60)
      (instant.secondOfDay % 60) = instant.seconds := by
  simp only [secondsAt, secondOfDay, dayNumber_date, daySeconds]
  omega

theorem secondOfDay_lt (instant : Instant) : instant.secondOfDay < 86400 := by
  simp only [secondOfDay, daySeconds]
  omega

/-- The days of the years of four digits, and one more on each side, lie well within those that are kept. -/
theorem inRange_of_day {seconds : Int} (low : -1 ≤ seconds / daySeconds + epochDay)
    (high : seconds / daySeconds + epochDay ≤ 3652425) : inRange seconds := by
  have first : secondsAt ⟨leastYear, 1, 1⟩ 0 0 0 = -8334601228800 := by decide
  have last : secondsAt ⟨greatestYear + 1, 1, 1⟩ 0 0 0 = 8210266876800 := by decide
  simp only [inRange, first, last, Bool.and_eq_true, decide_eq_true_eq]
  simp only [epochDay, daySeconds] at low high
  omega

theorem inRange_of_fourDigits {instant : Instant}
    (fourDigits : 0 ≤ instant.date.year ∧ instant.date.year ≤ 9999) : inRange instant.seconds := by
  have day := CivilDate.dayNumber_of_fourDigits (isValid_date instant) fourDigits
  rw [dayNumber_date] at day
  exact inRange_of_day (by omega) (by omega)

/-- The civil time of an instant of whole milliseconds; a leap second has the number 60. -/
def clock (instant : Instant) : Calendar.CivilTime where
  hour := instant.secondOfDay / 3600
  minute := instant.secondOfDay / 60 % 60
  second := instant.secondOfDay % 60 + instant.nanos / secondNanos
  nanos := instant.nanos % secondNanos / 1000000 * 1000000

/-- What a leap second adds goes only into the last second of a minute. -/
theorem leap_cases {instant : Instant} (fits : nanosFit instant.seconds instant.nanos) :
    instant.nanos < 1000000000 ∨ instant.nanos < 2000000000 ∧ instant.secondOfDay % 60 = 59 := by
  have within : instant.nanos < secondNanos ∨ instant.nanos < 2 * secondNanos ∧ instant.seconds % 60 = 59 := by
    simpa [nanosFit] using fits
  have minute_end : instant.secondOfDay % 60 = 59 ↔ instant.seconds % 60 = 59 := by
    simp only [secondOfDay, daySeconds]
    omega
  rw [minute_end]
  exact within

theorem isValid_clock {instant : Instant} (storable : instant.IsStorable) : instant.clock.isValid := by
  have last := secondOfDay_lt instant
  have leap := leap_cases storable.fits
  have second : instant.clock.second = instant.secondOfDay % 60 + instant.nanos / 1000000000 := rfl
  have minute : instant.clock.minute = instant.secondOfDay / 60 % 60 := rfl
  have hour : instant.clock.hour = instant.secondOfDay / 3600 := rfl
  simp only [Calendar.CivilTime.isValid, Bool.and_eq_true, decide_eq_true_eq]
  omega

/-- The civil date and time of a storable instant denote that instant. -/
theorem instant?_clock {instant : Instant} (storable : instant.IsStorable) :
    Calendar.instant? instant.date instant.clock 0 = some instant := by
  have valid := isValid_date instant
  have valid_clock := isValid_clock storable
  have in_range := inRange_of_fourDigits storable.fourDigits
  have kept : Calendar.yearInRange instant.date.year := by
    have fourDigits := storable.fourDigits
    simp only [Calendar.yearInRange, Bool.and_eq_true, decide_eq_true_eq]
    simp only [leastYear, greatestYear]
    omega
  have wholeMillis := storable.wholeMillis
  have leap := leap_cases storable.fits
  have clock_second : instant.clock.second = instant.secondOfDay % 60 + instant.nanos / 1000000000 := rfl
  have clock_nanos : instant.clock.nanos = instant.nanos % 1000000000 / 1000000 * 1000000 := rfl
  -- the number 60 stands for second 59 with the nanoseconds of a second more
  have nanos : instant.clock.nanos + (if instant.clock.second = 60 then secondNanos else 0) =
      instant.nanos := by
    split
    next leap_second =>
      simp only [secondNanos]
      omega
    next => omega
  -- In a leap second the second of the day is the last one of its minute, as it is for the clock.
  have second : min instant.clock.second 59 = instant.secondOfDay % 60 := by
    omega
  have seconds : secondsAt instant.date instant.clock.hour instant.clock.minute
      (instant.secondOfDay % 60) = instant.seconds := secondsAt_date instant
  simp only [Calendar.instant?, kept, valid, valid_clock, second, seconds, Bool.and_self, if_true,
    Int.zero_mul, Int.sub_zero, in_range]
  exact congrArg (fun n => some (Instant.mk instant.seconds n)) nanos

/-- The characters of the text of an instant. -/
theorem chars_eq (instant : Instant) :
    instant.chars = yearText instant.date.year ++ '-' :: (padded 2 instant.date.month ++
      '-' :: (padded 2 instant.date.day ++ 'T' :: (padded 2 instant.clock.hour ++
      ':' :: (padded 2 instant.clock.minute ++ ':' :: (padded 2 instant.clock.second ++
      '.' :: (padded 3 (instant.nanos % secondNanos / 1000000) ++ ['Z'])))))) := by
  simp [chars, clock]

theorem yearText_of_fourDigits {year : Int} (fourDigits : 0 ≤ year ∧ year ≤ 9999) :
    yearText year = padded 4 year.natAbs :=
  if_pos fourDigits

/-- The characters that stand between the digits of a date text. -/
def marks : List Char :=
  ['+', '-', 'T', ':', '.', 'Z']

theorem mem_yearText {year : Int} {c : Char} (member : c ∈ yearText year) : c.isDigit ∨ c ∈ marks := by
  unfold yearText at member
  split at member
  next => exact .inl (isDigit_of_mem_padded member)
  next =>
    rcases List.mem_cons.mp member with rfl | member
    · right
      split <;> decide
    · exact .inl (isDigit_of_mem_padded member)

theorem mem_chars {instant : Instant} {c : Char} (member : c ∈ instant.chars) : c.isDigit ∨ c ∈ marks := by
  have digit {width n : Nat} (member : c ∈ padded width n) : c.isDigit ∨ c ∈ marks :=
    .inl (isDigit_of_mem_padded member)
  rw [chars_eq] at member
  simp only [List.mem_append, List.mem_cons, List.not_mem_nil, or_false] at member
  rcases member with h | rfl | h | rfl | h | rfl | h | rfl | h | rfl | h | rfl | h | rfl
  all_goals first | exact mem_yearText h | exact digit h | decide

theorem not_isBlank_chars {instant : Instant} {c : Char} (member : c ∈ instant.chars) :
    Text.isBlank c = false := by
  rcases mem_chars member with digit | mark
  · exact Text.isBlank_of_isDigit digit
  · have solid : marks.all fun c => !Text.isBlank c := rfl
    simpa using List.all_eq_true.mp solid c mark

theorem trim_chars (instant : Instant) : Text.trim instant.chars = instant.chars :=
  Text.trim_eq_self fun _ => not_isBlank_chars

theorem read?_chars {instant : Instant} (storable : instant.IsStorable) :
    Calendar.Rfc3339.read? instant.chars = some instant := by
  have valid_clock := isValid_clock storable
  simp only [Calendar.CivilTime.isValid, Bool.and_eq_true, decide_eq_true_eq] at valid_clock
  obtain ⟨month_small, day_small⟩ := CivilDate.month_day_lt_hundred (isValid_date instant)
  obtain ⟨positive, fourDigits⟩ := storable.fourDigits
  have year : ((instant.date.year.natAbs : Nat) : Int) = instant.date.year := by omega
  have millis_small : instant.nanos % secondNanos / 1000000 < 1000 := by
    simp only [secondNanos]
    omega
  -- Date and time are scanned one after the other, each up to where the other one starts.
  have scanned_date := @Calendar.Rfc3339.scanDate_padded instant.date.year.natAbs instant.date.month
    instant.date.day (by omega) month_small day_small
  have scanned_time := Calendar.Rfc3339.scanTime_padded (by omega : instant.clock.hour < 100)
    (by omega : instant.clock.minute < 100) (by omega : instant.clock.second < 100)
    (Calendar.scanFraction_padded millis_small)
  have clock : (⟨instant.clock.hour, instant.clock.minute, instant.clock.second,
      instant.nanos % secondNanos / 1000000 * 1000000⟩ : Calendar.CivilTime) = instant.clock := rfl
  have date : (⟨instant.date.year, instant.date.month, instant.date.day⟩ : CivilDate) = instant.date := rfl
  rw [clock] at scanned_time
  rw [chars_eq, yearText_of_fourDigits storable.fourDigits, Calendar.Rfc3339.read?]
  simp only [scanned_date, year, date]
  simp [Calendar.Rfc3339.isDivider, Calendar.Rfc3339.scanOffset, scanned_time, instant?_clock storable]

/-- A storable instant is read back from its text. -/
theorem ofText?_text {instant : Instant} (storable : instant.IsStorable) :
    ofText? instant.text = some instant := by
  simp [ofText?, text, ofChars?, trim_chars, read?_chars storable]

/-! ### What a text shows -/

/-- The instant with nanoseconds beyond a second taken as the next second, unless a leap second has them. -/
def carried (instant : Instant) : Instant :=
  if nanosFit instant.seconds instant.nanos then instant
  else ⟨instant.seconds + 1, instant.nanos - secondNanos⟩

/-- The instant without what goes beyond its milliseconds. -/
def truncated (instant : Instant) : Instant :=
  ⟨instant.seconds, instant.nanos / 1000000 * 1000000⟩

theorem carried_of_fits {instant : Instant} (fits : nanosFit instant.seconds instant.nanos) :
    instant.carried = instant :=
  if_pos fits

theorem nanosFit_of_lt {seconds : Int} {nanos : Nat} (short : nanos < secondNanos) :
    nanosFit seconds nanos := by
  simp [nanosFit, short]

theorem nanos_lt_of_fits {seconds : Int} {nanos : Nat} (fits : nanosFit seconds nanos) :
    nanos < 2 * secondNanos := by
  simp only [nanosFit, Bool.or_eq_true, Bool.and_eq_true, decide_eq_true_eq] at fits
  omega

theorem not_nanosFit_iff {instant : Instant} (short : instant.nanos < 2 * secondNanos) :
    ¬nanosFit instant.seconds instant.nanos ↔
      secondNanos ≤ instant.nanos ∧ instant.seconds % 60 ≠ 59 := by
  simp [nanosFit, short]

theorem nanosFit_carried {instant : Instant} (short : instant.nanos < 2 * secondNanos) :
    nanosFit instant.carried.seconds instant.carried.nanos := by
  unfold carried
  split
  next fits => exact fits
  next =>
    have rest : instant.nanos - secondNanos < secondNanos := by omega
    exact nanosFit_of_lt rest

/-- A text shows nanoseconds that do not fit as the next second. -/
theorem text_carried {instant : Instant} (short : instant.nanos < 2 * secondNanos) :
    instant.carried.date = instant.date ∧ instant.carried.text = instant.text := by
  by_cases fits : nanosFit instant.seconds instant.nanos
  · rw [carried_of_fits fits]
    exact ⟨rfl, rfl⟩
  obtain ⟨beyond, inside⟩ := (not_nanosFit_iff short).mp fits
  have next_second : instant.carried = ⟨instant.seconds + 1, instant.nanos - secondNanos⟩ := if_neg fits
  have date : instant.carried.date = instant.date := by
    have day : (instant.seconds + 1) / daySeconds = instant.seconds / daySeconds := by
      simp only [daySeconds]
      omega
    simp only [next_second, Instant.date, day]
  have second : instant.carried.secondOfDay = instant.secondOfDay + 1 := by
    simp only [next_second, secondOfDay, daySeconds]
    omega
  have within : instant.secondOfDay % 60 < 59 := by
    simp only [secondOfDay, daySeconds]
    omega
  have nanos : instant.carried.nanos = instant.nanos - secondNanos := by rw [next_second]
  have millis : instant.carried.nanos % secondNanos = instant.nanos % secondNanos := by
    simp only [nanos, secondNanos] at beyond ⊢
    omega
  have hour : (instant.secondOfDay + 1) / 3600 = instant.secondOfDay / 3600 := by omega
  have minute : (instant.secondOfDay + 1) / 60 % 60 = instant.secondOfDay / 60 % 60 := by omega
  have shown : (instant.secondOfDay + 1) % 60 + instant.carried.nanos / secondNanos =
      instant.secondOfDay % 60 + instant.nanos / secondNanos := by
    simp only [nanos, secondNanos] at beyond short ⊢
    omega
  refine ⟨date, ?_⟩
  -- The second is one more, and there is no leap second to add to it.
  simp only [text, chars, date, second, hour, minute, shown, millis]

theorem text_truncated (instant : Instant) : instant.truncated.text = instant.text := by
  have leap : instant.truncated.nanos / secondNanos = instant.nanos / secondNanos := by
    simp only [truncated, secondNanos]
    omega
  have millis : instant.truncated.nanos % secondNanos / 1000000 =
      instant.nanos % secondNanos / 1000000 := by
    simp only [truncated, secondNanos]
    omega
  -- Date and time of day hang on the seconds, which are the same.
  simp only [text, chars, leap, millis]
  rfl

/-- The text of an instant is also that of the instant that it shows. -/
theorem text_shown {instant : Instant} (short : instant.nanos < 2 * secondNanos) :
    instant.carried.truncated.text = instant.text :=
  (text_truncated _).trans (text_carried short).2

theorem nanosFit_of_le {seconds : Int} {less nanos : Nat} (le : less ≤ nanos)
    (fits : nanosFit seconds nanos) : nanosFit seconds less := by
  simp only [nanosFit, Bool.or_eq_true, Bool.and_eq_true, decide_eq_true_eq, beq_iff_eq] at fits ⊢
  omega

theorem isStorable_truncated {instant : Instant} (fits : nanosFit instant.seconds instant.nanos)
    (fourDigits : 0 ≤ instant.date.year ∧ instant.date.year ≤ 9999) : instant.truncated.IsStorable where
  fits := nanosFit_of_le (Nat.div_mul_le_self _ _) fits
  wholeMillis := Nat.mul_mod_left _ _
  fourDigits := fourDigits

/-- What a text shows of an instant in a year of four digits keeps its value in that text. -/
theorem isStorable_shown {instant : Instant} (short : instant.nanos < 2 * secondNanos)
    (fourDigits : 0 ≤ instant.date.year ∧ instant.date.year ≤ 9999) :
    instant.carried.truncated.IsStorable := by
  apply isStorable_truncated (nanosFit_carried short)
  rw [(text_carried short).1]
  exact fourDigits

end Instant

end ItemMapper
