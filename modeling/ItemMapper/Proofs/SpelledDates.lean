import ItemMapper.Proofs.StoredDates

/-!
# The spellings of a local time

A civil date and a time of day with an offset from UTC (`LocalTime`) can be spelled with the offset, or without one if
it is zero, and with `T` or a blank between day and time; a day alone stands for its first instant. The readers of
dates are tried one after another. The first one takes every spelling with an offset and no other one; the one for
mail headers takes none, since a year of four digits is no day of a month; the last ones take the rest.

Main result: every spelling is read as the instant at which clocks show the local time, whatever blanks are around it
(`ofText?_of_isText`).
-/

namespace ItemMapper

/-- What clocks show at an instant that are so many minutes ahead of UTC, as if it were UTC. -/
def Instant.ahead (instant : Instant) (minutes : Int) : Instant :=
  ⟨instant.seconds + minutes * 60, instant.nanos⟩

namespace Calendar

open Instant

/-! ### Fractions of a second -/

/-- Digits behind a point; without digits there is no point. -/
def fractionText (digits : List Char) : List Char :=
  if digits.isEmpty then [] else '.' :: digits

theorem scanFraction_fractionText {digits rest : List Char} (each : Decimal.AreDigits digits)
    (stops : Decimal.StopsDigits rest) (no_point : ∀ c ∈ rest.head?, c ≠ '.') :
    scanFraction (fractionText digits ++ rest) = some (fractionNanos digits, rest) := by
  cases digits with
  | nil =>
    have nothing : fractionNanos [] = 0 := rfl
    rw [nothing]
    change scanFraction rest = some (0, rest)
    unfold scanFraction
    split
    next => exact absurd rfl (no_point '.' rfl)
    next => rfl
  | cons c digits => exact scanFraction_point each (List.cons_ne_nil c digits) stops

/-- Of the digits of a fraction the first nine count, with zeros for those that are missing. -/
theorem fractionNanos_eq (digits : List Char) :
    fractionNanos digits = Decimal.digitsValue ((digits ++ List.replicate 9 '0').take 9) := by
  have filled : (digits ++ List.replicate 9 '0').take 9 =
      digits.take 9 ++ List.replicate (9 - (digits.take 9).length) '0' := by
    rw [List.take_append, List.take_replicate, List.length_take]
    congr 2
    omega
  rw [filled, Decimal.digitsValue_append_zeros]
  rfl

theorem solid_padded {width n : Nat} : ∀ c ∈ padded width n, Text.isBlank c = false :=
  fun _ member => Text.isBlank_of_isDigit (isDigit_of_mem_padded member)

theorem solid_fractionText {digits : List Char} (each : Decimal.AreDigits digits) :
    ∀ c ∈ fractionText digits, Text.isBlank c = false := by
  intro c member
  unfold fractionText at member
  split at member
  next => cases member
  next =>
    rcases List.mem_cons.mp member with rfl | member
    · decide
    · exact Text.isBlank_of_isDigit (each c member)

/-! ### Offsets -/

/-- The spellings of an offset from UTC in minutes. -/
inductive SpellsOffset : Int → List Char → Prop
  | utc : SpellsOffset 0 ['Z']
  | ahead {hours minutes : Nat} : hours ≤ 23 → minutes ≤ 59 →
      SpellsOffset (hours * 60 + minutes) ('+' :: (padded 2 hours ++ ':' :: padded 2 minutes))
  | behind {hours minutes : Nat} : hours ≤ 23 → minutes ≤ 59 →
      SpellsOffset (-(hours * 60 + minutes)) ('-' :: (padded 2 hours ++ ':' :: padded 2 minutes))

theorem scanHoursMinutes_padded {hours minutes : Nat} (hours_small : hours < 100) (minutes_le : minutes ≤ 59) :
    scanHoursMinutes (scanChar ':') (padded 2 hours ++ ':' :: padded 2 minutes) =
      some ((hours * 60 + minutes : Int), []) := by
  have scanned_hours := @scanNumber_padded 2 2 hours (by decide) (by decide) hours_small
  have scanned_minutes := @scanNumber_padded 2 2 minutes (by decide) (by decide) (by omega) []
  rw [List.append_nil] at scanned_minutes
  simp [scanHoursMinutes, scanned_hours, scanned_minutes, scanChar, minutes_le]

theorem scanOffset_of_spells {offset : Int} {cs : List Char} (spelled : SpellsOffset offset cs) :
    Rfc3339.scanOffset cs = some (offset, []) := by
  cases spelled with
  | utc => rfl
  | @ahead hours minutes hours_le minutes_le =>
    have scanned := scanHoursMinutes_padded (by omega : hours < 100) minutes_le
    have below : (hours * 60 + minutes : Int) < 1440 := by omega
    simp [Rfc3339.scanOffset, scanned, below]
  | @behind hours minutes hours_le minutes_le =>
    have scanned := scanHoursMinutes_padded (by omega : hours < 100) minutes_le
    have below : (hours * 60 + minutes : Int) < 1440 := by omega
    simp [Rfc3339.scanOffset, scanned, below]

/-- No offset goes on with the digits or the fraction of a time of day. -/
theorem stops_of_spells {offset : Int} {cs : List Char} (spelled : SpellsOffset offset cs) :
    Decimal.StopsDigits cs ∧ ∀ c ∈ cs.head?, c ≠ '.' := by
  cases spelled <;> exact ⟨by rintro _ ⟨⟩; decide, by rintro _ ⟨⟩; decide⟩

theorem solid_offset {offset : Int} {cs : List Char} (spelled : SpellsOffset offset cs) :
    ∀ c ∈ cs, Text.isBlank c = false := by
  have colon : Text.isBlank ':' = false := by decide
  cases spelled with
  | utc => simpa using (by decide : Text.isBlank 'Z' = false)
  | ahead =>
    simp only [List.forall_mem_append, List.forall_mem_cons]
    exact ⟨by decide, solid_padded, colon, solid_padded⟩
  | behind =>
    simp only [List.forall_mem_append, List.forall_mem_cons]
    exact ⟨by decide, solid_padded, colon, solid_padded⟩

/-! ### Years in front -/

theorem toLower_of_isDigit {c : Char} (digit : c.isDigit) : c.toLower = c := by
  have bounds := Decimal.isDigit_bounds digit
  have no_capital : ¬('A'.val ≤ c.val ∧ c.val ≤ 'Z'.val) := by
    rintro ⟨least, -⟩
    have least : 65 ≤ c.toNat := UInt32.le_iff_toNat_le.mp least
    omega
  exact dif_neg no_capital

/-- A mail header has at most two digits in front of a blank. -/
theorem Rfc2822.read?_of_digits {first second third : Char} (first_digit : first.isDigit)
    (second_digit : second.isDigit) (third_digit : third.isDigit) (rest : List Char) :
    Rfc2822.read? (first :: second :: third :: rest) = none := by
  have solid : Text.trimStart (first :: second :: third :: rest) = first :: second :: third :: rest := by
    simp [Text.trimStart, Text.isBlank_of_isDigit first_digit]
  have no_letter : first.toLower ∉ ['m', 't', 'w', 'f', 's'] := by
    rw [toLower_of_isDigit first_digit]
    intro letter
    have letters : ['m', 't', 'w', 'f', 's'].all fun c => !c.isDigit := rfl
    simpa [first_digit] using List.all_eq_true.mp letters first letter
  have unnamed := Rfc2822.scanWeekday_of_not_letter no_letter (second :: third :: rest)
  have day : scanNumber 1 2 (first :: second :: third :: rest) =
      some (Decimal.digitsValue [first, second], third :: rest) := by
    simp [scanNumber, first_digit, second_digit]
  -- Two digits are taken for the day of the month, and the third one is no blank.
  have no_blank : scanBlanks (third :: rest) = none := by
    simp [scanBlanks, Text.isBlank_of_isDigit third_digit]
  unfold Rfc2822.read?
  rw [solid, unnamed, Option.bind_eq_bind, Option.bind_some]
  dsimp only
  rw [solid, day, Option.bind_eq_bind, Option.bind_some]
  dsimp only
  rw [no_blank]
  rfl

theorem Zoneless.scanYear_padded {year : Nat} (small : year < 10000) (rest : List Char) :
    Zoneless.scanYear (padded 4 year ++ rest) = some ((year : Int), rest) := by
  have scanned := @scanNumber_padded 1 4 year (by decide) (by decide) small rest
  obtain ⟨c, digits, padded_eq, digit⟩ := exists_padded_cons 4 year
  rw [padded_eq] at scanned
  have no_minus : c ≠ '-' := by
    rintro rfl
    cases digit
  have no_plus : c ≠ '+' := by
    rintro rfl
    cases digit
  rw [Zoneless.scanYear, trimStart_padded, padded_eq]
  simp only [List.cons_append] at scanned ⊢
  split
  next signed => exact absurd (List.cons.inj signed).1 no_minus
  next signed => exact absurd (List.cons.inj signed).1 no_plus
  next => simp [scanned]

/-! ### Local times -/

/-- A civil date and a time of day as clocks show them that are some minutes ahead of UTC. -/
structure LocalTime where
  date : CivilDate
  hour : Nat
  minute : Nat
  second : Nat
  /-- The digits of a fraction of the second. -/
  fraction : List Char
  offset : Int
  date_valid : date.isValid
  fourDigits : 0 ≤ date.year ∧ date.year ≤ 9999
  hour_le : hour ≤ 23
  minute_le : minute ≤ 59
  second_le : second ≤ 60
  fraction_digits : Decimal.AreDigits fraction
  offset_lt : offset.natAbs < 1440

namespace LocalTime

variable (time : LocalTime)

def dayText : List Char :=
  padded 4 time.date.year.natAbs ++ '-' :: (padded 2 time.date.month ++ '-' :: padded 2 time.date.day)

def clockText : List Char :=
  padded 2 time.hour ++ ':' :: (padded 2 time.minute ++ ':' :: (padded 2 time.second ++ fractionText time.fraction))

/-- The spellings of a local time: with an offset, or without one for the time in UTC. -/
inductive Spells : List Char → Prop
  | zoned {rest : List Char} : SpellsOffset time.offset rest →
      Spells (time.dayText ++ 'T' :: (time.clockText ++ rest))
  | marked : time.offset = 0 → Spells (time.dayText ++ 'T' :: time.clockText)
  | spaced : time.offset = 0 → Spells (time.dayText ++ ' ' :: time.clockText)
  | midnight : time.offset = 0 → time.hour = 0 → time.minute = 0 → time.second = 0 → time.fraction = [] →
      Spells time.dayText

/-- A text is a spelling of a local time with blanks around it. -/
inductive IsText : String → Prop
  | intro {front cs back : List Char} : (∀ c ∈ front, Text.isBlank c) → time.Spells cs →
      (∀ c ∈ back, Text.isBlank c) → IsText (String.ofList (front ++ cs ++ back))

/--
At an instant clocks show a local time: its day and its second of that day. Of the fraction the first nine digits
count, and second 60 is the one before it, going on for another 10^9 nanoseconds.
-/
structure Denotes (instant : Instant) : Prop where
  date : (instant.ahead time.offset).date = time.date
  second : (instant.ahead time.offset).secondOfDay =
    time.hour * 3600 + time.minute * 60 + min time.second 59
  nanos : instant.nanos = Decimal.digitsValue ((time.fraction ++ List.replicate 9 '0').take 9) +
    if time.second = 60 then secondNanos else 0

/-! ### The denoted instant -/

/-- The civil time of day with the nanoseconds of its fraction. -/
def clock : CivilTime :=
  ⟨time.hour, time.minute, time.second, fractionNanos time.fraction⟩

def instant : Instant :=
  ⟨secondsAt time.date time.hour time.minute (min time.second 59) - time.offset * 60,
    fractionNanos time.fraction + if time.second = 60 then secondNanos else 0⟩

theorem denotes_instant : time.Denotes time.instant := by
  have hour := time.hour_le
  have minute := time.minute_le
  have shown : (time.instant.ahead time.offset).seconds =
      secondsAt time.date time.hour time.minute (min time.second 59) := by
    simp [Instant.ahead, instant]
  refine ⟨?date, ?second, ?nanos⟩
  case date =>
    -- Second 60 counts as the one before it, so the time of day never runs into the next day.
    have day : (time.instant.ahead time.offset).seconds / daySeconds + epochDay = time.date.dayNumber := by
      rw [shown]
      simp only [secondsAt, daySeconds]
      omega
    rw [Instant.date, day, CivilDate.ofDayNumber_dayNumber time.date_valid]
  case second =>
    rw [secondOfDay, shown]
    simp only [secondsAt, daySeconds]
    omega
  case nanos => rw [instant, fractionNanos_eq]

variable {time} in
/-- A local time denotes one instant only. -/
theorem Denotes.eq_instant {instant : Instant} (denotes : time.Denotes instant) : instant = time.instant := by
  obtain ⟨date, second, nanos⟩ := denotes
  have day := dayNumber_date (instant.ahead time.offset)
  rw [date] at day
  have seconds : instant.seconds = time.instant.seconds := by
    simp only [secondOfDay, Instant.ahead] at second day
    simp only [LocalTime.instant, secondsAt, day]
    simp only [daySeconds] at second day ⊢
    omega
  rw [← fractionNanos_eq] at nanos
  exact (Instant.mk.injEq ..).mpr ⟨seconds, nanos⟩

theorem instant?_eq : instant? time.date time.clock time.offset = some time.instant := by
  have kept : yearInRange time.date.year := by
    have fourDigits := time.fourDigits
    simp only [yearInRange, Bool.and_eq_true, decide_eq_true_eq]
    simp only [leastYear, greatestYear]
    omega
  have valid : time.clock.isValid := by
    simp [CivilTime.isValid, clock, time.hour_le, time.minute_le, time.second_le]
  -- An offset is less than a day, and the range of instants goes on for longer before year 0 and after year 9999.
  have in_range : inRange time.instant.seconds := by
    have day := CivilDate.dayNumber_of_fourDigits time.date_valid time.fourDigits
    have hour := time.hour_le
    have minute := time.minute_le
    have offset := time.offset_lt
    have seconds : time.instant.seconds =
        secondsAt time.date time.hour time.minute (min time.second 59) - time.offset * 60 := rfl
    simp only [secondsAt, daySeconds] at seconds
    apply inRange_of_day
    all_goals
      simp only [daySeconds]
      omega
  have all_valid : yearInRange time.date.year && time.date.isValid && time.clock.isValid := by
    simp [kept, time.date_valid, valid]
  rw [instant?, if_pos all_valid]
  exact if_pos in_range

/-! ### Reading -/

theorem date_small : time.date.year.natAbs < 10000 ∧ time.date.month < 100 ∧ time.date.day < 100 := by
  have month_day := CivilDate.month_day_lt_hundred time.date_valid
  have fourDigits := time.fourDigits
  omega

theorem clock_small : time.hour < 100 ∧ time.minute < 100 ∧ time.second < 100 := by
  have hour := time.hour_le
  have minute := time.minute_le
  have second := time.second_le
  omega

theorem date_eq : (⟨(time.date.year.natAbs : Int), time.date.month, time.date.day⟩ : CivilDate) = time.date := by
  have positive := time.fourDigits.1
  have year : (time.date.year.natAbs : Int) = time.date.year := by omega
  rw [year]

theorem rfc3339_scanDate (rest : List Char) : Rfc3339.scanDate (time.dayText ++ rest) = some (time.date, rest) := by
  obtain ⟨year_small, month_small, day_small⟩ := time.date_small
  have scanned := Rfc3339.scanDate_padded year_small month_small day_small rest
  rw [date_eq] at scanned
  simpa [dayText] using scanned

theorem rfc3339_scanTime {rest : List Char} (stops : Decimal.StopsDigits rest) (no_point : ∀ c ∈ rest.head?, c ≠ '.') :
    Rfc3339.scanTime (time.clockText ++ rest) = some (time.clock, rest) := by
  obtain ⟨hour_small, minute_small, second_small⟩ := time.clock_small
  have fraction := scanFraction_fractionText time.fraction_digits stops no_point
  have scanned := Rfc3339.scanTime_padded hour_small minute_small second_small fraction
  simpa [clockText, clock] using scanned

/-- Whether this reader takes a text depends on what stands behind the time of day. -/
theorem rfc3339_read?_clock {rest : List Char} (stops : Decimal.StopsDigits rest) (no_point : ∀ c ∈ rest.head?, c ≠ '.')
    {divider : Char} (divides : Rfc3339.isDivider divider) :
    Rfc3339.read? (time.dayText ++ divider :: (time.clockText ++ rest)) =
      (Rfc3339.scanOffset rest).bind fun (offset, behind) =>
        if behind.isEmpty then instant? time.date time.clock offset else none := by
  simp [Rfc3339.read?, rfc3339_scanDate, divides, rfc3339_scanTime time stops no_point]

theorem rfc3339_read?_zoned {rest : List Char} (spelled : SpellsOffset time.offset rest) :
    Rfc3339.read? (time.dayText ++ 'T' :: (time.clockText ++ rest)) = some time.instant := by
  obtain ⟨stops, no_point⟩ := stops_of_spells spelled
  rw [rfc3339_read?_clock time stops no_point rfl, scanOffset_of_spells spelled]
  exact time.instant?_eq

theorem rfc3339_read?_zoneless (divider : Char) (divides : Rfc3339.isDivider divider) :
    Rfc3339.read? (time.dayText ++ divider :: time.clockText) = none := by
  have read := @rfc3339_read?_clock time [] nofun nofun divider divides
  rwa [List.append_nil] at read

theorem rfc3339_read?_day : Rfc3339.read? time.dayText = none := by
  have scanned := time.rfc3339_scanDate []
  rw [List.append_nil] at scanned
  simp [Rfc3339.read?, scanned]

theorem rfc2822_read? (rest : List Char) : Rfc2822.read? (time.dayText ++ rest) = none := by
  have fourDigits := time.fourDigits
  have length : (padded 4 time.date.year.natAbs).length = 4 := length_padded (by decide) (by omega)
  have digits : Decimal.AreDigits (padded 4 time.date.year.natAbs) := fun _ => isDigit_of_mem_padded
  rw [dayText, List.append_assoc]
  match split : padded 4 time.date.year.natAbs with
  | [] | [_] | [_, _] => simp [split] at length
  | first :: second :: third :: others =>
    rw [split] at digits
    simp only [Decimal.AreDigits, List.forall_mem_cons] at digits
    exact Rfc2822.read?_of_digits digits.1 digits.2.1 digits.2.2.1 _

theorem zoneless_scanDate (rest : List Char) :
    Zoneless.scanDate (time.dayText ++ rest) = some (time.date, rest) := by
  obtain ⟨year_small, month_small, day_small⟩ := time.date_small
  have scanned_year := Zoneless.scanYear_padded year_small
  have scanned_month := @Zoneless.scanPart_padded time.date.month month_small
  have scanned_day := @Zoneless.scanPart_padded time.date.day day_small
  simpa [Zoneless.scanDate, dayText, scanned_year, scanned_month, scanned_day, scanChar] using time.date_eq

theorem zoneless_scanTime : Zoneless.scanTime time.clockText = some (time.clock, []) := by
  obtain ⟨hour_small, minute_small, second_small⟩ := time.clock_small
  have fraction := @scanFraction_fractionText time.fraction [] time.fraction_digits nofun nofun
  rw [List.append_nil] at fraction
  exact Zoneless.scanTime_padded hour_small minute_small second_small fraction

theorem zoneless_read?_marked (utc : time.offset = 0) :
    Zoneless.read? (time.dayText ++ 'T' :: time.clockText) = some time.instant := by
  have found := time.instant?_eq
  rw [utc] at found
  simp [Zoneless.read?, Zoneless.readDateTime?, zoneless_scanDate, zoneless_scanTime, scanChar, found]

theorem zoneless_read?_spaced (utc : time.offset = 0) :
    Zoneless.read? (time.dayText ++ ' ' :: time.clockText) = some time.instant := by
  have found := time.instant?_eq
  rw [utc] at found
  have past_blank : Text.trimStart (' ' :: time.clockText) = time.clockText := trimStart_padded 2 time.hour _
  simp [Zoneless.read?, Zoneless.readDateTime?, zoneless_scanDate, zoneless_scanTime, scanChar, found, past_blank]

theorem zoneless_read?_day (utc : time.offset = 0) (midnight : time.clock = ⟨0, 0, 0, 0⟩) :
    Zoneless.read? time.dayText = some time.instant := by
  have found := time.instant?_eq
  rw [utc, midnight] at found
  have scanned := time.zoneless_scanDate []
  rw [List.append_nil] at scanned
  have no_time : Zoneless.scanTime (Text.trimStart []) = none := rfl
  simp [Zoneless.read?, Zoneless.readDateTime?, Zoneless.readDate?, scanned, scanChar, no_time, found]

/-! ### Blanks around a spelling -/

theorem solid_dayText : ∀ c ∈ time.dayText, Text.isBlank c = false := by
  have dash : Text.isBlank '-' = false := by decide
  simp only [dayText, List.forall_mem_append, List.forall_mem_cons]
  exact ⟨solid_padded, dash, solid_padded, dash, solid_padded⟩

theorem solid_clockText : ∀ c ∈ time.clockText, Text.isBlank c = false := by
  have colon : Text.isBlank ':' = false := by decide
  simp only [clockText, List.forall_mem_append, List.forall_mem_cons]
  exact ⟨solid_padded, colon, solid_padded, colon, solid_padded, solid_fractionText time.fraction_digits⟩

theorem trim_spelling {cs : List Char} (spelled : time.Spells cs) : Text.trim cs = cs := by
  have mark : Text.isBlank 'T' = false := by decide
  have day := time.solid_dayText
  have clock := time.solid_clockText
  cases spelled with
  | zoned offset =>
    apply Text.trim_eq_self
    simp only [List.forall_mem_append, List.forall_mem_cons]
    exact ⟨day, mark, clock, solid_offset offset⟩
  | marked =>
    apply Text.trim_eq_self
    simp only [List.forall_mem_append, List.forall_mem_cons]
    exact ⟨day, mark, clock⟩
  | spaced =>
    -- The blank in the middle stands between a day and a time that have none.
    refine Text.trim_of_ends [' '] day clock ?_ ?_
    · simp [dayText]
    · simp
  | midnight => exact Text.trim_eq_self day

theorem ofChars?_of_spells {cs : List Char} (spelled : time.Spells cs) {front back : List Char}
    (front_blank : ∀ c ∈ front, Text.isBlank c) (back_blank : ∀ c ∈ back, Text.isBlank c) :
    Instant.ofChars? (front ++ cs ++ back) = some time.instant := by
  have trimmed := Text.trim_surrounded front_blank back_blank (time.trim_spelling spelled)
  simp only [Instant.ofChars?, trimmed]
  -- Only what the readers in front refuse comes to the last ones.
  cases spelled with
  | zoned offset => simp [time.rfc3339_read?_zoned offset]
  | marked utc => simp [time.rfc3339_read?_zoneless 'T' rfl, time.rfc2822_read?, time.zoneless_read?_marked utc]
  | spaced utc => simp [time.rfc3339_read?_zoneless ' ' rfl, time.rfc2822_read?, time.zoneless_read?_spaced utc]
  | midnight utc hour minute second fraction =>
    have clock : time.clock = ⟨0, 0, 0, 0⟩ := by
      simp only [LocalTime.clock, hour, minute, second, fraction]
      rfl
    have mail := time.rfc2822_read? []
    rw [List.append_nil] at mail
    simp [time.rfc3339_read?_day, mail, time.zoneless_read?_day utc clock]

variable {time}

theorem IsText.ofText?_eq {text : String} (spelled : time.IsText text) :
    Instant.ofText? text = some time.instant := by
  cases spelled with
  | intro front spelling back =>
    rw [Instant.ofText?, String.toList_ofList]
    exact time.ofChars?_of_spells spelling front back

/--
Every spelling of a local time, with any blanks around it, is read as the instant at which clocks show that time. So
two texts are read as the same date if and only if their local times are shown at the same instant.
-/
theorem ofText?_of_isText {text other_text : String} {other : LocalTime} (spelled : time.IsText text)
    (other_spelled : other.IsText other_text) :
    (∃ instant, Instant.ofText? text = some instant ∧ time.Denotes instant) ∧
      (Instant.ofText? text = Instant.ofText? other_text ↔
        ∃ instant, time.Denotes instant ∧ other.Denotes instant) := by
  refine ⟨⟨time.instant, spelled.ofText?_eq, time.denotes_instant⟩, ?_⟩
  rw [spelled.ofText?_eq, other_spelled.ofText?_eq, Option.some.injEq]
  constructor
  · intro same
    exact ⟨time.instant, time.denotes_instant, same ▸ other.denotes_instant⟩
  · rintro ⟨instant, denotes, other_denotes⟩
    rw [← denotes.eq_instant, ← other_denotes.eq_instant]

/-- A leap second in a zone behind UTC, with a blank on each side, and the same one in UTC. -/
theorem ofText?_of_isText_leap :
    ∃ time utc : LocalTime, time.offset ≠ utc.offset ∧
      time.IsText " 2024-02-29T22:29:60.12345678995-01:30\n" ∧ utc.IsText "2024-02-29 23:59:60.123456789" ∧
      Instant.ofText? " 2024-02-29T22:29:60.12345678995-01:30\n" = some ⟨1709251199, 1123456789⟩ ∧
      Instant.ofText? "2024-02-29 23:59:60.123456789" = some ⟨1709251199, 1123456789⟩ := by
  have behind : ∃ time : LocalTime, time.offset = -90 ∧ time.instant = ⟨1709251199, 1123456789⟩ ∧
      time.IsText " 2024-02-29T22:29:60.12345678995-01:30\n" := by
    have zone : SpellsOffset (-90) "-01:30".toList := @SpellsOffset.behind 1 30 (by decide) (by decide)
    refine ⟨⟨⟨2024, 2, 29⟩, 22, 29, 60, "12345678995".toList, -90, rfl, by decide, by decide, by decide, by decide,
      List.all_eq_true.mp rfl, by decide⟩, rfl, by decide +kernel, ?_⟩
    have blank : ∀ c ∈ [' '], Text.isBlank c := List.forall_mem_singleton.mpr rfl
    have line_end : ∀ c ∈ ['\n'], Text.isBlank c := List.forall_mem_singleton.mpr rfl
    exact @IsText.intro _ [' '] "2024-02-29T22:29:60.12345678995-01:30".toList ['\n'] blank (.zoned zone) line_end
  have utc : ∃ time : LocalTime, time.offset = 0 ∧ time.instant = ⟨1709251199, 1123456789⟩ ∧
      time.IsText "2024-02-29 23:59:60.123456789" := by
    refine ⟨⟨⟨2024, 2, 29⟩, 23, 59, 60, "123456789".toList, 0, rfl, by decide, by decide, by decide, by decide,
      List.all_eq_true.mp rfl, by decide⟩, rfl, by decide +kernel, ?_⟩
    exact @IsText.intro _ [] "2024-02-29 23:59:60.123456789".toList [] nofun (.spaced rfl) nofun
  obtain ⟨time, offset, instant_eq, spelled⟩ := behind
  obtain ⟨utc, utc_offset, utc_instant_eq, utc_spelled⟩ := utc
  obtain ⟨⟨instant, read, denoted⟩, same_iff⟩ := ofText?_of_isText spelled utc_spelled
  obtain rfl := denoted.eq_instant
  have utc_denoted : utc.Denotes time.instant := by
    rw [instant_eq, ← utc_instant_eq]
    exact utc.denotes_instant
  have utc_read := same_iff.mpr ⟨time.instant, denoted, utc_denoted⟩
  rw [read] at utc_read
  rw [instant_eq] at read utc_read
  refine ⟨time, utc, ?_, spelled, utc_spelled, read, utc_read.symm⟩
  rw [offset, utc_offset]
  decide

end LocalTime

end Calendar

end ItemMapper
