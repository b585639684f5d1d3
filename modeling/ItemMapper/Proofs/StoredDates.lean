import ItemMapper.Proofs.DateText
import ItemMapper.Proofs.WrittenLeaf

/-!
# What is written as a date

A date is written from an instant, from a text that spells one, or from a number of milliseconds
(`Value.Denotes`). Instants are written in every year that they are kept in, with a sign in front of a
year that has no four digits; no spelling of dates that are read has both a sign and the mark of UTC
behind the time. So a written date is read back, cut to milliseconds, in the years 0 to 9999, and cannot
be read in any other year.

Main results: both cases, for every value that is written as a date (`date_written_read`), and that milliseconds are
read as the same date as the text that they are written as (`millis_written_read`).
-/

namespace ItemMapper

namespace Calendar

open Instant

/-! ### Nanoseconds of instants that are read -/

theorem fractionNanos_lt {digits : List Char} (each : Decimal.AreDigits digits) :
    fractionNanos digits < secondNanos := by
  have kept := Decimal.digitsValue_lt fun c member => each c (List.mem_of_mem_take (i := 9) member)
  have short : (digits.take 9).length ≤ 9 := List.length_take_le _ _
  calc fractionNanos digits
      = Decimal.digitsValue (digits.take 9) * 10 ^ (9 - (digits.take 9).length) := rfl
    _ < 10 ^ (digits.take 9).length * 10 ^ (9 - (digits.take 9).length) :=
        Nat.mul_lt_mul_of_pos_right kept (Nat.pow_pos (by decide))
    _ = secondNanos := by
        rw [← Nat.pow_add, Nat.add_sub_cancel' short]
        rfl

theorem nanos_lt_of_scanFraction {cs rest : List Char} {nanos : Nat}
    (scanned : scanFraction cs = some (nanos, rest)) : nanos < secondNanos := by
  unfold scanFraction at scanned
  split at scanned
  next after =>
    dsimp only at scanned
    split at scanned
    next => cases scanned
    next =>
      cases scanned
      exact fractionNanos_lt (Decimal.areDigits_takeWhile after)
  next =>
    cases scanned
    decide

theorem nanosFit_of_instant? {date : CivilDate} {time : CivilTime} {offset : Int} {instant : Instant}
    (short : time.nanos < secondNanos) (found : instant? date time offset = some instant) :
    nanosFit instant.seconds instant.nanos := by
  unfold instant? at found
  split at found
  next =>
    dsimp only at found
    split at found
    next =>
      cases found
      simp only [nanosFit, Bool.or_eq_true, Bool.and_eq_true, decide_eq_true_eq, beq_iff_eq]
      -- The number 60 stands for second 59 of its minute, with any offset of whole minutes.
      by_cases leap : time.second = 60
      · right
        rw [if_pos leap, leap]
        simp only [secondsAt, daySeconds]
        omega
      · left
        rw [if_neg leap]
        exact short
    next => cases found
  next => cases found

namespace Rfc3339

theorem nanos_lt_of_scanTime {cs rest : List Char} {time : CivilTime}
    (scanned : scanTime cs = some (time, rest)) : time.nanos < secondNanos := by
  simp only [scanTime, Option.bind_eq_bind, Option.bind_eq_some_iff] at scanned
  obtain ⟨hour, -, _, -, minute, -, _, -, second, -, fraction, scanned_fraction, made⟩ := scanned
  cases made
  exact nanos_lt_of_scanFraction scanned_fraction

theorem nanosFit_of_read? {cs : List Char} {instant : Instant} (found : read? cs = some instant) :
    nanosFit instant.seconds instant.nanos := by
  obtain ⟨⟨date, cs⟩, -, found⟩ := Option.bind_eq_some_iff.mp found
  dsimp only at found
  split at found
  next => cases found
  next divider cs =>
    split at found
    next =>
      obtain ⟨⟨time, cs⟩, scanned, found⟩ := Option.bind_eq_some_iff.mp found
      obtain ⟨⟨offset, cs⟩, -, found⟩ := Option.bind_eq_some_iff.mp found
      dsimp only at found
      split at found
      next => exact nanosFit_of_instant? (nanos_lt_of_scanTime scanned) found
      next => cases found
    next => cases found

end Rfc3339

theorem Rfc2822.nanosFit_of_read? {cs : List Char} {instant : Instant} (found : read? cs = some instant) :
    nanosFit instant.seconds instant.nanos := by
  unfold read? at found
  iterate 13 obtain ⟨_, -, found⟩ := Option.bind_eq_some_iff.mp found
  dsimp only at found
  split at found
  next =>
    -- mail headers have no fractions of a second
    have none : 0 < secondNanos := by decide
    exact nanosFit_of_instant? none found
  next => cases found

namespace Zoneless

theorem nanos_lt_of_scanTime {cs rest : List Char} {time : CivilTime}
    (scanned : scanTime cs = some (time, rest)) : time.nanos < secondNanos := by
  simp only [scanTime, Option.bind_eq_bind, Option.bind_eq_some_iff] at scanned
  obtain ⟨hour, -, _, -, minute, -, _, -, second, -, fraction, scanned_fraction, made⟩ := scanned
  cases made
  exact nanos_lt_of_scanFraction scanned_fraction

theorem nanosFit_of_readDateTime? {divider : List Char → Option (List Char)} {cs : List Char}
    {instant : Instant} (found : readDateTime? divider cs = some instant) :
    nanosFit instant.seconds instant.nanos := by
  simp only [readDateTime?, Option.bind_eq_bind, Option.bind_eq_some_iff] at found
  obtain ⟨_, -, _, -, _, scanned, found⟩ := found
  split at found
  next => exact nanosFit_of_instant? (nanos_lt_of_scanTime scanned) found
  next => cases found

theorem nanosFit_of_read? {cs : List Char} {instant : Instant} (found : read? cs = some instant) :
    nanosFit instant.seconds instant.nanos := by
  rcases (Option.orElse_eq_some _ _ _).mp found with found | ⟨-, found⟩
  · exact nanosFit_of_readDateTime? found
  rcases (Option.orElse_eq_some _ _ _).mp found with found | ⟨-, found⟩
  · exact nanosFit_of_readDateTime? found
  · simp only [readDate?, Option.bind_eq_bind, Option.bind_eq_some_iff] at found
    obtain ⟨_, -, found⟩ := found
    split at found
    next => exact nanosFit_of_instant? (by decide) found
    next => cases found

end Zoneless

/-! ### Years with a sign -/

theorem scanNumber_of_sign {least most : Nat} {sign : Char} (positive : 0 < least)
    (signed : sign.isDigit = false) (rest : List Char) :
    scanNumber least most (sign :: rest) = none := by
  have stops : ((sign :: rest).take most).takeWhile Char.isDigit = [] := by
    cases most with
    | zero => rfl
    | succ most => simp [signed]
  simp [scanNumber, stops, positive]

theorem exists_padded_cons (width n : Nat) : ∃ c digits, padded width n = c :: digits ∧ c.isDigit := by
  cases digits : padded width n with
  | nil =>
    obtain ⟨-, no_digits⟩ := List.append_eq_nil_iff.mp digits
    exact absurd no_digits Nat.toDigits_ne_nil
  | cons c others => exact ⟨c, others, rfl, isDigit_of_mem_padded (digits ▸ List.mem_cons_self)⟩

theorem trimStart_padded (width n : Nat) (rest : List Char) :
    Text.trimStart (padded width n ++ rest) = padded width n ++ rest := by
  obtain ⟨c, digits, padded_eq, digit⟩ := exists_padded_cons width n
  simp [padded_eq, Text.trimStart, Text.isBlank_of_isDigit digit]

theorem Rfc3339.read?_of_sign {sign : Char} (signed : sign.isDigit = false) (rest : List Char) :
    read? (sign :: rest) = none := by
  simp [read?, scanDate, scanNumber_of_sign (by decide : 0 < 4) signed]

/-- What starts with none of the first letters of the days of the week has no day of the week. -/
theorem Rfc2822.scanWeekday_of_not_letter {c : Char} (other : c.toLower ∉ ['m', 't', 'w', 'f', 's'])
    (rest : List Char) : scanWeekday (c :: rest) = some (none, c :: rest) := by
  have absent : ((c :: rest).take 3).map Char.toLower ∉ weekdays := by
    intro named
    simp only [weekdays, List.take_succ_cons, List.map_cons, List.mem_cons, List.cons.injEq,
      List.not_mem_nil, or_false] at named other
    tauto
  have position := List.idxOf?_eq_none_iff.mpr absent
  simp only [scanWeekday, scanName, position]

theorem Rfc2822.read?_of_sign {sign : Char} (either : sign = '-' ∨ sign = '+') (rest : List Char) :
    read? (sign :: rest) = none := by
  have solid : Text.trimStart (sign :: rest) = sign :: rest := by
    rcases either with rfl | rfl <;> rfl
  have signed : sign.isDigit = false := by
    rcases either with rfl | rfl <;> rfl
  have unnamed : scanWeekday (sign :: rest) = some (none, sign :: rest) := by
    apply scanWeekday_of_not_letter
    rcases either with rfl | rfl <;> decide
  have unread : scanNumber 1 2 (sign :: rest) = none := scanNumber_of_sign (by decide) signed rest
  unfold read?
  rw [solid, unnamed, Option.bind_eq_bind, Option.bind_some]
  dsimp only
  rw [solid, unread]
  rfl

namespace Zoneless

theorem scanPart_padded {n : Nat} (small : n < 100) (rest : List Char) :
    scanPart (padded 2 n ++ rest) = some (n, rest) := by
  rw [scanPart, trimStart_padded]
  exact scanNumber_padded (by decide) (by decide) small rest

theorem scanYear_signed {sign : Char} (either : sign = '-' ∨ sign = '+') {digits rest : List Char}
    (each : Decimal.AreDigits digits) (some_digit : digits ≠ []) (stops : Decimal.StopsDigits rest) :
    ∃ year, scanYear (sign :: (digits ++ rest)) = some (year, rest) := by
  have scanned : scanDigits 1 (digits ++ rest) =
      some ((Decimal.digitsValue digits, digits.length), rest) := by
    have present := List.length_pos_of_ne_nil some_digit
    simp only [scanDigits, Decimal.takeWhile_digits each stops, Decimal.dropWhile_digits each stops]
    rw [if_neg (by omega)]
  rcases either with rfl | rfl
  · exact ⟨_, by simp [scanYear, Text.trimStart, Text.isBlank, scanned]; rfl⟩
  · exact ⟨_, by simp [scanYear, Text.trimStart, Text.isBlank, scanned]; rfl⟩

theorem scanDate_signed {sign : Char} (either : sign = '-' ∨ sign = '+') (year : Nat) {month day : Nat}
    (month_small : month < 100) (day_small : day < 100) (rest : List Char) :
    ∃ date, scanDate (sign :: (padded 4 year ++ '-' :: (padded 2 month ++
      '-' :: (padded 2 day ++ rest)))) = some (date, rest) := by
  have digits : Decimal.AreDigits (padded 4 year) := fun _ => isDigit_of_mem_padded
  have some_digit : padded 4 year ≠ [] := by
    simp [padded]
  have stops : Decimal.StopsDigits ('-' :: (padded 2 month ++ '-' :: (padded 2 day ++ rest))) := by
    rintro _ ⟨⟩
    decide
  obtain ⟨value, scanned_year⟩ := scanYear_signed either digits some_digit stops
  have scanned_month := @scanPart_padded month month_small
  have scanned_day := @scanPart_padded day day_small
  exact ⟨⟨value, month, day⟩, by simp [scanDate, scanned_year, scanned_month, scanned_day, scanChar]⟩

theorem scanTime_padded {hour minute second nanos : Nat} (hour_small : hour < 100)
    (minute_small : minute < 100) (second_small : second < 100) {behind rest : List Char}
    (scanned_fraction : scanFraction behind = some (nanos, rest)) :
    scanTime (padded 2 hour ++ ':' :: (padded 2 minute ++ ':' :: (padded 2 second ++ behind))) =
      some (⟨hour, minute, second, nanos⟩, rest) := by
  have scanned_hour := @scanPart_padded hour hour_small
  have scanned_minute := @scanPart_padded minute minute_small
  have scanned_second := @scanPart_padded second second_small
  simp [scanTime, scanned_hour, scanned_minute, scanned_second, scanned_fraction, scanChar]

theorem scanTime_of_mark (rest : List Char) : scanTime ('T' :: rest) = none := by
  have unread : scanPart ('T' :: rest) = none := by
    simp [scanPart, Text.trimStart, Text.isBlank, scanNumber_of_sign]
  simp [scanTime, unread]

/-- A date with a time and the mark of UTC behind it fits no spelling without a zone. -/
theorem read?_of_utc {cs time : List Char} {date : CivilDate} {civil : CivilTime}
    (scanned_date : scanDate cs = some (date, 'T' :: time))
    (scanned_time : scanTime time = some (civil, ['Z'])) : read? cs = none := by
  have after_mark : readDateTime? (scanChar 'T') cs = none := by
    -- The mark of UTC is left over.
    simp [readDateTime?, scanned_date, scanned_time, scanChar]
  -- The mark of the time is no blank, and no time starts with it.
  have after_blanks : readDateTime? (fun cs => some (Text.trimStart cs)) cs = none := by
    have mark : Text.trimStart ('T' :: time) = 'T' :: time := rfl
    simp [readDateTime?, scanned_date, mark, scanTime_of_mark]
  have alone : readDate? cs = none := by
    simp [readDate?, scanned_date]
  simp [read?, after_mark, after_blanks, alone]

end Zoneless

end Calendar

namespace Instant

theorem nanosFit_of_ofText? {text : String} {instant : Instant} (found : ofText? text = some instant) :
    nanosFit instant.seconds instant.nanos := by
  rcases (Option.orElse_eq_some _ _ _).mp found with found | ⟨-, found⟩
  · exact Calendar.Rfc3339.nanosFit_of_read? found
  rcases (Option.orElse_eq_some _ _ _).mp found with found | ⟨-, found⟩
  · exact Calendar.Rfc2822.nanosFit_of_read? found
  · exact Calendar.Zoneless.nanosFit_of_read? found

theorem yearText_signed {year : Int} (long : ¬(0 ≤ year ∧ year ≤ 9999)) :
    ∃ sign, (sign = '-' ∨ sign = '+') ∧ yearText year = sign :: padded 4 year.natAbs := by
  rw [yearText, if_neg long]
  split
  next => exact ⟨'-', .inl rfl, rfl⟩
  next => exact ⟨'+', .inr rfl, rfl⟩

theorem clock_lt_hundred {instant : Instant} (short : instant.nanos < 2 * secondNanos) :
    instant.clock.hour < 100 ∧ instant.clock.minute < 100 ∧ instant.clock.second < 100 := by
  have last := secondOfDay_lt instant
  simp only [clock, secondNanos] at short ⊢
  omega

/-- No spelling of dates fits the text of an instant in a year that is written with a sign. -/
theorem ofText?_text_of_signed {instant : Instant} (short : instant.nanos < 2 * secondNanos)
    (long : ¬(0 ≤ instant.date.year ∧ instant.date.year ≤ 9999)) : ofText? instant.text = none := by
  obtain ⟨sign, either, year⟩ := yearText_signed long
  have signed : sign.isDigit = false := by
    rcases either with rfl | rfl <;> rfl
  obtain ⟨month_small, day_small⟩ := CivilDate.month_day_lt_hundred (isValid_date instant)
  obtain ⟨hour_small, minute_small, second_small⟩ := clock_lt_hundred short
  have millis_small : instant.nanos % secondNanos / 1000000 < 1000 := by
    simp only [secondNanos]
    omega
  obtain ⟨date, scanned_date⟩ := Calendar.Zoneless.scanDate_signed either instant.date.year.natAbs
    month_small day_small ('T' :: (padded 2 instant.clock.hour ++
      ':' :: (padded 2 instant.clock.minute ++ ':' :: (padded 2 instant.clock.second ++
      '.' :: (padded 3 (instant.nanos % secondNanos / 1000000) ++ ['Z'])))))
  have scanned_time := Calendar.Zoneless.scanTime_padded hour_small minute_small second_small
    (Calendar.scanFraction_padded millis_small)
  have zoneless : Calendar.Zoneless.read? instant.chars = none := by
    rw [chars_eq, year]
    exact Calendar.Zoneless.read?_of_utc scanned_date scanned_time
  have internet : Calendar.Rfc3339.read? instant.chars = none := by
    rw [chars_eq, year]
    exact Calendar.Rfc3339.read?_of_sign signed _
  have mail : Calendar.Rfc2822.read? instant.chars = none := by
    rw [chars_eq, year]
    exact Calendar.Rfc2822.read?_of_sign either _
  simp [ofText?, text, ofChars?, trim_chars, internet, mail, zoneless]

/-- The instant so many milliseconds after the start of 1970. -/
def atMillis (millis : Int) : Instant :=
  ⟨millis / 1000, (millis % 1000).toNat * 1000000⟩

theorem nanosFit_atMillis (millis : Int) : nanosFit (atMillis millis).seconds (atMillis millis).nanos := by
  apply nanosFit_of_lt
  simp only [atMillis, secondNanos]
  omega

/-- Milliseconds that a signed word does not hold lie beyond the years that instants are kept in. -/
theorem atMillis_of_ofMillis? {millis : Int} {instant : Instant}
    (found : ofMillis? (Number.saturate millis) = some instant) : instant = atMillis millis := by
  have held : Number.saturate millis = millis := by
    by_contra beyond
    have outside : inRange (Number.saturate millis / 1000) = false := by
      have clamped : Number.saturate millis = Number.leastInteger ∨
          Number.saturate millis = Number.greatestSigned := by
        unfold Number.saturate at beyond ⊢
        omega
      rcases clamped with least | greatest
      · rw [least]
        decide
      · rw [greatest]
        decide
    simp [ofMillis?, ofParts?, outside] at found
  rw [held] at found
  unfold ofMillis? ofParts? at found
  split at found
  next => exact (Option.some.inj found).symm
  next => cases found

end Instant

/-- The instant that a value stands for where a date is written. -/
inductive Value.Denotes : Value → Instant → Prop
  | date (instant : Instant) : Denotes (.date instant) instant
  | text {text : String} {instant : Instant} :
      Instant.ofText? text = some instant → Denotes (.string text) instant
  | integer (n : Int) : Denotes (.number (.integer n)) (Instant.atMillis n)
  | float (x : Binary64) : Denotes (.number (.float x)) (Instant.atMillis x.truncate)

namespace Codec

theorem denotes_of_toInstant {value : Value} {instant : Instant}
    (found : toInstant value = .ok instant) : value.Denotes instant := by
  unfold toInstant at found
  dsimp only at found
  split at found
  next instant present =>
    cases found
    split at present
    next =>
      cases present
      exact .date instant
    next text => exact .text present
    next n =>
      cases n with
      | integer n =>
        obtain rfl := Instant.atMillis_of_ofMillis? present
        exact .integer n
      | float x =>
        obtain rfl := Instant.atMillis_of_ofMillis? present
        exact .float x
    next => cases present
  next => cases found

/-- Only a date that is given as such has nanoseconds that do not fit. -/
theorem nanos_lt_of_denotes {value : Value} {instant : Instant}
    (short : ∀ date, value = .date date → date.nanos < 2 * Instant.secondNanos)
    (denotes : value.Denotes instant) : instant.nanos < 2 * Instant.secondNanos := by
  cases denotes with
  | date => exact short instant rfl
  | text found => exact Instant.nanos_lt_of_fits (Instant.nanosFit_of_ofText? found)
  | integer n => exact Instant.nanos_lt_of_fits (Instant.nanosFit_atMillis n)
  | float x => exact Instant.nanos_lt_of_fits (Instant.nanosFit_atMillis x.truncate)

/--
What is written as a date shows the instant that the value stands for, and is read back as that instant,
cut to milliseconds, in a year of four digits; in every other year it cannot be read.
-/
theorem date_written_read {gateway : Gateway} {path : String} {value : Value} {wire : WireValue}
    (short : ∀ date, value = .date date → date.nanos < 2 * Instant.secondNanos)
    (written : writeAttribute gateway (some .date) path value = .ok (some wire))
    (decrypting : Bool) (place : String) :
    ∃ instant, value.Denotes instant ∧ wire = .string instant.text ∧
      instant.carried.truncated.text = instant.text ∧
      readAttribute gateway decrypting (some .date) place wire =
        if 0 ≤ instant.date.year ∧ instant.date.year ≤ 9999 then
          .ok (.date instant.carried.truncated)
        else .error (.read place (.invalidDate instant.text)) := by
  cases isWrittenLeaf_of_writeAttribute written with
  | @date instant found =>
    have denotes := denotes_of_toInstant found
    have instant_short := nanos_lt_of_denotes short denotes
    have shown := Instant.text_shown instant_short
    refine ⟨instant, denotes, rfl, shown, ?_⟩
    rw [readAttribute, readValue, readTextAs]
    by_cases fourDigits : 0 ≤ instant.date.year ∧ instant.date.year ≤ 9999
    case pos =>
      have read := Instant.ofText?_text (Instant.isStorable_shown instant_short fourDigits)
      rw [shown] at read
      simp only [read, if_pos fourDigits]
    case neg =>
      have unread := Instant.ofText?_text_of_signed instant_short fourDigits
      simp only [unread, if_neg fourDigits]
  | natural free => cases free

/-- The leap second that ends the year 9999, spelled with an offset and a name for its day. -/
theorem date_written_read_leap :
    let value : Value := .string "Fri, 31 Dec 9999 22:59:60 -0100"
    let wire : WireValue := .string "9999-12-31T23:59:60.000Z"
    writeAttribute ⟨none⟩ (some .date) "at" value = .ok (some wire) ∧
      ∃ instant, value.Denotes instant ∧ wire = .string instant.text ∧
        instant.carried.truncated.text = instant.text ∧
        readAttribute ⟨none⟩ false (some .date) "at" wire =
          if 0 ≤ instant.date.year ∧ instant.date.year ≤ 9999 then
            .ok (.date instant.carried.truncated)
          else .error (.read "at" (.invalidDate instant.text)) := by
  intro value wire
  have written : writeAttribute ⟨none⟩ (some .date) "at" value = .ok (some wire) := rfl
  have no_date : ∀ date, value = .date date → date.nanos < 2 * Instant.secondNanos := by
    intro date same
    exact absurd (congrArg Value.kind same) nofun
  exact ⟨written, date_written_read no_date written false "at"⟩

/-- The first instant of the year 10000 is written, and cannot be read. -/
theorem date_unread_in_year_10000 :
    writeAttribute ⟨none⟩ (some .date) "at" (.date ⟨253402300800, 0⟩) =
      .ok (some (.string "+10000-01-01T00:00:00.000Z")) ∧
    readAttribute ⟨none⟩ false (some .date) "at" (.string "+10000-01-01T00:00:00.000Z") =
      .error (.read "at" (.invalidDate "+10000-01-01T00:00:00.000Z")) :=
  ⟨rfl, rfl⟩

end Codec

/-! ### Milliseconds -/

namespace Instant

/-- The seconds from the start of the year 0 to the end of the year 9999. -/
theorem seconds_of_fourDigits {instant : Instant}
    (fourDigits : 0 ≤ instant.date.year ∧ instant.date.year ≤ 9999) :
    -62167219200 ≤ instant.seconds ∧ instant.seconds < 253402300800 := by
  have day := CivilDate.dayNumber_of_fourDigits (isValid_date instant) fourDigits
  rw [dayNumber_date] at day
  simp only [epochDay, daySeconds] at day
  omega

theorem isWord_of_fourDigits {millis : Int}
    (fourDigits : 0 ≤ (atMillis millis).date.year ∧ (atMillis millis).date.year ≤ 9999) :
    Number.leastInteger ≤ millis ∧ millis ≤ Number.greatestSigned := by
  have bounds := seconds_of_fourDigits fourDigits
  simp only [atMillis] at bounds
  simp only [Number.leastInteger, Number.greatestSigned]
  omega

/-- Milliseconds in a year of four digits denote the instant that lies so many after the start of 1970. -/
theorem ofNumber?_of_fourDigits {millis : Int}
    (fourDigits : 0 ≤ (atMillis millis).date.year ∧ (atMillis millis).date.year ≤ 9999) :
    ofNumber? (.integer millis) = some (atMillis millis) := by
  obtain ⟨least, greatest⟩ := isWord_of_fourDigits fourDigits
  have kept : Number.saturate millis = millis := by
    unfold Number.saturate
    omega
  have in_range : inRange (millis / 1000) := inRange_of_fourDigits fourDigits
  have fits : nanosFit (millis / 1000) ((millis % 1000).toNat * 1000000) := nanosFit_atMillis millis
  simp only [ofNumber?, Number.toSigned, kept, ofMillis?, ofParts?, in_range, fits, Bool.and_self, if_true]
  rfl

theorem isStorable_atMillis {millis : Int}
    (fourDigits : 0 ≤ (atMillis millis).date.year ∧ (atMillis millis).date.year ≤ 9999) :
    (atMillis millis).IsStorable where
  fits := nanosFit_atMillis millis
  wholeMillis := Nat.mul_mod_left _ _
  fourDigits := fourDigits

/-- No time is lost when milliseconds are split into seconds and nanoseconds, also before 1970. -/
theorem atMillis_exact (millis : Int) : (atMillis millis).nanos < secondNanos ∧
    (atMillis millis).seconds * secondNanos + (atMillis millis).nanos = millis * 1000000 := by
  simp only [atMillis, secondNanos]
  omega

end Instant

namespace Codec

/--
A number of milliseconds after the start of 1970, or before it, is written as a text; that text and the number itself
are read as the same date, if it lies in a year of four digits, and that date is exact.
-/
theorem millis_written_read {n : Int}
    (fourDigits : 0 ≤ (Instant.atMillis n).date.year ∧ (Instant.atMillis n).date.year ≤ 9999)
    (gateway : Gateway) (decrypting : Bool) (path place : String) :
    ∃ text instant,
      writeAttribute gateway (some .date) path (.number (.integer n)) = .ok (some (.string text)) ∧
      readAttribute gateway decrypting (some .date) place (.string text) = .ok (.date instant) ∧
      readAttribute gateway decrypting (some .date) place (.number (integerText n)) = .ok (.date instant) ∧
      instant.nanos < Instant.secondNanos ∧
      instant.seconds * Instant.secondNanos + instant.nanos = n * 1000000 := by
  have denoted := Instant.ofNumber?_of_fourDigits fourDigits
  obtain ⟨least, greatest⟩ := Instant.isWord_of_fourDigits fourDigits
  refine ⟨(Instant.atMillis n).text, Instant.atMillis n, ?written, ?from_text, ?from_number, Instant.atMillis_exact n⟩
  case written =>
    simp only [writeAttribute, Value.isNull, coerce, toInstant, denoted]
    rfl
  case from_text =>
    have read := Instant.ofText?_text (Instant.isStorable_atMillis fourDigits)
    simp only [readAttribute, readValue, readTextAs, read]
  case from_number =>
    have word : Number.IsWord n := ⟨least, greatest.trans (by decide)⟩
    simp only [readAttribute, readValue, readNumberAs, readNumber_integerText word, bind, Except.bind, denoted]
    rfl

/-- The last millisecond of the year before 1970. -/
theorem millis_written_read_negative :
    writeAttribute ⟨none⟩ (some .date) "at" (.number (.integer (-1))) =
        .ok (some (.string "1969-12-31T23:59:59.999Z")) ∧
      readAttribute ⟨none⟩ false (some .date) "at" (.number "-1") = .ok (.date ⟨-1, 999000000⟩) ∧
      readAttribute ⟨none⟩ false (some .date) "at" (.string "1969-12-31T23:59:59.999Z") =
        readAttribute ⟨none⟩ false (some .date) "at" (.number "-1") := by
  have written : writeAttribute ⟨none⟩ (some .date) "at" (.number (.integer (-1))) =
      .ok (some (.string "1969-12-31T23:59:59.999Z")) := rfl
  obtain ⟨text, instant, made, from_text, from_number, -, -⟩ :=
    millis_written_read (n := -1) (by decide) ⟨none⟩ false "at" "at"
  obtain rfl : "1969-12-31T23:59:59.999Z" = text := by
    rw [written] at made
    simpa using made
  exact ⟨written, rfl, from_text.trans from_number.symm⟩

end Codec

end ItemMapper
