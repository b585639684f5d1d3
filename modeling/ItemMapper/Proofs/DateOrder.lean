import ItemMapper.Proofs.Base64Text
import ItemMapper.Proofs.StoredDates

/-!
# The order of stored dates

A date text has its numbers in columns of a fixed width, from the year down to the milliseconds. So texts have the
order of their numbers (`inColumns_lt`), and the numbers have that of the instants (`numbers_le`): civil dates come
one after another like the days, and the second that a leap second is shown in, with the number 60, is the last one
of its minute.

Main result: stored dates are in the order of their instants, and two of them are equal if the instants are the same
up to their milliseconds (`text_mono_and_eq_iff`).
-/

namespace ItemMapper

/-! ### Bytes -/

/-- Texts of ASCII characters have the order of their bytes. -/
theorem utf8_lt_of_lt {first second : List Char} (first_ascii : ∀ c ∈ first, c.toNat < 128)
    (second_ascii : ∀ c ∈ second, c.toNat < 128) (less : first < second) :
    utf8 (String.ofList first) < utf8 (String.ofList second) := by
  rw [utf8_of_ascii first_ascii, utf8_of_ascii second_ascii]
  induction less with
  | nil => exact .nil
  | cons _ ih =>
    exact .cons (ih (List.forall_mem_cons.mp first_ascii).2 (List.forall_mem_cons.mp second_ascii).2)
  | @rel c _ d _ less =>
    have c_small := first_ascii c List.mem_cons_self
    have d_small := second_ascii d List.mem_cons_self
    have less : c.toNat < d.toNat := less
    refine .rel ?_
    rw [UInt8.lt_iff_toNat_lt]
    simp only [UInt8.toNat_ofNat']
    omega

/-! ### Numbers in columns -/

/-- Of two runs of digits of the same length, the one with the lesser value comes first. -/
theorem Decimal.digits_append_lt {first second : List Char} (first_digits : AreDigits first)
    (second_digits : AreDigits second) (same_length : first.length = second.length)
    (less : digitsValue first < digitsValue second) (after other : List Char) :
    first ++ after < second ++ other := by
  induction first generalizing second with
  | nil =>
    obtain rfl := List.eq_nil_of_length_eq_zero same_length.symm
    exact absurd less (Nat.lt_irrefl _)
  | cons c first ih =>
    cases second with
    | nil => cases same_length
    | cons d second =>
      obtain ⟨c_digit, first_tail⟩ := List.forall_mem_cons.mp first_digits
      obtain ⟨d_digit, second_tail⟩ := List.forall_mem_cons.mp second_digits
      have tail_length : first.length = second.length := Nat.succ.inj same_length
      have tail_small := digitsValue_lt second_tail
      rw [digitsValue_cons, digitsValue_cons, tail_length] at less
      rw [List.cons_append, List.cons_append, List.cons_lt_cons_iff]
      rcases Nat.lt_trichotomy c.toNat d.toNat with before | same | behind
      · exact .inl before
      · obtain rfl : c = d := Char.toNat_inj.mp same
        exact .inr ⟨rfl, ih first_tail second_tail tail_length (by omega)⟩
      · -- The digits behind do not make up for a greater digit in front.
        have step : d.toNat - '0'.toNat + 1 ≤ c.toNat - '0'.toNat := by
          have least := (isDigit_bounds d_digit).1
          have zero : '0'.toNat = 48 := rfl
          omega
        have ahead := Nat.mul_le_mul_right (10 ^ second.length) step
        rw [Nat.succ_mul] at ahead
        omega

namespace Instant

/-- Numbers, each in a column of a fixed width with a mark behind it. -/
def inColumns : List (Nat × Char) → List Nat → List Char
  | (width, mark) :: columns, n :: numbers => padded width n ++ mark :: inColumns columns numbers
  | _, _ => []

/-- Every number has no more digits than its column is wide. -/
def FitColumns (columns : List (Nat × Char)) (numbers : List Nat) : Prop :=
  List.Forall₂ (fun column n => 0 < column.1 ∧ n < 10 ^ column.1) columns numbers

theorem inColumns_lt {columns : List (Nat × Char)} {first second : List Nat} (first_fits : FitColumns columns first)
    (second_fits : FitColumns columns second) (less : first < second) :
    inColumns columns first < inColumns columns second := by
  induction first_fits generalizing second with
  | nil =>
    cases second_fits
    exact absurd less (List.lt_irrefl _)
  | @cons column m columns first fit _ ih =>
    cases second_fits with
    | @cons _ n _ second other_fit other_fits =>
      obtain ⟨width, mark⟩ := column
      rw [inColumns, inColumns]
      rcases List.cons_lt_cons_iff.mp less with less_here | ⟨rfl, less_behind⟩
      · apply Decimal.digits_append_lt
        · exact fun _ => isDigit_of_mem_padded
        · exact fun _ => isDigit_of_mem_padded
        · rw [length_padded fit.1 fit.2, length_padded other_fit.1 other_fit.2]
        · rw [digitsValue_padded, digitsValue_padded]
          exact less_here
      · exact List.Lex.append_left _ (.cons (ih other_fits less_behind)) _

/-! ### Instants -/

/-- Instants are in the order of their seconds, and within a second in that of their nanoseconds. -/
instance : LE Instant where
  le first second := first.seconds < second.seconds ∨
    first.seconds = second.seconds ∧ first.nanos ≤ second.nanos

theorem le_iff {first second : Instant} : first ≤ second ↔ first.seconds < second.seconds ∨
    first.seconds = second.seconds ∧ first.nanos ≤ second.nanos :=
  Iff.rfl

/-- The columns of a date text, with the marks between them. -/
def columns : List (Nat × Char) :=
  [(4, '-'), (2, '-'), (2, 'T'), (2, ':'), (2, ':'), (2, '.'), (3, 'Z')]

/-- The numbers that a date text shows in them. -/
def numbers (instant : Instant) : List Nat :=
  [instant.date.year.natAbs, instant.date.month, instant.date.day, instant.clock.hour, instant.clock.minute,
    instant.clock.second, instant.nanos % secondNanos / 1000000]

theorem chars_eq_inColumns {instant : Instant} (fourDigits : 0 ≤ instant.date.year ∧ instant.date.year ≤ 9999) :
    instant.chars = inColumns columns instant.numbers := by
  rw [chars_eq, yearText_of_fourDigits fourDigits]
  rfl

theorem fitColumns_numbers {instant : Instant} (short : instant.nanos < 2 * secondNanos)
    (fourDigits : 0 ≤ instant.date.year ∧ instant.date.year ≤ 9999) : FitColumns columns instant.numbers := by
  obtain ⟨month_small, day_small⟩ := CivilDate.month_day_lt_hundred (isValid_date instant)
  obtain ⟨hour_small, minute_small, second_small⟩ := clock_lt_hundred short
  have millis_small : instant.nanos % secondNanos / 1000000 < 1000 := by
    simp only [secondNanos]
    omega
  have year_small : instant.date.year.natAbs < 10000 := by omega
  simp [FitColumns, columns, numbers, year_small, month_small, day_small, hour_small, minute_small, second_small,
    millis_small]

/-- What comes later has the same day and is not earlier on it, or a date that comes later. -/
theorem le_cases {first second : Instant} (le : first ≤ second) : first.date.IsBefore second.date ∨
    first.date = second.date ∧ (first.secondOfDay < second.secondOfDay ∨
      first.secondOfDay = second.secondOfDay ∧ first.nanos ≤ second.nanos) := by
  rw [le_iff] at le
  have days : first.seconds / daySeconds ≤ second.seconds / daySeconds :=
    Int.ediv_le_ediv (by decide) (by omega)
  rcases Int.lt_or_eq_of_le days with earlier | same_day
  · left
    rw [CivilDate.isBefore_iff (isValid_date first) (isValid_date second), dayNumber_date, dayNumber_date]
    omega
  · right
    have same_date : first.date = second.date := by rw [Instant.date, same_day, Instant.date]
    refine ⟨same_date, ?_⟩
    simp only [secondOfDay, daySeconds] at same_day ⊢
    omega

/-- The numbers that texts show have the order of the instants. -/
theorem numbers_le {first second : Instant} (first_fits : nanosFit first.seconds first.nanos)
    (first_year : 0 ≤ first.date.year) (second_year : 0 ≤ second.date.year) (le : first ≤ second) :
    first.numbers < second.numbers ∨ first.numbers = second.numbers := by
  simp only [numbers, List.cons_lt_cons_iff, List.cons.injEq, List.lt_irrefl, and_false, or_false, and_true]
  rcases le_cases le with before | ⟨same_date, later⟩
  · unfold CivilDate.IsBefore at before
    left
    omega
  · simp only [same_date, clock, secondNanos, true_and, lt_self_iff_false, false_or]
    rcases later with later | ⟨same_second, le_nanos⟩
    · -- Nothing is added to the earlier second unless it is the last one of its minute.
      have leap := leap_cases first_fits
      left
      omega
    · rw [same_second]
      have leap : first.nanos / 1000000000 ≤ second.nanos / 1000000000 := Nat.div_le_div_right le_nanos
      omega

theorem ascii_chars {instant : Instant} {c : Char} (member : c ∈ instant.chars) : c.toNat < 128 := by
  rcases mem_chars member with digit | mark
  · have bounds := Decimal.isDigit_bounds digit
    omega
  · have small : marks.all fun c => c.toNat < 128 := rfl
    simpa using List.all_eq_true.mp small c mark

theorem utf8_text_le {first second : Instant} (first_fits : nanosFit first.seconds first.nanos)
    (second_fits : nanosFit second.seconds second.nanos)
    (first_year : 0 ≤ first.date.year ∧ first.date.year ≤ 9999)
    (second_year : 0 ≤ second.date.year ∧ second.date.year ≤ 9999) (le : first ≤ second) :
    utf8 first.text ≤ utf8 second.text := by
  have first_chars := chars_eq_inColumns first_year
  have second_chars := chars_eq_inColumns second_year
  rcases numbers_le first_fits first_year.1 second_year.1 le with less | same
  · have first_columns := fitColumns_numbers (nanos_lt_of_fits first_fits) first_year
    have second_columns := fitColumns_numbers (nanos_lt_of_fits second_fits) second_year
    have chars_less := inColumns_lt first_columns second_columns less
    rw [← first_chars, ← second_chars] at chars_less
    apply List.le_of_lt
    exact utf8_lt_of_lt (fun _ => ascii_chars) (fun _ => ascii_chars) chars_less
  · rw [text, text, first_chars, second_chars, same]
    exact List.le_refl _

/-- A text is read back as what it shows, so it shows the instant up to its milliseconds. -/
theorem truncated_eq_of_text_eq {first second : Instant} (first_fits : nanosFit first.seconds first.nanos)
    (second_fits : nanosFit second.seconds second.nanos)
    (first_year : 0 ≤ first.date.year ∧ first.date.year ≤ 9999)
    (second_year : 0 ≤ second.date.year ∧ second.date.year ≤ 9999) (same : first.text = second.text) :
    first.truncated = second.truncated := by
  have first_read := ofText?_text (isStorable_truncated first_fits first_year)
  have second_read := ofText?_text (isStorable_truncated second_fits second_year)
  rw [text_truncated] at first_read second_read
  rw [same, second_read] at first_read
  exact (Option.some.inj first_read).symm

/--
The texts of instants in years of four digits, leap seconds among them, are in the order of the instants, byte by
byte, and those of two instants are equal if and only if the instants are, up to their milliseconds.
-/
theorem text_mono_and_eq_iff {first second : Instant} (first_fits : nanosFit first.seconds first.nanos)
    (second_fits : nanosFit second.seconds second.nanos)
    (first_year : 0 ≤ first.date.year ∧ first.date.year ≤ 9999)
    (second_year : 0 ≤ second.date.year ∧ second.date.year ≤ 9999) :
    (first ≤ second → utf8 first.text ≤ utf8 second.text) ∧
      (first.text = second.text ↔ first.truncated = second.truncated) := by
  refine ⟨utf8_text_le first_fits second_fits first_year second_year, ?_⟩
  constructor
  · exact truncated_eq_of_text_eq first_fits second_fits first_year second_year
  · intro same
    rw [← text_truncated first, same, text_truncated]

/-- The end of a leap second before 1970, and an instant that lies two nanoseconds later in the first second of 1970. -/
theorem text_mono_and_eq_iff_leap :
    let first : Instant := ⟨-1, 1999999999⟩
    let second : Instant := ⟨0, 1⟩
    first.text = "1969-12-31T23:59:60.999Z" ∧ second.text = "1970-01-01T00:00:00.000Z" ∧
      utf8 first.text ≤ utf8 second.text ∧ first.truncated ≠ second.truncated := by
  intro first second
  have both := @text_mono_and_eq_iff first second rfl rfl (by decide) (by decide)
  have first_text : first.text = "1969-12-31T23:59:60.999Z" := by cbv
  have second_text : second.text = "1970-01-01T00:00:00.000Z" := by cbv
  refine ⟨first_text, second_text, both.1 (.inl (by decide)), fun same => ?_⟩
  have texts := both.2.mpr same
  rw [first_text, second_text] at texts
  exact absurd texts (by decide)

end Instant

end ItemMapper
