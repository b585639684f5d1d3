import ItemMapper.Calendar.Instant
import Mathlib

/-!
# Numbered days and civil dates

Every numbered day is a valid day of the Gregorian calendar, and the number of that day is the one it
was made from (`dayNumber_ofDayNumber`). The year is found by a guess that is at most one year off.

Valid days have the order of their numbers (`isBefore_iff`), so each of them is found again by its number
(`ofDayNumber_dayNumber`).
-/

namespace ItemMapper.CivilDate

/-- A year has as many days as its months have together. -/
theorem firstDay_succ (year : Int) :
    firstDay (year + 1) = firstDay year + (monthLengths year).sum := by
  -- Only February depends on the year, and the leap rule is a rule about three quotients.
  have february : ((if isLeapYear year then 29 else 28 : Nat) : Int) =
      28 + ((year + 4) / 4 - (year + 3) / 4 - ((year + 100) / 100 - (year + 99) / 100) +
        ((year + 400) / 400 - (year + 399) / 400)) := by
    unfold isLeapYear
    split <;> simp_all <;> omega
  simp only [monthLengths, List.sum_cons, List.sum_nil]
  generalize (if isLeapYear year then 29 else 28 : Nat) = days at february ⊢
  unfold firstDay
  omega

/-- The year of a day is the one that has started, but the next one has not. -/
theorem firstDay_yearOfDay (number : Int) :
    firstDay (yearOfDay number) ≤ number ∧ number < firstDay (yearOfDay number + 1) := by
  unfold yearOfDay
  -- 400 years have 146097 days, so the guess is less than two days off and at most one year
  dsimp only
  generalize guessed : 400 * number / 146097 = guess
  have low : 146097 * guess ≤ 400 * number := by omega
  have high : 400 * number < 146097 * (guess + 1) := by omega
  split
  next before =>
    refine ⟨?_, ?_⟩
    · unfold firstDay at *
      omega
    · simpa using before
  next started =>
    split
    next within => exact ⟨by omega, within⟩
    next after =>
      refine ⟨by omega, ?_⟩
      unfold firstDay at *
      omega

/-- A position in a run of months lies in one of them, at a day that the month has. -/
theorem monthAndDay_spec {position : Nat} {lengths : List Nat} (month : Nat)
    (inside : position < lengths.sum) :
    ∃ index length, monthAndDay month position lengths = (month + index, position - (lengths.take index).sum + 1) ∧
      lengths[index]? = some length ∧ (lengths.take index).sum ≤ position ∧
      position - (lengths.take index).sum < length := by
  -- The position is counted down by the months that are over.
  induction lengths generalizing month position with
  | nil => simp at inside
  | cons length rest ih =>
    unfold monthAndDay
    split
    next here => exact ⟨0, length, by simp, by simp, by simp, by simpa using here⟩
    next later =>
      have inside : position - length < rest.sum := by
        simp only [List.sum_cons] at inside
        omega
      obtain ⟨index, found, month_day, at_index, reached, within⟩ := ih (month + 1) inside
      refine ⟨index + 1, found, ?_, by simpa using at_index, ?_, ?_⟩
      · simp only [month_day, List.take_succ_cons, List.sum_cons, Prod.mk.injEq]
        omega
      · simp only [List.take_succ_cons, List.sum_cons]
        omega
      · simp only [List.take_succ_cons, List.sum_cons]
        omega

theorem isValid_and_dayNumber_ofDayNumber (number : Int) :
    (ofDayNumber number).isValid ∧ (ofDayNumber number).dayNumber = number := by
  obtain ⟨started, before⟩ := firstDay_yearOfDay number
  unfold ofDayNumber
  dsimp only
  generalize yearOfDay number = year at started before ⊢
  rw [firstDay_succ] at before
  have inside : (number - firstDay year).toNat < (monthLengths year).sum := by omega
  obtain ⟨index, length, found, at_index, reached, within⟩ := monthAndDay_spec 1 inside
  rw [found]
  simp only [isValid, dayNumber, ← List.sum_eq_foldr, Nat.add_sub_cancel_left, at_index,
    Bool.and_eq_true, decide_eq_true_eq]
  omega

/-- Every numbered day is a valid day. -/
theorem isValid_ofDayNumber (number : Int) : (ofDayNumber number).isValid :=
  (isValid_and_dayNumber_ofDayNumber number).1

/-- The number of a day leads to that day and back. -/
theorem dayNumber_ofDayNumber (number : Int) : (ofDayNumber number).dayNumber = number :=
  (isValid_and_dayNumber_ofDayNumber number).2

/-- A valid day has two digits for its month and two for its day. -/
theorem month_day_lt_hundred {date : CivilDate} (valid : date.isValid) :
    date.month < 100 ∧ date.day < 100 := by
  have lengths_le : ∀ length ∈ monthLengths date.year, length ≤ 31 := by
    intro length member
    unfold monthLengths at member
    split at member <;> simp at member <;> omega
  unfold isValid at valid
  simp only [Bool.and_eq_true, decide_eq_true_eq] at valid
  obtain ⟨_, fits⟩ := valid
  split at fits
  next length found =>
    have month : date.month - 1 < 12 := (List.getElem?_eq_some_iff.mp found).1
    have day := lengths_le length (List.mem_of_getElem? found)
    simp only [decide_eq_true_eq] at fits
    omega
  next => exact absurd fits Bool.false_ne_true

/-! ### Order -/

/-- A date comes before another one by its year, then by its month, then by its day. -/
def IsBefore (first second : CivilDate) : Prop :=
  first.year < second.year ∨ first.year = second.year ∧
    (first.month < second.month ∨ first.month = second.month ∧ first.day < second.day)

theorem isBefore_trichotomy (first second : CivilDate) :
    first.IsBefore second ∨ first = second ∨ second.IsBefore first := by
  obtain ⟨first_year, first_month, first_day⟩ := first
  obtain ⟨second_year, second_month, second_day⟩ := second
  simp only [IsBefore, CivilDate.mk.injEq]
  omega

theorem firstDay_mono {first second : Int} (le : first ≤ second) : firstDay first ≤ firstDay second := by
  unfold firstDay
  omega

/-- A valid day lies in its month. -/
theorem within_month {date : CivilDate} (valid : date.isValid) :
    1 ≤ date.month ∧ 1 ≤ date.day ∧
      ((monthLengths date.year).take (date.month - 1)).sum + date.day ≤
        ((monthLengths date.year).take date.month).sum := by
  unfold isValid at valid
  simp only [Bool.and_eq_true, decide_eq_true_eq] at valid
  obtain ⟨⟨month, day⟩, fits⟩ := valid
  refine ⟨month, day, ?_⟩
  split at fits
  next length found =>
    obtain ⟨inside, rfl⟩ := List.getElem?_eq_some_iff.mp found
    have next_month : date.month = date.month - 1 + 1 := by omega
    have days := List.sum_take_succ (monthLengths date.year) (date.month - 1) inside
    rw [← next_month] at days
    simp only [decide_eq_true_eq] at fits
    omega
  next => exact absurd fits Bool.false_ne_true

/-- A valid day lies in its year. -/
theorem dayNumber_within_year {date : CivilDate} (valid : date.isValid) :
    firstDay date.year ≤ date.dayNumber ∧ date.dayNumber < firstDay (date.year + 1) := by
  obtain ⟨-, day, within⟩ := within_month valid
  have months := ((monthLengths date.year).take_sublist date.month).sum_le_sum (by simp)
  rw [firstDay_succ]
  simp only [dayNumber, ← List.sum_eq_foldr]
  omega

theorem dayNumber_of_fourDigits {date : CivilDate} (valid : date.isValid)
    (fourDigits : 0 ≤ date.year ∧ date.year ≤ 9999) : 0 ≤ date.dayNumber ∧ date.dayNumber < 3652425 := by
  obtain ⟨started, before⟩ := dayNumber_within_year valid
  have first : firstDay 0 ≤ firstDay date.year := firstDay_mono fourDigits.1
  have last : firstDay (date.year + 1) ≤ firstDay 10000 := firstDay_mono (by omega)
  have first_day : firstDay 0 = 0 := rfl
  have last_day : firstDay 10000 = 3652425 := rfl
  omega

theorem dayNumber_lt_of_isBefore {first second : CivilDate} (first_valid : first.isValid)
    (second_valid : second.isValid) (before : first.IsBefore second) : first.dayNumber < second.dayNumber := by
  rcases before with year | ⟨same_year, later⟩
  · -- A year is over before the next one starts.
    have first_year := (dayNumber_within_year first_valid).2
    have second_year := (dayNumber_within_year second_valid).1
    have started := firstDay_mono (Int.add_one_le_iff.mpr year)
    omega
  obtain ⟨-, first_day, first_within⟩ := within_month first_valid
  obtain ⟨-, second_day, -⟩ := within_month second_valid
  simp only [dayNumber, ← List.sum_eq_foldr]
  rw [same_year] at first_within ⊢
  rcases later with month | ⟨same_month, day⟩
  · have months := List.monotone_sum_take (monthLengths second.year) (Nat.le_sub_one_of_lt month)
    dsimp only at months
    omega
  · rw [same_month]
    omega

theorem isBefore_iff {first second : CivilDate} (first_valid : first.isValid)
    (second_valid : second.isValid) : first.IsBefore second ↔ first.dayNumber < second.dayNumber := by
  constructor
  · exact dayNumber_lt_of_isBefore first_valid second_valid
  · intro less
    rcases isBefore_trichotomy first second with before | rfl | after
    · exact before
    · exact absurd less (Int.lt_irrefl _)
    · exact absurd (dayNumber_lt_of_isBefore second_valid first_valid after) (Int.lt_asymm less)

theorem ofDayNumber_dayNumber {date : CivilDate} (valid : date.isValid) : ofDayNumber date.dayNumber = date := by
  have again := isValid_ofDayNumber date.dayNumber
  have same := dayNumber_ofDayNumber date.dayNumber
  rcases isBefore_trichotomy (ofDayNumber date.dayNumber) date with before | same_date | after
  · exact absurd ((isBefore_iff again valid).mp before) (by omega)
  · exact same_date
  · exact absurd ((isBefore_iff valid again).mp after) (by omega)

end ItemMapper.CivilDate
