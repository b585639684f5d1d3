import ItemMapper.Proofs.NumberReach

/-!
# The text of doubles

The text of a double shows the shortest digits that were found for it: a number that ten does not divide,
times a power of ten (`exists_shortest`). Wherever the point is put, with zeros filled in or with an exponent,
the text is a literal of the strict grammar for that product (`layOut_writes`).

Main result: `Number.spells_text`.
-/

namespace ItemMapper

namespace Decimal

/-! ### Literals for a number times a power of ten -/

/-- A literal denotes a number times a power of ten, with any zeros at its end counted as digits. -/
def IsScaled (literal : Decimal) (n : Nat) (power : Int) : Prop :=
  ∃ zeros : Nat, literal.coefficient = n * 10 ^ zeros ∧ literal.power + zeros = power

/-- Characters that are, behind any sign, a strict literal for a number times a power of ten. -/
def Writes (cs : List Char) (n : Nat) (power : Int) : Prop :=
  ∀ negative sign, SpellsSign negative sign → ∃ literal : Decimal, literal.negative = negative ∧
    literal.Spells (sign ++ cs) ∧ literal.isStrict ∧ literal.IsScaled n power

/-- Digits that do not start with a zero. -/
structure IsLeading (digits : List Char) : Prop where
  each : AreDigits digits
  starts : ∃ c rest, digits = c :: rest ∧ c ≠ '0'

/-! ### Digits of a number -/

theorem ne_zero_of_undivided {m : Nat} (undivided : ¬ 10 ∣ m) : m ≠ 0 := by
  rintro rfl
  exact undivided (Nat.dvd_zero 10)

theorem toDigits_concat (n : Nat) : ∃ front, Nat.toDigits 10 n = front ++ [(n % 10).digitChar] := by
  rw [Nat.toDigits_eq_if (by decide)]
  split
  next small => exact ⟨[], by rw [Nat.mod_eq_of_lt small]; rfl⟩
  next => exact ⟨_, rfl⟩

theorem digitChar_ne_zero {d : Nat} (digit : d < 10) (positive : d ≠ 0) : d.digitChar ≠ '0' := by
  have each : ∀ d < 10, d ≠ 0 → d.digitChar ≠ '0' := by decide
  exact each d digit positive

theorem isLeading_toDigits {n : Nat} (positive : n ≠ 0) : IsLeading (Nat.toDigits 10 n) := by
  refine ⟨fun _ => isDigit_of_mem_toDigits, ?_⟩
  cases written : Nat.toDigits 10 n with
  | nil => exact absurd written Nat.toDigits_ne_nil
  | cons c rest =>
    refine ⟨c, rest, rfl, ?_⟩
    rintro rfl
    -- Only zero is written with a zero in front.
    have value := digitsValue_toDigits n
    rw [written, toDigits_eq_zero_cons written] at value
    exact positive value.symm

/-- The zeros at the end of a number are its factors of ten. -/
theorem exists_without_zeros {n : Nat} (positive : n ≠ 0) :
    ∃ m zeros, ¬ 10 ∣ m ∧ Nat.toDigits 10 n = Nat.toDigits 10 m ++ List.replicate zeros '0' := by
  induction n using Nat.strongRecOn with
  | ind n ih =>
    by_cases divides : 10 ∣ n
    case neg => exact ⟨n, 0, divides, by simp⟩
    case pos =>
      obtain ⟨k, rfl⟩ := divides
      obtain ⟨m, zeros, undivided, written⟩ := ih k (by omega) (by omega)
      refine ⟨m, zeros + 1, undivided, ?_⟩
      have last : (10 * k % 10).digitChar = '0' := by
        rw [Nat.mul_mod_right]
        rfl
      -- The last digit of the product is a zero, and the digits in front are those of the other factor.
      rw [Nat.toDigits_of_base_le (by decide) (by omega), Nat.mul_div_cancel_left k (by decide), last, written,
        List.append_assoc, List.replicate_succ']

/-- Dropping zeros from the end stops at the last digit of a number that ten does not divide. -/
theorem dropWhile_zeros {m : Nat} (undivided : ¬ 10 ∣ m) (zeros : Nat) :
    ((Nat.toDigits 10 m ++ List.replicate zeros '0').reverse.dropWhile (· == '0')).reverse =
      Nat.toDigits 10 m := by
  obtain ⟨front, written⟩ := toDigits_concat m
  have last : (m % 10).digitChar ≠ '0' :=
    digitChar_ne_zero (Nat.mod_lt m (by decide)) fun divides => undivided (Nat.dvd_of_mod_eq_zero divides)
  rw [List.reverse_append, List.reverse_replicate, List.dropWhile_append_of_pos (by simp), written]
  simp [last]

end Decimal

namespace Binary64

open Decimal

/-! ### The shortest digits -/

theorem onGrid?_ne_zero {x : Binary64} {power : Int} {n : Nat} (chosen : x.onGrid? power = some n) : n ≠ 0 := by
  unfold onGrid? at chosen
  dsimp only at chosen
  split at chosen
  next low_fits _ =>
    -- Both neighbours read back, so the lower one is not zero, and rounding gives one of them.
    obtain ⟨low_positive, -⟩ := Bool.and_eq_true_iff.mp low_fits
    replace low_positive := of_decide_eq_true low_positive
    obtain ⟨below_positive, -⟩ := Nat.div_pos_iff.mp low_positive
    have rounded := le_roundRatio below_positive
      (Nat.div_mul_le_self (x.ratio.1 * (decimalRatio 1 power).2) (x.ratio.2 * (decimalRatio 1 power).1))
    obtain rfl := Option.some.inj chosen
    exact Nat.pos_iff_ne_zero.mp (low_positive.trans_le rounded)
  next low_fits _ =>
    obtain ⟨low_positive, -⟩ := Bool.and_eq_true_iff.mp low_fits
    obtain rfl := Option.some.inj chosen
    exact Nat.pos_iff_ne_zero.mp (of_decide_eq_true low_positive)
  next =>
    obtain rfl := Option.some.inj chosen
    exact Nat.succ_ne_zero _
  next => cases chosen

theorem ratio_ne_zero {x : Binary64} (nonzero : x.mantissa ≠ 0) : x.ratio.1 ≠ 0 := by
  unfold ratio scaleRatio
  split
  next => exact nonzero
  next => exact Nat.mul_ne_zero nonzero (Nat.pos_iff_ne_zero.mp (Nat.pow_pos (by decide)))

/-- The value is at least the unit of a grid. -/
def Reaches (x : Binary64) (power : Int) : Prop :=
  x.ratio.2 * (decimalRatio 1 power).1 ≤ x.ratio.1 * (decimalRatio 1 power).2

/-- The search gives a positive multiple if the value reaches the finest grid that it comes to. -/
theorem searchGrids_ne_zero {x : Binary64} {power : Int} {steps : Nat} (reaches : x.Reaches (power - steps)) :
    (x.searchGrids power steps).1 ≠ 0 := by
  -- The induction is on the steps; the finest grid stays the same while the search comes closer to it.
  induction steps generalizing power with
  | zero =>
    -- On the finest grid the value is rounded, and what reaches the unit is not rounded to zero.
    have unit : 0 < x.ratio.2 * (decimalRatio 1 power).1 := by
      apply Nat.mul_pos (ratio_pos x)
      unfold decimalRatio
      split
      next => exact Nat.one_pos
      next => exact Nat.mul_pos Nat.one_pos (Nat.pow_pos (by decide))
    have whole : 1 * (x.ratio.2 * (decimalRatio 1 power).1) ≤ x.ratio.1 * (decimalRatio 1 power).2 := by
      rw [Nat.one_mul]
      simpa [Reaches] using reaches
    exact Nat.pos_iff_ne_zero.mp (le_roundRatio unit whole)
  | succ steps ih =>
    unfold searchGrids
    split
    next n found => exact onGrid?_ne_zero found
    next =>
      apply ih
      have same : power - 1 - (steps : Int) = power - (steps + 1 : Nat) := by omega
      rwa [same]

theorem lt_pow_length (n : Nat) : n < 10 ^ (Nat.toDigits 10 n).length :=
  (Nat.length_toDigits_le_iff (by decide) Nat.length_toDigits_pos).mp le_rfl

theorem pow_le_of_length {n places : Nat} (positive : n ≠ 0) (length : (Nat.toDigits 10 n).length = places + 1) :
    10 ^ places ≤ n := by
  rcases Nat.eq_zero_or_pos places with rfl | some_places
  · exact Nat.pos_iff_ne_zero.mpr positive
  · by_contra small
    have short := (Nat.length_toDigits_le_iff (by decide) some_places).mpr (Nat.lt_of_not_le small)
    omega

/-- A value reaches every grid below the power of ten that its length suggests. -/
theorem reaches_of_length {x : Binary64} (nonzero : x.mantissa ≠ 0) {power : Int}
    (low : power < (Nat.toDigits 10 x.ratio.1).length - (Nat.toDigits 10 x.ratio.2).length) :
    x.Reaches power := by
  obtain ⟨places, length⟩ : ∃ places, (Nat.toDigits 10 x.ratio.1).length = places + 1 :=
    Nat.exists_eq_succ_of_ne_zero (Nat.pos_iff_ne_zero.mp Nat.length_toDigits_pos)
  have above : 10 ^ places ≤ x.ratio.1 := pow_le_of_length (ratio_ne_zero nonzero) length
  have below : x.ratio.2 ≤ 10 ^ (Nat.toDigits 10 x.ratio.2).length := (lt_pow_length _).le
  unfold Reaches decimalRatio
  split
  next negative =>
    calc x.ratio.2 * 1 ≤ 10 ^ (Nat.toDigits 10 x.ratio.2).length := by rwa [Nat.mul_one]
      _ ≤ 10 ^ (places + power.natAbs) := Nat.pow_le_pow_right (by decide) (by omega)
      _ = 10 ^ places * 10 ^ power.natAbs := Nat.pow_add _ _ _
      _ ≤ x.ratio.1 * 10 ^ power.natAbs := Nat.mul_le_mul_right _ above
  next positive =>
    calc x.ratio.2 * (1 * 10 ^ power.natAbs)
        ≤ 10 ^ (Nat.toDigits 10 x.ratio.2).length * (1 * 10 ^ power.natAbs) := Nat.mul_le_mul_right _ below
      _ = 10 ^ ((Nat.toDigits 10 x.ratio.2).length + power.natAbs) := by rw [Nat.one_mul, Nat.pow_add]
      _ ≤ 10 ^ places := Nat.pow_le_pow_right (by decide) (by omega)
      _ ≤ x.ratio.1 * 1 := by rwa [Nat.mul_one]

/-- The shortest digits are those of a number that ten does not divide. -/
theorem exists_shortest {x : Binary64} (nonzero : x.mantissa ≠ 0) :
    ∃ m power, ¬ 10 ∣ m ∧ x.shortest = ⟨Nat.toDigits 10 m, power⟩ := by
  -- The first guess at the leading digit is one too high at most, and seventeen steps go down from it.
  have reaches : x.Reaches (leadingDigit x.ratio - (17 : Nat)) := by
    apply reaches_of_length nonzero
    unfold leadingDigit
    dsimp only
    split
    next => omega
    next => omega
  obtain ⟨m, zeros, undivided, written⟩ := exists_without_zeros (searchGrids_ne_zero reaches)
  have kept : x.shortest.digits = Nat.toDigits 10 m := by
    unfold shortest
    dsimp only
    rw [written, dropWhile_zeros undivided]
  exact ⟨m, x.shortest.exponent, undivided, by rw [← kept]⟩

/-! ### Where the point is put -/

theorem writes_below_one {digits : List Char} (each : AreDigits digits) (present : digits ≠ []) (zeros : Nat) :
    Writes (['0', '.'] ++ List.replicate zeros '0' ++ digits) (digitsValue digits)
      (-((zeros + digits.length : Nat) : Int)) := by
  intro negative sign signed
  have fraction : AreDigits (List.replicate zeros '0' ++ digits) :=
    List.forall_mem_append.mpr ⟨areDigits_zeros zeros, each⟩
  refine ⟨⟨negative, ['0'], some (List.replicate zeros '0' ++ digits), none⟩, rfl, ?_, ?_, 0, ?_, ?_⟩
  · have spelled := Spells.parts signed (areDigits_zeros 1) (.present fraction) .absent
    simpa using spelled
  · simp [isStrict, present]
  · have value := digitsValue_zeros_append (1 + zeros) digits
    rw [← List.replicate_append_replicate, List.append_assoc] at value
    simpa [coefficient] using value
  · simp [power, writtenExponent]

theorem writes_whole {digits : List Char} (leads : IsLeading digits) (zeros : Nat) :
    Writes (digits ++ List.replicate zeros '0' ++ ['.', '0']) (digitsValue digits) zeros := by
  intro negative sign signed
  obtain ⟨each, c, rest, rfl, solid⟩ := leads
  have whole : AreDigits (c :: rest ++ List.replicate zeros '0') :=
    List.forall_mem_append.mpr ⟨each, areDigits_zeros zeros⟩
  refine ⟨⟨negative, c :: rest ++ List.replicate zeros '0', some ['0'], none⟩, rfl, ?_, ?_, zeros + 1, ?_, ?_⟩
  · have spelled := Spells.parts signed whole (.present (areDigits_zeros 1)) .absent
    simpa using spelled
  · simp [isStrict, solid]
  · -- The digit behind the point counts too.
    have value := digitsValue_append_zeros (c :: rest) (zeros + 1)
    rw [List.replicate_succ', ← List.append_assoc] at value
    exact value
  · simp [power, writtenExponent]

theorem writes_inside {digits : List Char} (leads : IsLeading digits) {place : Nat}
    (inside : place + 1 < digits.length) :
    Writes (digits.take (place + 1) ++ '.' :: digits.drop (place + 1)) (digitsValue digits)
      ((place : Int) + 1 - digits.length) := by
  intro negative sign signed
  obtain ⟨each, c, rest, rfl, solid⟩ := leads
  have whole : AreDigits ((c :: rest).take (place + 1)) := fun d member => each d (List.mem_of_mem_take member)
  have fraction : AreDigits ((c :: rest).drop (place + 1)) := fun d member => each d (List.mem_of_mem_drop member)
  refine ⟨⟨negative, (c :: rest).take (place + 1), some ((c :: rest).drop (place + 1)), none⟩, rfl, ?_, ?_, 0,
    ?_, ?_⟩
  · have spelled := Spells.parts signed whole (.present fraction) .absent
    simpa using spelled
  · have some_left : rest.drop place ≠ [] := by
      simpa using inside
    simp [isStrict, solid, some_left]
  · simp [coefficient]
  · simp only [power, writtenExponent, Option.getD_some, List.length_drop]
    omega

/-- The sign and the digits of an exponent. -/
def shownExponent (leading : Int) : Bool × List Char :=
  (decide (leading < 0), Nat.toDigits 10 leading.natAbs)

theorem spellsExponent_shown (leading : Int) : SpellsExponent (some (shownExponent leading))
    ('e' :: ([if leading < 0 then '-' else '+'] ++ Nat.toDigits 10 leading.natAbs)) := by
  refine .present (.inl rfl) ?_ (fun _ => isDigit_of_mem_toDigits) Nat.toDigits_ne_nil
  by_cases down : leading < 0
  · simpa [down] using SpellsExponentSign.minus
  · simpa [down] using SpellsExponentSign.plus

@[simp] theorem writtenExponent_shown (negative : Bool) (whole : List Char) (fraction : Option (List Char))
    (leading : Int) : writtenExponent ⟨negative, whole, fraction, some (shownExponent leading)⟩ = leading := by
  by_cases down : leading < 0
  · simp only [writtenExponent, shownExponent, down, decide_true, digitsValue_toDigits]
    omega
  · simp only [writtenExponent, shownExponent, down, decide_false, digitsValue_toDigits]
    omega

theorem writes_scientific {digits : List Char} (leads : IsLeading digits) (leading : Int) :
    Writes (scientific digits leading) (digitsValue digits) (leading + 1 - digits.length) := by
  intro negative sign signed
  obtain ⟨each, c, rest, rfl, solid⟩ := leads
  have raised := spellsExponent_shown leading
  obtain ⟨digit, others⟩ := List.forall_mem_cons.mp each
  have first : AreDigits [c] := List.forall_mem_singleton.mpr digit
  -- A single digit is shown without a point.
  cases rest with
  | nil =>
    refine ⟨⟨negative, [c], none, some (shownExponent leading)⟩, rfl, ?_, ?_, 0, ?_, ?_⟩
    · have spelled := Spells.parts signed first .absent raised
      simpa [scientific] using spelled
    · simp [isStrict, solid]
    · simp [coefficient]
    · simp [power]
  | cons d rest =>
    refine ⟨⟨negative, [c], some (d :: rest), some (shownExponent leading)⟩, rfl, ?_, ?_, 0, ?_, ?_⟩
    · have spelled := Spells.parts signed first (.present others) raised
      simpa [scientific] using spelled
    · simp [isStrict, solid]
    · simp [coefficient]
    · simp only [power, writtenExponent_shown, Option.getD_some, List.length_cons]
      omega

/-- Wherever the point is put, the digits are scaled by the same power of ten. -/
theorem layOut_writes {digits : List Char} (leads : IsLeading digits) (leading : Int) :
    Writes (layOut digits leading) (digitsValue digits) (leading + 1 - digits.length) := by
  have present : digits ≠ [] := by
    obtain ⟨_, c, rest, rfl, _⟩ := leads
    exact List.cons_ne_nil _ _
  -- Four places for the point: in front of the digits, behind them, between them, or behind the first.
  unfold layOut
  split
  case isFalse => exact writes_scientific leads leading
  case isTrue near =>
    unfold positional
    split
    next negative =>
      have written := writes_below_one leads.each present (leading.natAbs - 1)
      have same : -((leading.natAbs - 1 + digits.length : Nat) : Int) = leading + 1 - digits.length := by omega
      rwa [same] at written
    next =>
      unfold pointAfter
      split
      next short =>
        have written := writes_whole leads (leading.natAbs + 1 - digits.length)
        have same : ((leading.natAbs + 1 - digits.length : Nat) : Int) = leading + 1 - digits.length := by omega
        rwa [same] at written
      next long =>
        have written := writes_inside leads (Nat.lt_of_not_le long)
        have same : (leading.natAbs : Int) + 1 - digits.length = leading + 1 - digits.length := by omega
        rwa [same] at written

/-! ### Texts -/

theorem spellsSign_of (negative : Bool) : SpellsSign negative (if negative then ['-'] else []) := by
  cases negative
  · exact .absent
  · exact .minus

theorem spelled_zero {x : Binary64} (zero : x.mantissa = 0) :
    Spells ⟨x.negative, ['0'], some ['0'], none⟩ x.text.toList := by
  have spelled := Spells.parts (spellsSign_of x.negative) (areDigits_zeros 1) (.present (areDigits_zeros 1)) .absent
  simpa [text, isZero, zero] using spelled

/-- The text of a double other than zero is a literal for its sign and its shortest digits. -/
theorem exists_spelled {x : Binary64} (nonzero : x.mantissa ≠ 0) :
    ∃ (literal : Decimal) (m : Nat) (power : Int), literal.Spells x.text.toList ∧ literal.isStrict ∧
      literal.negative = x.negative ∧ literal.IsScaled m power ∧
      ¬ 10 ∣ m ∧ x.shortest = ⟨Nat.toDigits 10 m, power⟩ := by
  obtain ⟨m, power, undivided, short⟩ := exists_shortest nonzero
  have leads := isLeading_toDigits (ne_zero_of_undivided undivided)
  have written := layOut_writes leads (power + (Nat.toDigits 10 m).length - 1)
  obtain ⟨literal, same_sign, spelled, strict, scaled⟩ := written x.negative _ (spellsSign_of x.negative)
  refine ⟨literal, m, power, ?_, strict, same_sign, ?_, undivided, short⟩
  · simpa [text, isZero, nonzero, short] using spelled
  · have same : power + (Nat.toDigits 10 m).length - 1 + 1 - (Nat.toDigits 10 m).length = power := by omega
    rwa [same, digitsValue_toDigits] at scaled

end Binary64

/-- The text of every number is a literal of the strict grammar. -/
theorem Number.spells_text (n : Number) :
    ∃ literal : Decimal, literal.Spells n.text.toList ∧ literal.isStrict := by
  cases n with
  | integer k => exact ⟨_, Decimal.scan_eq_iff.mp (scan_integerText k), Decimal.isStrict_toDigits _ _⟩
  | float x =>
    by_cases zero : x.mantissa = 0
    · exact ⟨_, Binary64.spelled_zero zero, rfl⟩
    · obtain ⟨literal, -, -, spelled, strict, -⟩ := Binary64.exists_spelled zero
      exact ⟨literal, spelled, strict⟩

end ItemMapper
