import ItemMapper.Proofs.NumberGrammar
import Mathlib.Tactic.Ring

/-!
# Numbers within reach

The reader computes a double from the digits that fit an unsigned word and one scaling by a power of ten,
and gives up where the scaling leaves the finite doubles. It never does so up to a magnitude of 10^307
(`Decimal.toNumber_isSome`), which is short of the greatest double by less than a factor of eighteen.
-/

namespace ItemMapper

namespace Binary64

/-- The magnitude is at most a power of two. -/
def IsBelow (x : Binary64) (bits : Nat) : Prop :=
  x.ratio.1 ≤ 2 ^ bits * x.ratio.2

theorem scaleRatio_pos {a b : Nat} (positive : 0 < b) (shift : Int) : 0 < (scaleRatio a b shift).2 := by
  unfold scaleRatio
  split
  next => exact Nat.mul_pos positive (Nat.pow_pos (by decide))
  next => exact positive

theorem ratio_pos (x : Binary64) : 0 < x.ratio.2 :=
  scaleRatio_pos Nat.one_pos x.exponent

theorem leadingBit_le {a b bits : Nat} (some_number : a ≠ 0) (below : a ≤ 2 ^ bits * b) :
    leadingBit a b ≤ bits := by
  have guess : a.log2 < bits + b.log2 + 1 := by
    rw [Nat.log2_lt some_number]
    calc a ≤ 2 ^ bits * b := below
      _ < 2 ^ bits * 2 ^ (b.log2 + 1) := Nat.mul_lt_mul_of_pos_left Nat.lt_log2_self (Nat.pow_pos (by decide))
      _ = 2 ^ (bits + b.log2 + 1) := by rw [← Nat.pow_add, Nat.add_assoc]
  -- The leading bit is the guess or the bit below it.
  unfold leadingBit
  dsimp only
  split
  next => omega
  next => omega

theorem roundRatio_le {a b n : Nat} (positive : 0 < b) (below : a ≤ n * b) : roundRatio a b ≤ n := by
  have quotient : a / b ≤ n := Nat.div_le_of_le_mul (by rwa [Nat.mul_comm] at below)
  have parts : b * (a / b) + a % b = a := Nat.div_add_mod a b
  unfold roundRatio
  dsimp only
  by_cases whole : a / b = n
  · -- There is no remainder left to round up.
    have exact_ratio : a % b = 0 := by
      rw [whole, Nat.mul_comm] at parts
      omega
    rw [if_pos (by omega)]
    exact quotient
  · grind

/-- Scaling a ratio by a power of two scales the power that it is below. -/
theorem scaleRatio_le {a b bits scaled : Nat} {shift : Int} (below : a ≤ 2 ^ bits * b)
    (sum : (bits : Int) + shift = scaled) :
    (scaleRatio a b shift).1 ≤ 2 ^ scaled * (scaleRatio a b shift).2 := by
  unfold scaleRatio
  split
  next down =>
    have size : bits = scaled + shift.natAbs := by omega
    calc a ≤ 2 ^ bits * b := below
      _ = 2 ^ scaled * (b * 2 ^ shift.natAbs) := by rw [size, Nat.pow_add]; ring
  next up =>
    have size : scaled = bits + shift.natAbs := by omega
    calc a * 2 ^ shift.natAbs ≤ 2 ^ bits * b * 2 ^ shift.natAbs := Nat.mul_le_mul_right _ below
      _ = 2 ^ scaled * b := by rw [size, Nat.pow_add]; ring

theorem isBelow_of_mantissa {negative : Bool} {mantissa bits : Nat} {exponent : Int}
    (low : exponent ≤ bits) (fits : mantissa ≤ 2 ^ (bits - exponent).toNat) :
    IsBelow ⟨negative, mantissa, exponent⟩ bits := by
  have whole : mantissa ≤ 2 ^ (bits - exponent).toNat * 1 := by
    rw [Nat.mul_one]
    exact fits
  have sum : ((bits - exponent).toNat : Int) + exponent = bits := by omega
  exact scaleRatio_le whole sum

/-- A ratio up to a power of two is rounded to a finite double up to that power. -/
theorem ofRatio_isBelow {a b bits : Nat} (negative : Bool) (positive : 0 < b) (small : bits ≤ 1022)
    (below : a ≤ 2 ^ bits * b) : ∃ x, ofRatio negative a b = some x ∧ x.IsBelow bits := by
  by_cases zero : a = 0
  · refine ⟨Binary64.zero negative, by simp [ofRatio, zero], isBelow_of_mantissa ?_ (Nat.zero_le _)⟩
    simp only [leastExponent]
    omega
  have leading := leadingBit_le zero below
  generalize exponent_eq : max (leadingBit a b - 52) leastExponent = exponent
  have low : exponent ≤ bits := by
    simp only [leastExponent] at exponent_eq
    omega
  have high : exponent ≤ 970 := by
    simp only [leastExponent] at exponent_eq
    omega
  have mantissa : roundRatio (scaleRatio a b (-exponent)).1 (scaleRatio a b (-exponent)).2 ≤
      2 ^ (bits - exponent).toNat := by
    apply roundRatio_le (scaleRatio_pos positive _)
    apply scaleRatio_le below
    omega
  -- A mantissa that is rounded up to 54 bits moves to the next exponent.
  unfold ofRatio
  rw [if_neg zero, exponent_eq]
  dsimp only
  by_cases carried : roundRatio (scaleRatio a b (-exponent)).1 (scaleRatio a b (-exponent)).2 = Nat.pow 2 53
  · have bits_left : 53 ≤ (bits - exponent).toNat := by
      rw [carried] at mantissa
      exact (Nat.pow_le_pow_iff_right (by decide)).mp mantissa
    rw [if_pos carried, if_pos (by simp only [greatestExponent]; omega)]
    refine ⟨_, rfl, isBelow_of_mantissa (by omega) ?_⟩
    apply Nat.pow_le_pow_right (by decide)
    omega
  · rw [if_neg carried, if_pos (by simp only [greatestExponent]; omega)]
    exact ⟨_, rfl, isBelow_of_mantissa low mantissa⟩

/-! ### Doubles from one on -/

theorem scaleRatio_ge {a b bits scaled : Nat} {shift : Int} (above : 2 ^ bits * b ≤ a)
    (sum : (bits : Int) + shift = scaled) :
    2 ^ scaled * (scaleRatio a b shift).2 ≤ (scaleRatio a b shift).1 := by
  unfold scaleRatio
  split
  next down =>
    have size : bits = scaled + shift.natAbs := by omega
    calc 2 ^ scaled * (b * 2 ^ shift.natAbs) = 2 ^ bits * b := by rw [size, Nat.pow_add]; ring
      _ ≤ a := above
  next up =>
    have size : scaled = bits + shift.natAbs := by omega
    calc 2 ^ scaled * b = 2 ^ bits * b * 2 ^ shift.natAbs := by rw [size, Nat.pow_add]; ring
      _ ≤ a * 2 ^ shift.natAbs := Nat.mul_le_mul_right _ above

/-- The leading bit of a ratio from one on stands at a power of two that is not above the ratio. -/
theorem exists_leadingBit {a b : Nat} (positive : 0 < b) (large : b ≤ a) :
    ∃ bits : Nat, leadingBit a b = bits ∧ 2 ^ bits * b ≤ a := by
  have some_number : a ≠ 0 := by omega
  have order : b.log2 ≤ a.log2 := (Nat.le_log2 some_number).mpr
    ((Nat.log2_self_le positive.ne').trans large)
  obtain ⟨gap, sum⟩ := Nat.exists_eq_add_of_le order
  have guess : (a.log2 : Int) - b.log2 = gap := by omega
  unfold leadingBit
  rw [guess]
  dsimp only
  split
  next short =>
    cases gap with
    | zero => exact absurd large (by simpa [scaleRatio] using short)
    | succ gap =>
      refine ⟨gap, by omega, Nat.le_of_lt ?_⟩
      calc 2 ^ gap * b < 2 ^ gap * 2 ^ (b.log2 + 1) :=
            Nat.mul_lt_mul_of_pos_left Nat.lt_log2_self (Nat.pow_pos (by decide))
        _ = 2 ^ a.log2 := by rw [← Nat.pow_add, sum]; congr 1; omega
        _ ≤ a := Nat.log2_self_le some_number
  next long =>
    refine ⟨gap, rfl, ?_⟩
    unfold scaleRatio at long
    split at long
    next =>
      rw [Nat.mul_comm]
      simpa using long
    next flat =>
      obtain rfl : gap = 0 := by omega
      simpa using large

theorem le_roundRatio {a b n : Nat} (positive : 0 < b) (above : n * b ≤ a) : n ≤ roundRatio a b := by
  have quotient : n ≤ a / b := (Nat.le_div_iff_mul_le positive).mpr above
  unfold roundRatio
  dsimp only
  grind

theorem one_le_of_mantissa {negative : Bool} {mantissa : Nat} {exponent : Int}
    (full : 2 ^ 52 ≤ mantissa) (high : -52 ≤ exponent) :
    (ratio ⟨negative, mantissa, exponent⟩).2 ≤ (ratio ⟨negative, mantissa, exponent⟩).1 := by
  obtain ⟨bits, size⟩ := Int.eq_ofNat_of_zero_le (by omega : 0 ≤ 52 + exponent)
  have whole : 2 ^ 52 * 1 ≤ mantissa := full
  have scaled := scaleRatio_ge whole size
  calc (scaleRatio mantissa 1 exponent).2
      ≤ 2 ^ bits * (scaleRatio mantissa 1 exponent).2 := Nat.le_mul_of_pos_left _ (Nat.pow_pos (by decide))
    _ ≤ (scaleRatio mantissa 1 exponent).1 := scaled

/-- A ratio from one on is rounded to a double from one on. -/
theorem one_le_ofRatio {negative : Bool} {a b : Nat} {x : Binary64} (positive : 0 < b) (large : b ≤ a)
    (rounded : ofRatio negative a b = some x) : x.ratio.2 ≤ x.ratio.1 := by
  obtain ⟨bits, leading, above⟩ := exists_leadingBit positive large
  have some_number : a ≠ 0 := by omega
  -- From one on the exponent leaves the leading bit at the top of the mantissa.
  have exponent : max (leadingBit a b - 52) leastExponent = bits - 52 := by
    simp only [leastExponent]
    omega
  have full : 2 ^ 52 ≤ roundRatio (scaleRatio a b (-(bits - 52))).1 (scaleRatio a b (-(bits - 52))).2 := by
    apply le_roundRatio (scaleRatio_pos positive _)
    apply scaleRatio_ge above
    omega
  unfold ofRatio at rounded
  rw [if_neg some_number, exponent] at rounded
  dsimp only at rounded
  obtain ⟨-, made⟩ := Option.ite_none_right_eq_some.mp rounded
  split at made
  next =>
    cases made
    exact one_le_of_mantissa (Nat.le_refl _) (by omega)
  next =>
    cases made
    exact one_le_of_mantissa full (by omega)

/-! ### Products and quotients -/

theorem mul_isBelow {x y : Binary64} {bits more : Nat} (x_below : x.IsBelow bits)
    (y_below : y.IsBelow more) (small : bits + more ≤ 1022) :
    ∃ z, x.mul y = some z ∧ z.IsBelow (bits + more) := by
  have positive : 0 < x.ratio.2 * y.ratio.2 := Nat.mul_pos x.ratio_pos y.ratio_pos
  apply ofRatio_isBelow _ positive small
  calc x.ratio.1 * y.ratio.1
      ≤ 2 ^ bits * x.ratio.2 * (2 ^ more * y.ratio.2) := Nat.mul_le_mul x_below y_below
    _ = 2 ^ (bits + more) * (x.ratio.2 * y.ratio.2) := by rw [Nat.pow_add]; ring

/-- Dividing by what is at least one keeps a double below a power of two. -/
theorem div_isBelow {x y : Binary64} {bits : Nat} (x_below : x.IsBelow bits)
    (large : y.ratio.2 ≤ y.ratio.1) (small : bits ≤ 1022) :
    ∃ z, x.div y = some z ∧ z.IsBelow bits := by
  have positive : 0 < x.ratio.2 * y.ratio.1 := Nat.mul_pos x.ratio_pos (y.ratio_pos.trans_le large)
  apply ofRatio_isBelow _ positive small
  calc x.ratio.1 * y.ratio.2
      ≤ 2 ^ bits * x.ratio.2 * y.ratio.1 := Nat.mul_le_mul x_below large
    _ = 2 ^ bits * (x.ratio.2 * y.ratio.1) := Nat.mul_assoc _ _ _

theorem ofInt_isBelow {n bits : Nat} (small : bits ≤ 1022) (below : n ≤ 2 ^ bits) :
    ∃ x, ofInt n = some x ∧ x.IsBelow bits := by
  apply ofRatio_isBelow _ Nat.one_pos small
  rw [Int.natAbs_natCast, Nat.mul_one]
  exact below

end Binary64

namespace Decimal

open Binary64

/-! ### Scaling -/

/-- The power of ten up to which every literal is within reach. -/
def safePower : Nat := 307

theorem tenTo_isBelow {n bits : Nat} (small : bits ≤ 1022) (below : 10 ^ n ≤ 2 ^ bits) :
    ofRatio false (Nat.pow 10 n) 1 = some (tenTo n) ∧ (tenTo n).IsBelow bits := by
  have ratio : Nat.pow 10 n ≤ 2 ^ bits * 1 := by
    rw [Nat.mul_one]
    exact below
  obtain ⟨x, rounded, x_below⟩ := ofRatio_isBelow false Nat.one_pos small ratio
  rw [tenTo, rounded]
  exact ⟨rfl, x_below⟩

theorem one_le_tenTo {n : Nat} (step : n ≤ greatestStep) : (tenTo n).ratio.2 ≤ (tenTo n).ratio.1 := by
  rcases Nat.eq_or_lt_of_le step with rfl | less
  · -- The greatest step lies above 2^1022, so it is computed.
    decide +kernel
  have below : 10 ^ n ≤ 2 ^ 1022 := by
    calc 10 ^ n ≤ 10 ^ safePower := Nat.pow_le_pow_right (by decide) (Nat.le_of_lt_succ less)
      _ ≤ 2 ^ 1022 := by decide +kernel
  have large : 1 ≤ Nat.pow 10 n := Nat.pow_pos (by decide)
  exact one_le_ofRatio Nat.one_pos large (tenTo_isBelow (Nat.le_refl _) below).1

/-- Shrinking goes on to the end, since no step leaves the finite doubles. -/
theorem shrink_isBelow {x : Binary64} {bits : Nat} (small : bits ≤ 1022) (below : x.IsBelow bits)
    (steps : Nat) : ∃ y, shrink x steps = some y ∧ y.IsBelow bits := by
  induction steps generalizing x with
  | zero => exact ⟨x, rfl, below⟩
  | succ steps ih =>
    unfold shrink
    split
    next => exact ⟨x, rfl, below⟩
    next =>
      obtain ⟨smaller, divided, smaller_below⟩ := div_isBelow below (one_le_tenTo (Nat.le_refl _)) small
      obtain ⟨y, rest, y_below⟩ := ih smaller_below
      refine ⟨y, ?_, y_below⟩
      rw [divided, Option.bind_some, rest]

theorem scale_down {x : Binary64} {bits : Nat} {exponent : Int} (small : bits ≤ 1022)
    (below : x.IsBelow bits) (down : exponent < 0) : (scale x exponent).isSome := by
  have step : exponent.natAbs - (exponent.natAbs - 1) / greatestStep * greatestStep ≤ greatestStep := by
    simp only [greatestStep]
    omega
  obtain ⟨smaller, shrunk, smaller_below⟩ :=
    shrink_isBelow small below ((exponent.natAbs - 1) / greatestStep)
  obtain ⟨y, divided, -⟩ := div_isBelow smaller_below (one_le_tenTo step) small
  simp [scale, down, shrunk, divided]

theorem scale_zero {exponent : Int} (up : ¬exponent < 0) : (scale (zero false) exponent).isSome := by
  unfold scale
  rw [if_neg up]
  split
  next =>
    have none_left : (zero false).ratio.1 * (tenTo exponent.natAbs).ratio.1 = 0 := Nat.zero_mul _
    simp only [mul, ofRatio, none_left, if_true, Option.isSome_some]
  next => rfl

theorem scale_up {digits : Nat} {x : Binary64} {exponent : Int} (positive : digits ≠ 0)
    (up : ¬exponent < 0) (small : digits * 10 ^ exponent.natAbs ≤ 2 * 10 ^ safePower)
    (below : x.IsBelow (digits.log2 + 1)) : (scale x exponent).isSome := by
  have step : exponent.natAbs ≤ greatestStep := by
    have next (n : Nat) : 2 * 10 ^ n < 10 ^ (n + 1) := by
      have positive : 0 < 10 ^ n := Nat.pow_pos (by decide)
      omega
    have power : 10 ^ exponent.natAbs < 10 ^ (safePower + 1) := by
      calc 10 ^ exponent.natAbs ≤ digits * 10 ^ exponent.natAbs :=
            Nat.le_mul_of_pos_left _ (Nat.pos_of_ne_zero positive)
        _ ≤ 2 * 10 ^ safePower := small
        _ < 10 ^ (safePower + 1) := next safePower
    have less : exponent.natAbs < safePower + 1 := (pow_lt_pow_iff_right₀ (by decide)).mp power
    exact Nat.le_of_lt less
  -- The leading bits of both factors add up to at most that of the product.
  have bits : digits.log2 + (10 ^ exponent.natAbs).log2 < 1021 := by
    have power : 2 ^ (digits.log2 + (10 ^ exponent.natAbs).log2) < 2 ^ 1021 := by
      calc 2 ^ (digits.log2 + (10 ^ exponent.natAbs).log2)
          = 2 ^ digits.log2 * 2 ^ (10 ^ exponent.natAbs).log2 := Nat.pow_add _ _ _
        _ ≤ digits * 10 ^ exponent.natAbs :=
            Nat.mul_le_mul (Nat.log2_self_le positive) (Nat.log2_self_le (Nat.pow_pos (by decide)).ne')
        _ ≤ 2 * 10 ^ safePower := small
        _ < 2 ^ 1021 := by decide +kernel
    exact (pow_lt_pow_iff_right₀ Nat.one_lt_two).mp power
  have ten_below := (tenTo_isBelow (by omega) (Nat.le_of_lt (Nat.lt_log2_self (n := 10 ^ exponent.natAbs)))).2
  obtain ⟨y, product, -⟩ := mul_isBelow below ten_below (by omega)
  simp [scale, up, step, product]

/-- Collected digits are scaled to a finite double where the exact value is at most 2 * 10^307. -/
theorem scale_isSome {digits : Nat} {exponent : Int} (word : digits ≤ greatestWord)
    (small : 0 ≤ exponent → digits * 10 ^ exponent.natAbs ≤ 2 * 10 ^ safePower) :
    ((ofInt digits).bind fun x => scale x exponent).isSome := by
  have leading : digits.log2 + 1 ≤ 64 := by
    -- Zero has no leading bit, but counts as if it had one.
    by_cases zero : digits = 0
    · rw [zero]
      decide
    · have fits : digits < 2 ^ 64 := Nat.lt_succ_of_le word
      exact (Nat.log2_lt zero).mpr fits
  obtain ⟨x, converted, below⟩ :=
    ofInt_isBelow (by omega : digits.log2 + 1 ≤ 1022) (Nat.le_of_lt Nat.lt_log2_self)
  rw [converted, Option.bind_some]
  by_cases down : exponent < 0
  · exact scale_down (by omega) below down
  by_cases zero : digits = 0
  · subst zero
    obtain rfl : Binary64.zero false = x := Option.some.inj converted
    exact scale_zero down
  · exact scale_up zero down (small (by omega)) below

/-! ### Collected digits -/

/-- What is collected behind digits that fit a word: digits from the front of those given. -/
theorem exists_collected {front : List Char} (digits : List Char) (fits : digitsValue front ≤ greatestWord) :
    ∃ taken rest, digits = taken ++ rest ∧
      collect (digitsValue front) digits = (digitsValue (front ++ taken), rest) ∧
      digitsValue (front ++ taken) ≤ greatestWord ∧
      ∀ c ∈ rest.head?, greatestWord < 10 * digitsValue (front ++ taken) + (c.toNat - '0'.toNat) := by
  induction digits generalizing front with
  | nil => exact ⟨[], [], rfl, by rw [List.append_nil]; rfl, by rwa [List.append_nil], nofun⟩
  | cons c digits ih =>
    unfold collect
    dsimp only
    rw [← digitsValue_concat]
    split
    next beyond =>
      rw [digitsValue_concat] at beyond
      refine ⟨[], c :: digits, rfl, by rw [List.append_nil], by rwa [List.append_nil], ?_⟩
      rintro _ ⟨⟩
      rwa [List.append_nil]
    next within =>
      obtain ⟨taken, rest, rfl, collected, word, stops⟩ := ih (Nat.not_lt.mp within)
      rw [List.append_assoc, List.singleton_append] at collected word stops
      exact ⟨c :: taken, rest, rfl, collected, word, stops⟩

/--
Collected digits in their place exceed all digits by less than a factor of two. They exceed them only when
a digit behind the point still fits after one in front of it did not.
-/
theorem collected_le {front ignored more dropped : List Char} (ignored_digits : AreDigits ignored)
    (more_digits : AreDigits more)
    (stops : ∀ c ∈ ignored.head?, greatestWord < 10 * digitsValue front + (c.toNat - '0'.toNat)) :
    digitsValue (front ++ more) * 10 ^ (ignored.length + dropped.length) ≤
      2 * digitsValue (front ++ ignored ++ (more ++ dropped)) := by
  have all : digitsValue (front ++ ignored ++ (more ++ dropped)) =
      digitsValue front * 10 ^ (ignored.length + more.length + dropped.length) +
        digitsValue (ignored ++ more ++ dropped) := by
    rw [List.append_assoc, digitsValue_append]
    simp only [List.length_append, Nat.add_assoc, List.append_assoc]
  have parts : digitsValue (front ++ more) * 10 ^ (ignored.length + dropped.length) =
      digitsValue front * 10 ^ (ignored.length + more.length + dropped.length) +
        digitsValue more * 10 ^ (ignored.length + dropped.length) := by
    rw [digitsValue_append]
    ring
  have added : digitsValue more * 10 ^ (ignored.length + dropped.length) ≤
      digitsValue front * 10 ^ (ignored.length + more.length + dropped.length) +
        digitsValue (ignored ++ more ++ dropped) := by
    cases ignored with
    | nil =>
      have behind := digitsValue_append more dropped
      simp only [List.nil_append, List.length_nil, Nat.zero_add]
      omega
    | cons c others =>
      -- A digit that did not fit had others in front of it, and these outweigh all behind it.
      have small := digit_le_nine (ignored_digits c List.mem_cons_self)
      have beyond := stops c rfl
      have positive : 0 < digitsValue front := by
        simp only [greatestWord] at beyond
        omega
      calc digitsValue more * 10 ^ ((c :: others).length + dropped.length)
          ≤ 10 ^ more.length * 10 ^ ((c :: others).length + dropped.length) :=
            Nat.mul_le_mul_right _ (Nat.le_of_lt (digitsValue_lt more_digits))
        _ = 10 ^ ((c :: others).length + more.length + dropped.length) := by
            rw [← Nat.pow_add]
            congr 1
            omega
        _ ≤ digitsValue front * 10 ^ ((c :: others).length + more.length + dropped.length) :=
            Nat.le_mul_of_pos_left _ positive
        _ ≤ _ := Nat.le_add_right _ _
  omega

/-- What is collected of a literal fits a word, and has a place in the literal. -/
theorem significand_bounds {literal : Decimal} (whole : AreDigits literal.whole)
    (fraction : AreDigits (literal.fraction.getD [])) :
    literal.significand.1 ≤ greatestWord ∧
      ∃ places : Nat, literal.significand.2 + (literal.fraction.getD []).length = places ∧
        literal.significand.1 * 10 ^ places ≤ 2 * literal.coefficient := by
  have none_yet : digitsValue [] ≤ greatestWord := by decide
  obtain ⟨front, ignored, whole_parts, collected, word, stops⟩ := exists_collected literal.whole none_yet
  rw [List.nil_append] at collected word stops
  obtain ⟨more, dropped, fraction_parts, all_collected, all_word, -⟩ :=
    exists_collected (literal.fraction.getD []) word
  have significand : literal.significand = (digitsValue (front ++ more),
      (ignored.length : Int) - ((literal.fraction.getD []).length - dropped.length : Nat)) := by
    unfold significand
    rw [show collect 0 literal.whole = (digitsValue front, ignored) from collected]
    dsimp only
    rw [all_collected]
  rw [significand]
  refine ⟨all_word, ignored.length + dropped.length, ?_, ?_⟩
  · rw [fraction_parts, List.length_append]
    dsimp only
    omega
  · unfold coefficient
    rw [fraction_parts, whole_parts]
    rw [whole_parts] at whole
    rw [fraction_parts] at fraction
    exact collected_le (List.forall_mem_append.mp whole).2 (List.forall_mem_append.mp fraction).1 stops

/-! ### Literals up to 10^307 -/

/-- A literal of a magnitude up to 10^307, with an exponent that is computed with. -/
structure IsModest (literal : Decimal) : Prop where
  magnitude : literal.coefficient * 10 ^ literal.power.toNat ≤ 10 ^ safePower * 10 ^ (-literal.power).toNat
  exponent : literal.writtenExponent ≤ greatestExponent

theorem scaled_le {digits places : Nat} {literal : Decimal} {exponent : Int} (modest : literal.IsModest)
    (collected : digits * 10 ^ places ≤ 2 * literal.coefficient)
    (place : exponent ≤ places + literal.power) (up : 0 ≤ exponent) :
    digits * 10 ^ exponent.natAbs ≤ 2 * 10 ^ safePower := by
  have magnitude := modest.magnitude
  have order : exponent.natAbs + (-literal.power).toNat ≤ places + literal.power.toNat := by omega
  have scaled : digits * 10 ^ exponent.natAbs * 10 ^ (-literal.power).toNat ≤
      2 * 10 ^ safePower * 10 ^ (-literal.power).toNat := by
    calc digits * 10 ^ exponent.natAbs * 10 ^ (-literal.power).toNat
        = digits * 10 ^ (exponent.natAbs + (-literal.power).toNat) := by rw [Nat.pow_add]; ring
      _ ≤ digits * 10 ^ (places + literal.power.toNat) :=
          Nat.mul_le_mul_left _ (Nat.pow_le_pow_right (by decide) order)
      _ = digits * 10 ^ places * 10 ^ literal.power.toNat := by rw [Nat.pow_add]; ring
      _ ≤ 2 * literal.coefficient * 10 ^ literal.power.toNat := Nat.mul_le_mul_right _ collected
      _ = 2 * (literal.coefficient * 10 ^ literal.power.toNat) := Nat.mul_assoc _ _ _
      _ ≤ 2 * (10 ^ safePower * 10 ^ (-literal.power).toNat) := Nat.mul_le_mul_left _ magnitude
      _ = 2 * 10 ^ safePower * 10 ^ (-literal.power).toNat := (Nat.mul_assoc _ _ _).symm
  exact Nat.le_of_mul_le_mul_right scaled (Nat.pow_pos (by decide))

theorem toFloat_isSome {literal : Decimal} (whole : AreDigits literal.whole)
    (fraction : AreDigits (literal.fraction.getD [])) (modest : literal.IsModest) :
    literal.toFloat.isSome := by
  obtain ⟨word, places, place, collected⟩ := significand_bounds whole fraction
  have scaled {exponent : Int} (sign : Binary64 → Binary64)
      (least : 0 ≤ exponent → exponent ≤ literal.significand.2 + literal.writtenExponent) :
      ((ofInt literal.significand.1).bind fun x => (scale x exponent).map sign).isSome := by
    have signed : ((ofInt literal.significand.1).bind fun x => (scale x exponent).map sign) =
        ((ofInt literal.significand.1).bind fun x => scale x exponent).map sign := Option.map_bind.symm
    rw [signed, Option.isSome_map]
    apply scale_isSome word
    intro up
    have place_least := least up
    apply scaled_le modest collected _ up
    unfold power
    omega
  have exponent := modest.exponent
  unfold toFloat
  dsimp only
  cases written : literal.exponent with
  | none =>
    have size : literal.writtenExponent = 0 := by simp [writtenExponent, written]
    apply scaled
    omega
  | some parts =>
    obtain ⟨down, digits⟩ := parts
    dsimp only
    cases down with
    | true =>
      have size : literal.writtenExponent = -(digitsValue digits : Int) := by simp [writtenExponent, written]
      split
      next => simp
      next =>
        -- Where the sum is cut off at its least value, it stays negative.
        apply scaled
        simp only [greatestExponent, if_true]
        omega
    | false =>
      have size : literal.writtenExponent = digitsValue digits := by simp [writtenExponent, written]
      rw [size] at exponent
      rw [if_neg (by omega)]
      -- Cutting off the sum at its greatest value makes it smaller only.
      apply scaled
      simp only [Bool.false_eq_true, if_false]
      omega

/-- A literal up to 10^307 is read as a number. -/
theorem toNumber_isSome {literal : Decimal} (whole : AreDigits literal.whole)
    (fraction : AreDigits (literal.fraction.getD [])) (modest : literal.IsModest) :
    literal.toNumber.isSome := by
  have float : (literal.toFloat.map Number.float).isSome := by
    rw [Option.isSome_map]
    exact toFloat_isSome whole fraction modest
  unfold toNumber
  grind

end Decimal

end ItemMapper
