import ItemMapper.Proofs.DoubleText
import ItemMapper.Proofs.WrittenFields
import ItemMapper.Proofs.WrittenNumbers

/-!
# Equal numbers in a set

Every element of a written set of numbers denotes a number (`Decimal.denoted?`), and no text is in the set
twice. But numbers are spelled in many ways, so one number is in the set twice if the value has it in two
spellings, and only then.

Main result: `numberSet_nodup_iff`. Integers, and doubles without a negative zero, have one spelling each
(`hasOneSpelling_of_integers`, `hasOneSpelling_of_doubles`).
-/

namespace ItemMapper

namespace Decimal

/-- The factor for a sign. -/
def signFactor (negative : Bool) : ℚ :=
  if negative then -1 else 1

/-- The number that a literal denotes. -/
def value (literal : Decimal) : ℚ :=
  signFactor literal.negative * (literal.coefficient * 10 ^ literal.power)

/-- The number that a text denotes, if it is a literal of the wide grammar. -/
def denoted? (text : String) : Option ℚ :=
  (readWide? text.toList).map value

/-! ### Numbers of literals -/

theorem value_of_isScaled {literal : Decimal} {n : Nat} {power : Int} (scaled : literal.IsScaled n power) :
    literal.value = signFactor literal.negative * (n * 10 ^ power) := by
  obtain ⟨zeros, digits, rfl⟩ := scaled
  have moved : (literal.coefficient : ℚ) * 10 ^ literal.power = n * 10 ^ (literal.power + zeros) := by
    rw [digits, zpow_add₀ (by norm_num), zpow_natCast]
    push_cast
    ring
  rw [value, moved]

/-- A number that ten does not divide is not also a number times ten. -/
theorem power_le_of_scaled_eq {m n : Nat} {p q : Int} (undivided : ¬ 10 ∣ n)
    (same : (m : ℚ) * 10 ^ p = n * 10 ^ q) : p ≤ q := by
  -- With a higher power on the left, one factor of ten could be moved into the number on the right.
  by_contra higher
  obtain ⟨gap, rfl⟩ : ∃ gap : Nat, p = q + (gap + 1 : Nat) := ⟨(p - q - 1).toNat, by omega⟩
  have unit : (10 : ℚ) ^ q ≠ 0 := zpow_ne_zero q (by norm_num)
  rw [zpow_add₀ (by norm_num), zpow_natCast] at same
  have without_unit : (m : ℚ) * 10 ^ (gap + 1) = n := by
    apply mul_right_cancel₀ unit
    rw [← same]
    ring
  have whole : m * 10 ^ (gap + 1) = n := by exact_mod_cast without_unit
  apply undivided
  rw [← whole, Nat.pow_succ]
  exact (Nat.dvd_mul_left 10 _).mul_left m

theorem scaled_inj {m n : Nat} {p q : Int} (m_undivided : ¬ 10 ∣ m) (n_undivided : ¬ 10 ∣ n)
    (same : (m : ℚ) * 10 ^ p = n * 10 ^ q) : m = n ∧ p = q := by
  obtain rfl : p = q :=
    le_antisymm (power_le_of_scaled_eq n_undivided same) (power_le_of_scaled_eq m_undivided same.symm)
  have unit : (10 : ℚ) ^ p ≠ 0 := zpow_ne_zero p (by norm_num)
  exact ⟨by exact_mod_cast mul_right_cancel₀ unit same, rfl⟩

theorem signFactor_mul_ne_zero (negative : Bool) {size : ℚ} (positive : 0 < size) :
    signFactor negative * size ≠ 0 := by
  cases negative <;> simp [signFactor, positive.ne']

theorem signed_inj {a b : Bool} {p q : ℚ} (p_positive : 0 < p) (q_positive : 0 < q)
    (same : signFactor a * p = signFactor b * q) : a = b ∧ p = q := by
  cases a <;> cases b <;> simp [signFactor] at same ⊢ <;> linarith

/-! ### Numbers of texts -/

theorem isWide_of_isStrict {literal : Decimal} (strict : literal.isStrict) : literal.isWide := by
  unfold isStrict at strict
  cases whole : literal.whole with
  | nil => simp [whole] at strict
  | cons c rest => simp [isWide, whole]

theorem denoted?_of_spells {literal : Decimal} {text : String} (spelled : literal.Spells text.toList)
    (strict : literal.isStrict) : denoted? text = some literal.value := by
  have scanned := scan_eq_iff.mpr spelled
  have wide := isWide_of_isStrict strict
  unfold denoted? readWide?
  split
  next rest plus =>
    -- No spelled literal starts with a plus sign.
    rw [plus] at spelled
    generalize found : '+' :: rest = cs at spelled
    cases spelled with
    | parts signed each pointed raised =>
      cases signed with
      | minus => cases found
      | absent => exact absurd (unsigned_front each pointed raised found.symm) (by decide)
  next => simp [scanned, wide]

theorem denoted?_text_isSome (n : Number) : (denoted? n.text).isSome := by
  obtain ⟨literal, spelled, strict⟩ := n.spells_text
  rw [denoted?_of_spells spelled strict]
  rfl

@[simp] theorem denoted?_integerText (n : Int) : denoted? (integerText n) = some (n : ℚ) := by
  rw [denoted?_of_spells (scan_eq_iff.mp (scan_integerText n)) (isStrict_toDigits _ _)]
  have size := digitsValue_toDigits n.natAbs
  simp only [value, coefficient, power, writtenExponent, Option.getD_none, List.append_nil, size]
  by_cases negative : n < 0
  · have restored : -((n.natAbs : Int) : ℚ) = n := by
      exact_mod_cast (by omega : -(n.natAbs : Int) = n)
    simpa [signFactor, negative] using restored
  · have restored : ((n.natAbs : Int) : ℚ) = n := by
      exact_mod_cast (by omega : (n.natAbs : Int) = n)
    simpa [signFactor, negative] using restored

theorem denoted?_zero {x : Binary64} (zero : x.mantissa = 0) : denoted? x.text = some 0 := by
  rw [denoted?_of_spells (Binary64.spelled_zero zero) rfl]
  simp [value, coefficient, digitsValue]

theorem exists_denoted {x : Binary64} (nonzero : x.mantissa ≠ 0) :
    ∃ (m : Nat) (power : Int), ¬ 10 ∣ m ∧ x.shortest = ⟨Nat.toDigits 10 m, power⟩ ∧
      0 < (m : ℚ) * 10 ^ power ∧
      denoted? x.text = some (signFactor x.negative * (m * 10 ^ power)) := by
  obtain ⟨literal, m, power, spelled, strict, same_sign, scaled, undivided, short⟩ :=
    Binary64.exists_spelled nonzero
  have positive : 0 < m := Nat.pos_of_ne_zero (ne_zero_of_undivided undivided)
  refine ⟨m, power, undivided, short, by positivity, ?_⟩
  rw [denoted?_of_spells spelled strict, value_of_isScaled scaled, same_sign]

/-- Doubles whose texts denote the same number have the same text, unless they are zeros of different signs. -/
theorem text_eq_of_denoted {x y : Binary64} (x_sign : x.mantissa = 0 → x.negative = false)
    (y_sign : y.mantissa = 0 → y.negative = false) (same : denoted? x.text = denoted? y.text) :
    x.text = y.text := by
  -- A zero differs from all other numbers; two of these show the same digits, for they are without zeros behind.
  by_cases x_zero : x.mantissa = 0 <;> by_cases y_zero : y.mantissa = 0
  · simp [Binary64.text, Binary64.isZero, x_zero, y_zero, x_sign x_zero, y_sign y_zero]
  · obtain ⟨n, q, -, -, positive, y_denotes⟩ := exists_denoted y_zero
    rw [denoted?_zero x_zero, y_denotes, Option.some.injEq] at same
    exact absurd same.symm (signFactor_mul_ne_zero y.negative positive)
  · obtain ⟨m, p, -, -, positive, x_denotes⟩ := exists_denoted x_zero
    rw [denoted?_zero y_zero, x_denotes, Option.some.injEq] at same
    exact absurd same (signFactor_mul_ne_zero x.negative positive)
  · obtain ⟨m, p, m_undivided, x_short, x_positive, x_denotes⟩ := exists_denoted x_zero
    obtain ⟨n, q, n_undivided, y_short, y_positive, y_denotes⟩ := exists_denoted y_zero
    rw [x_denotes, y_denotes, Option.some.injEq] at same
    obtain ⟨same_sign, same_size⟩ := signed_inj x_positive y_positive same
    obtain ⟨rfl, rfl⟩ := scaled_inj m_undivided n_undivided same_size
    simp [Binary64.text, Binary64.isZero, x_zero, y_zero, same_sign, x_short, y_short]

end Decimal

namespace Codec

open Decimal

/-! ### Sets of numbers -/

/-- Elements of a value that denote the same number are written with the same text. -/
def HasOneSpelling (value : Value) : Prop :=
  ∀ x ∈ elements value, ∀ y ∈ elements value, ∀ s t, toSetNumber x = .ok s → toSetNumber y = .ok t →
    denoted? s = denoted? t → s = t

theorem denoted?_isSome_of_toSetNumber {element : Value} {text : String} (made : toSetNumber element = .ok text) :
    (denoted? text).isSome := by
  rcases toSetNumber_eq_ok_iff.mp made with ⟨n, -, rfl⟩ | ⟨given, -, literal, rfl⟩
  · exact denoted?_text_isSome n
  · -- The text was found to be a literal of the wide grammar before it was taken.
    unfold isFiniteLiteral at literal
    rw [denoted?, Text.trimText, String.toList_ofList]
    split at literal
    next found => simp [found]
    next => cases literal

/-- A set has no number twice exactly if no number is spelled in two ways among the elements. -/
theorem nodup_denoted_iff {value : Value} {texts : List String} (made : toSet toSetNumber value = .ok texts) :
    (texts.map denoted?).Nodup ↔ HasOneSpelling value := by
  constructor
  case mp =>
    intro distinct x x_member y y_member s t s_made t_made same
    have s_member := (mem_toSet_iff made).mpr ⟨x, x_member, s_made⟩
    have t_member := (mem_toSet_iff made).mpr ⟨y, y_member, t_made⟩
    exact List.inj_on_of_nodup_map distinct s_member t_member same
  case mpr =>
    intro one_spelling
    -- The texts are different already, so only different spellings could bring a number twice.
    have texts_distinct : texts.Nodup := nodup_of_toSet made
    apply texts_distinct.map_on
    intro s s_member t t_member same
    obtain ⟨x, x_member, s_made⟩ := (mem_toSet_iff made).mp s_member
    obtain ⟨y, y_member, t_made⟩ := (mem_toSet_iff made).mp t_member
    exact one_spelling x x_member y y_member s t s_made t_made same

/-- Integers have one spelling each, as numbers and as texts in their decimal form. -/
theorem hasOneSpelling_of_integers {value : Value}
    (integers : ∀ x ∈ elements value, ∃ n, toSetNumber x = .ok (integerText n)) : HasOneSpelling value := by
  intro x x_member y y_member s t s_made t_made same
  obtain ⟨m, x_made⟩ := integers x x_member
  obtain ⟨n, y_made⟩ := integers y y_member
  obtain rfl := Except.ok.inj (x_made.symm.trans s_made)
  obtain rfl := Except.ok.inj (y_made.symm.trans t_made)
  have equal : m = n := by simpa using same
  rw [equal]

/-- Doubles have one spelling each if zero has no minus sign. -/
theorem hasOneSpelling_of_doubles {value : Value}
    (doubles : ∀ x ∈ elements value, ∃ d : Binary64, x = .number (.float d) ∧
      (d.mantissa = 0 → d.negative = false)) : HasOneSpelling value := by
  intro x x_member y y_member s t s_made t_made same
  obtain ⟨a, rfl, a_sign⟩ := doubles x x_member
  obtain ⟨b, rfl, b_sign⟩ := doubles y y_member
  cases s_made
  cases t_made
  exact text_eq_of_denoted a_sign b_sign same

/-- Every text of a written set denotes a number, and no two the same one iff no number has two spellings. -/
theorem numberSet_nodup_iff {gateway : Gateway} {path : String} {value : Value} {wire : WireValue}
    (written : writeAttribute gateway (some .numberSet) path value = .ok (some wire)) :
    ∃ texts, wire = .numberSet texts ∧ (∀ text ∈ texts, (denoted? text).isSome) ∧
      ((texts.map denoted?).Nodup ↔ HasOneSpelling value) := by
  cases isWrittenLeaf_of_writeAttribute written with
  | @numberSet texts made full =>
    refine ⟨texts, rfl, ?_, nodup_denoted_iff made⟩
    intro text member
    obtain ⟨element, -, element_made⟩ := (mem_toSet_iff made).mp member
    exact denoted?_isSome_of_toSetNumber element_made
  | natural free => cases free

/-- A number and its text, and a text with and without blanks around it. -/
theorem numberSet_nodup_iff_mixed :
    let value : Value := .list [.number (.integer 7), .string " -2.5e3 ", .string "7", .string "-2.5e3"]
    let wire : WireValue := .numberSet ["7", "-2.5e3"]
    writeAttribute ⟨none⟩ (some .numberSet) "ns" value = .ok (some wire) ∧
      ∃ texts, wire = .numberSet texts ∧ (∀ text ∈ texts, (denoted? text).isSome) ∧
        ((texts.map denoted?).Nodup ↔ HasOneSpelling value) := by
  intro value wire
  have written : writeAttribute ⟨none⟩ (some .numberSet) "ns" value = .ok (some wire) := rfl
  exact ⟨written, numberSet_nodup_iff written⟩

/-- The number one is in the set twice. -/
theorem numberSet_with_equal_numbers :
    writeAttribute ⟨none⟩ (some .numberSet) "ns" (.list [.number (.integer 1), .string "1.0"]) =
        .ok (some (.numberSet ["1", "1.0"])) ∧
      denoted? "1" = some 1 ∧ denoted? "1.0" = some 1 := by
  refine ⟨rfl, ?_, ?_⟩
  · decide +kernel
  · decide +kernel

end Codec

end ItemMapper
