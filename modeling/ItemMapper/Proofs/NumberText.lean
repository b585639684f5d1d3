import ItemMapper.Codec.Read
import ItemMapper.Proofs.Trimming
import Mathlib.Data.List.Induction
import Mathlib.Tactic.Ring

/-!
# Reading back integers

The decimal text of an integer consists of digits after an optional sign, so there is nothing to trim
from it, and the strict grammar takes it whole. An integer that is a number is therefore read back from
its text (`readNumber_integerText`), and different integers have different texts.
-/

namespace ItemMapper

/-! ### Digits -/

theorem Decimal.isDigit_bounds {c : Char} (digit : c.isDigit) : 48 ≤ c.toNat ∧ c.toNat ≤ 57 := by
  simpa [Char.isDigit, UInt32.le_iff_toNat_le] using digit

namespace Text

theorem isBlank_of_isDigit {c : Char} (digit : c.isDigit) : isBlank c = false := by
  apply not_isBlank_of_isAlphanum
  rw [Char.isAlphanum, digit, Bool.or_true]

end Text

namespace Decimal

/-- A run of decimal digits, which may be empty. -/
def AreDigits (cs : List Char) : Prop :=
  ∀ c ∈ cs, c.isDigit

/-- What follows a run of digits starts with something else. -/
def StopsDigits (rest : List Char) : Prop :=
  ∀ c, rest.head? = some c → c.isDigit = false

theorem takeWhile_digits {digits rest : List Char} (each : AreDigits digits) (stops : StopsDigits rest) :
    (digits ++ rest).takeWhile Char.isDigit = digits := by
  rw [List.takeWhile_append_of_pos each]
  cases rest with
  | nil => simp
  | cons c rest => simp [stops c rfl]

theorem dropWhile_digits {digits rest : List Char} (each : AreDigits digits) (stops : StopsDigits rest) :
    (digits ++ rest).dropWhile Char.isDigit = rest := by
  rw [List.dropWhile_append_of_pos each]
  cases rest with
  | nil => rfl
  | cons c rest => simp [stops c rfl]

theorem areDigits_takeWhile (cs : List Char) : AreDigits (cs.takeWhile Char.isDigit) :=
  fun _ => List.mem_takeWhile_imp

theorem digitsValue_toDigits (n : Nat) : digitsValue (Nat.toDigits 10 n) = n :=
  Nat.ofDigitChars_ten_toDigits

theorem isDigit_of_mem_toDigits {n : Nat} {c : Char} (member : c ∈ Nat.toDigits 10 n) : c.isDigit :=
  Nat.isDigit_of_mem_toDigits (by decide) (by decide) member

theorem takeWhile_isDigit_toDigits (n : Nat) :
    (Nat.toDigits 10 n).takeWhile Char.isDigit = Nat.toDigits 10 n :=
  List.takeWhile_eq_self_iff.mpr fun _ => isDigit_of_mem_toDigits

theorem dropWhile_isDigit_toDigits (n : Nat) : (Nat.toDigits 10 n).dropWhile Char.isDigit = [] :=
  List.dropWhile_eq_nil_iff.mpr fun _ => isDigit_of_mem_toDigits

theorem digitsValue_concat (front : List Char) (c : Char) :
    digitsValue (front ++ [c]) = 10 * digitsValue front + (c.toNat - '0'.toNat) := by
  simp [digitsValue, List.foldl_append]

theorem digitsValue_append (front digits : List Char) :
    digitsValue (front ++ digits) = digitsValue front * 10 ^ digits.length + digitsValue digits := by
  induction digits using List.reverseRecOn with
  | nil => simp [digitsValue]
  | append_singleton digits c ih =>
    rw [← List.append_assoc, digitsValue_concat, ih, digitsValue_concat, List.length_append,
      List.length_singleton, Nat.pow_succ]
    ring

theorem digitsValue_cons (c : Char) (digits : List Char) :
    digitsValue (c :: digits) = (c.toNat - '0'.toNat) * 10 ^ digits.length + digitsValue digits := by
  have split := digitsValue_append [c] digits
  have single : digitsValue [c] = c.toNat - '0'.toNat := by simp [digitsValue]
  rwa [List.singleton_append, single] at split

theorem digit_le_nine {c : Char} (digit : c.isDigit) : c.toNat - '0'.toNat ≤ 9 := by
  have bounds := isDigit_bounds digit
  have zero : '0'.toNat = 48 := rfl
  omega

/-- Digits denote less than a power of ten with as many zeros. -/
theorem digitsValue_lt {digits : List Char} (each : AreDigits digits) :
    digitsValue digits < 10 ^ digits.length := by
  induction digits using List.reverseRecOn with
  | nil => decide
  | append_singleton front c ih =>
    obtain ⟨front_digits, last⟩ := List.forall_mem_append.mp each
    have front_small := ih front_digits
    have last_small := digit_le_nine (last c List.mem_cons_self)
    rw [digitsValue_concat, List.length_append, List.length_singleton, Nat.pow_succ]
    omega

theorem areDigits_zeros (n : Nat) : AreDigits (List.replicate n '0') := by
  intro c member
  rw [List.eq_of_mem_replicate member]
  decide

@[simp] theorem digitsValue_zeros (n : Nat) : digitsValue (List.replicate n '0') = 0 := by
  induction n with
  | zero => rfl
  | succ n ih =>
    rw [List.replicate_succ', digitsValue_concat, ih]
    rfl

theorem digitsValue_zeros_append (n : Nat) (digits : List Char) :
    digitsValue (List.replicate n '0' ++ digits) = digitsValue digits := by
  rw [digitsValue_append, digitsValue_zeros, Nat.zero_mul, Nat.zero_add]

theorem digitsValue_append_zeros (digits : List Char) (n : Nat) :
    digitsValue (digits ++ List.replicate n '0') = digitsValue digits * 10 ^ n := by
  rw [digitsValue_append, digitsValue_zeros, List.length_replicate, Nat.add_zero]

/-- Only zero is written with a zero in front. -/
theorem toDigits_eq_zero_cons {n : Nat} {rest : List Char} (written : Nat.toDigits 10 n = '0' :: rest) :
    rest = [] := by
  induction n using Nat.strongRecOn generalizing rest with
  | ind n ih =>
    rw [Nat.toDigits_eq_if (by decide)] at written
    split at written
    next small =>
      exact ((List.cons.inj written).2).symm
    next large =>
      cases front : Nat.toDigits 10 (n / 10) with
      | nil => exact absurd front Nat.toDigits_ne_nil
      | cons c others =>
        have first : c = '0' := by
          rw [front] at written
          exact (List.cons.inj written).1
        have alone := ih (n / 10) (by omega) (first ▸ front)
        -- a single zero in front of the last digit would make the number small
        have value := digitsValue_toDigits (n / 10)
        rw [front, first, alone] at value
        have zero : n / 10 = 0 := value.symm
        omega

theorem scanUnsigned_toDigits (negative : Bool) (n : Nat) :
    scanUnsigned negative (Nat.toDigits 10 n) = some (⟨negative, Nat.toDigits 10 n, none, none⟩, []) := by
  simp [scanUnsigned, takeWhile_isDigit_toDigits, dropWhile_isDigit_toDigits]

theorem isStrict_toDigits (negative : Bool) (n : Nat) :
    isStrict ⟨negative, Nat.toDigits 10 n, none, none⟩ := by
  cases written : Nat.toDigits 10 n with
  | nil => exact absurd written Nat.toDigits_ne_nil
  | cons c rest =>
    by_cases zero : c = '0'
    · have alone := toDigits_eq_zero_cons (zero ▸ written)
      simp [isStrict, zero, alone]
    · simp [isStrict, zero]

end Decimal

/-! ### Integers -/

/-- The integers that are numbers: those of a signed or of an unsigned word. -/
def Number.IsWord (n : Int) : Prop :=
  leastInteger ≤ n ∧ n ≤ greatestInteger

instance (n : Int) : Decidable (Number.IsWord n) :=
  inferInstanceAs (Decidable (_ ∧ _))

/-- The characters of the text of an integer. -/
theorem toList_integerText (n : Int) :
    (integerText n).toList = (if n < 0 then ['-'] else []) ++ Nat.toDigits 10 n.natAbs := by
  unfold integerText
  split <;> simp

theorem not_isBlank_integerText {n : Int} {c : Char} (member : c ∈ (integerText n).toList) :
    Text.isBlank c = false := by
  rw [toList_integerText] at member
  rcases List.mem_append.mp member with sign | digit
  · split at sign
    · rw [List.mem_singleton.mp sign]
      decide
    · exact absurd sign List.not_mem_nil
  · exact Text.isBlank_of_isDigit (Decimal.isDigit_of_mem_toDigits digit)

theorem scan_integerText (n : Int) :
    Decimal.scan (integerText n).toList =
      some (⟨decide (n < 0), Nat.toDigits 10 n.natAbs, none, none⟩, []) := by
  rw [toList_integerText]
  by_cases negative : n < 0
  · simp [Decimal.scan, negative, Decimal.scanUnsigned_toDigits]
  · have scanned := Decimal.scanUnsigned_toDigits false n.natAbs
    -- Without a sign the text starts with a digit, which is no sign.
    cases written : Nat.toDigits 10 n.natAbs with
    | nil => exact absurd written Nat.toDigits_ne_nil
    | cons c rest =>
      have digit : c.isDigit := Decimal.isDigit_of_mem_toDigits (written ▸ List.mem_cons_self)
      have unsigned : c ≠ '-' := by
        rintro rfl
        exact absurd digit (by decide)
      rw [written] at scanned
      simp [Decimal.scan, negative, unsigned, scanned]

theorem read?_integerText {n : Int} (word : Number.IsWord n) :
    Number.read? (integerText n).toList = some (.integer n) := by
  have strict : Decimal.readStrict? (integerText n).toList =
      some ⟨decide (n < 0), Nat.toDigits 10 n.natAbs, none, none⟩ := by
    simp [Decimal.readStrict?, scan_integerText, Decimal.isStrict_toDigits]
  have value := Decimal.digitsValue_toDigits n.natAbs
  -- The two bounds of a word are the bounds that the reader has for the two signs.
  simp only [Number.IsWord, Number.leastInteger, Number.greatestInteger] at word
  rw [Number.read?, strict, Option.bind_some, Decimal.toNumber]
  by_cases negative : n < 0
  · have small : 0 < n.natAbs ∧ Number.leastInteger ≤ n := by
      rw [Number.leastInteger]
      omega
    have restored : -(n.natAbs : Int) = n := by omega
    simp only [negative, decide_true, value, small, if_true, and_self, restored]
  · have small : n.natAbs ≤ Decimal.greatestWord := by
      rw [Decimal.greatestWord]
      omega
    have restored : (n.natAbs : Int) = n := by omega
    simp [negative, value, small, restored]

/-- An integer that is a number is read back from its text. -/
theorem Codec.readNumber_integerText {n : Int} (word : Number.IsWord n) (path : String) :
    readNumber path (integerText n) = .ok (.integer n) := by
  have solid := Text.trim_eq_self fun _ => not_isBlank_integerText (n := n)
  rw [readNumber, solid, read?_integerText word]

/-- Different integers have different texts. -/
theorem integerText_injective : Function.Injective integerText := by
  intro m n same
  have scanned := scan_integerText m
  rw [same, scan_integerText n] at scanned
  simp only [Option.some.injEq, Prod.mk.injEq, Decimal.mk.injEq, and_true,
    decide_eq_decide] at scanned
  have size := congrArg Decimal.digitsValue scanned.2
  rw [Decimal.digitsValue_toDigits, Decimal.digitsValue_toDigits] at size
  have sign := scanned.1
  omega

end ItemMapper
