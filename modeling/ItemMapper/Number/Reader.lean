import ItemMapper.Number.Basic
import ItemMapper.Number.Decimal

/-!
# Reading numbers

Literals of the strict grammar become numbers. A literal without fraction and exponent is an integer
when it fits 64 bits; every other literal, `-0` among them, is a double. The double is computed from
the digits that fit an unsigned word and one scaling by a power of ten, so it can differ from the
nearest one in the last places.
-/

namespace ItemMapper

namespace Decimal

/-- The greatest unsigned word, 2^64 - 1, which bounds the collected digits. -/
def greatestWord : Nat := 18446744073709551615

/-- Appends digits while the number stays an unsigned word; gives it and the digits left. -/
def collect (significand : Nat) : List Char → Nat × List Char
  | [] => (significand, [])
  | c :: rest =>
    let next := 10 * significand + (c.toNat - '0'.toNat)
    if greatestWord < next then (significand, c :: rest) else collect next rest

/-- The collected digits and the power of ten to scale them by, the written exponent left out. -/
def significand (literal : Decimal) : Nat × Int :=
  let (whole, ignored) := collect 0 literal.whole
  let fraction := literal.fraction.getD []
  let (all, dropped) := collect whole fraction
  (all, (ignored.length : Int) - (fraction.length - dropped.length : Nat))

/-- The greatest exponent that is computed with, 2^31 - 1. -/
def greatestExponent : Int := 2147483647

/-- A power of ten as a double. -/
def tenTo (n : Nat) : Binary64 :=
  (Binary64.ofRatio false (Nat.pow 10 n) 1).getD (Binary64.zero false)

/-- The greatest power of ten used in one scaling. -/
def greatestStep : Nat := 308

/-- Divides by the greatest power of ten a number of times, or until zero is reached. -/
def shrink (x : Binary64) : Nat → Option Binary64
  | 0 => some x
  | steps + 1 =>
    if x.isZero then some x
    else (x.div (tenTo greatestStep)).bind fun smaller => shrink smaller steps

/-- Scales a double by a power of ten; upwards a single step must do. -/
def scale (x : Binary64) (exponent : Int) : Option Binary64 :=
  if exponent < 0 then
    let steps := (exponent.natAbs - 1) / greatestStep
    (shrink x steps).bind fun smaller => smaller.div (tenTo (exponent.natAbs - steps * greatestStep))
  else if exponent.natAbs ≤ greatestStep then x.mul (tenTo exponent.natAbs)
  else if x.isZero then some x
  else none

/-- The double of a literal, or nothing when it lies beyond the finite doubles. -/
def toFloat (literal : Decimal) : Option Binary64 :=
  let (digits, power) := literal.significand
  let sign (x : Binary64) : Binary64 := if literal.negative then x.neg else x
  match literal.exponent with
  | none => (Binary64.ofInt digits).bind fun x => (scale x power).map sign
  | some (down, written) =>
    let size : Int := digitsValue written
    if greatestExponent < size then
      -- Such an exponent decides alone: the number is zero or beyond the doubles.
      if digits = 0 ∨ down then some (sign (Binary64.zero false)) else none
    else
      let exponent := if down then max (power - size) (-greatestExponent - 1)
        else min (power + size) greatestExponent
      (Binary64.ofInt digits).bind fun x => (scale x exponent).map sign

/-- The number of a strict literal, or nothing when it lies beyond the numbers. -/
def toNumber (literal : Decimal) : Option Number :=
  match literal.fraction, literal.exponent with
  | none, none =>
    let n := digitsValue literal.whole
    if literal.negative then
      -- A negated zero is a double, since integers have no negative zero.
      if 0 < n ∧ Number.leastInteger ≤ -(n : Int) then some (.integer (-(n : Int)))
      else literal.toFloat.map .float
    else if n ≤ greatestWord then some (.integer n)
    else literal.toFloat.map .float
  | _, _ => literal.toFloat.map .float

end Decimal

def Number.read? (cs : List Char) : Option Number :=
  (Decimal.readStrict? cs).bind Decimal.toNumber

end ItemMapper
