/-!
# Finite double-precision numbers

A finite double is a signed multiple of a power of two. Arithmetic is exact on the integers behind
it and rounds once, to the nearest double and at a tie to the one with an even mantissa.
-/

namespace ItemMapper

/--
The number `mantissa * 2 ^ exponent`, negated if `negative`. The values built here are canonical: the
mantissa has 53 bits, or fewer at the least exponent, -1074, and the zeros sit at that exponent.
-/
structure Binary64 where
  negative : Bool
  mantissa : Nat
  exponent : Int
deriving DecidableEq, Repr

namespace Binary64

/-- The least exponent, that of the subnormal numbers. -/
def leastExponent : Int := -1074

/-- The greatest exponent of a finite number. -/
def greatestExponent : Int := 971

/-- Zero with a sign. -/
def zero (negative : Bool) : Binary64 :=
  ⟨negative, 0, leastExponent⟩

/-- Whether the number is zero, of either sign. -/
def isZero (x : Binary64) : Bool :=
  x.mantissa == 0

/-- Negation, which changes the sign of zero too. -/
def neg (x : Binary64) : Binary64 :=
  { x with negative := !x.negative }

/-- The integer nearest to a ratio; the even one when two are equally near. -/
def roundRatio (numerator denominator : Nat) : Nat :=
  let quotient := numerator / denominator
  let twice := 2 * (numerator % denominator)
  if twice < denominator then quotient
  else if denominator < twice then quotient + 1
  else if quotient % 2 = 0 then quotient
  else quotient + 1

/-- The ratio `numerator / denominator` times `2 ^ shift`, as a ratio. -/
def scaleRatio (numerator denominator : Nat) (shift : Int) : Nat × Nat :=
  if shift < 0 then (numerator, denominator * Nat.pow 2 shift.natAbs)
  else (numerator * Nat.pow 2 shift.natAbs, denominator)

/-- The exponent of the leading bit of a positive ratio. -/
def leadingBit (numerator denominator : Nat) : Int :=
  let guess : Int := (Nat.log2 numerator : Int) - Nat.log2 denominator
  -- Scaled by the guess the ratio lies between 1/2 and 2.
  let (above, below) := scaleRatio numerator denominator (-guess)
  if above < below then guess - 1 else guess

/-- The double nearest to a ratio, or nothing when it lies beyond the finite ones. -/
def ofRatio (negative : Bool) (numerator denominator : Nat) : Option Binary64 :=
  if numerator = 0 then some (zero negative)
  else
    let exponent := max (leadingBit numerator denominator - 52) leastExponent
    let (above, below) := scaleRatio numerator denominator (-exponent)
    let mantissa := roundRatio above below
    let rounded : Binary64 :=
      -- Rounding up can carry into a 54th bit.
      if mantissa = Nat.pow 2 53 then ⟨negative, Nat.pow 2 52, exponent + 1⟩
      else ⟨negative, mantissa, exponent⟩
    if rounded.exponent ≤ greatestExponent then some rounded else none

/-- The magnitude of a double as a ratio. -/
def ratio (x : Binary64) : Nat × Nat :=
  scaleRatio x.mantissa 1 x.exponent

/-- The product, unless it lies beyond the finite doubles. -/
def mul (x y : Binary64) : Option Binary64 :=
  let (a, b) := x.ratio
  let (c, d) := y.ratio
  ofRatio (x.negative != y.negative) (a * c) (b * d)

/-- The quotient by a number other than zero, unless it lies beyond the finite doubles. -/
def div (x y : Binary64) : Option Binary64 :=
  let (a, b) := x.ratio
  let (c, d) := y.ratio
  ofRatio (x.negative != y.negative) (a * d) (b * c)

/-- The double nearest to an integer. -/
def ofInt (n : Int) : Option Binary64 :=
  ofRatio (n < 0) n.natAbs 1

/-- The integer part, towards zero. -/
def truncate (x : Binary64) : Int :=
  let (a, b) := x.ratio
  if x.negative then -((a / b : Nat) : Int) else ((a / b : Nat) : Int)

end Binary64

end ItemMapper
