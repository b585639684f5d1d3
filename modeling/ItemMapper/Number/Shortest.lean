import ItemMapper.Number.Binary64

/-!
# Shortest decimal digits

Among the decimals that read back as a given double, the one with the fewest digits is chosen, and
of several such the nearest. A decimal reads back as the double exactly when it lies in the interval
around the double whose ends are halfway to the neighbours; the ends belong to it when the mantissa
is even.
-/

namespace ItemMapper.Binary64

/-- A positive decimal `digits * 10 ^ exponent`, the digits without a zero at either end. -/
structure Digits where
  digits : List Char
  exponent : Int
deriving DecidableEq, Repr

/-- Compares two ratios. -/
def ratioLess (a b : Nat × Nat) : Bool :=
  a.1 * b.2 < b.1 * a.2

/-- The ends of the interval around a nonzero double, as ratios. -/
def interval (x : Binary64) : (Nat × Nat) × (Nat × Nat) :=
  -- Below a power of two the doubles lie twice as dense, so the lower end is nearer there.
  let below := if x.mantissa = Nat.pow 2 52 ∧ leastExponent < x.exponent then 4 * x.mantissa - 1
    else 4 * x.mantissa - 2
  (scaleRatio below 1 (x.exponent - 2), scaleRatio (4 * x.mantissa + 2) 1 (x.exponent - 2))

/-- Whether a ratio reads back as the magnitude of a nonzero double. -/
def readsBack (x : Binary64) (value : Nat × Nat) : Bool :=
  let (low, high) := x.interval
  if x.mantissa % 2 = 0 then !ratioLess value low && !ratioLess high value
  else ratioLess low value && ratioLess value high

/-- The ratio `n * 10 ^ power`. -/
def decimalRatio (n : Nat) (power : Int) : Nat × Nat :=
  if power < 0 then (n, Nat.pow 10 power.natAbs) else (n * Nat.pow 10 power.natAbs, 1)

/-- The exponent of the leading decimal digit of a positive ratio. -/
def leadingDigit (value : Nat × Nat) : Int :=
  let guess : Int := ((Nat.toDigits 10 value.1).length : Int) - (Nat.toDigits 10 value.2).length
  if ratioLess value (decimalRatio 1 guess) then guess - 1 else guess

/-- The multiple of `10 ^ power` to choose for a double, if one of its two neighbours reads back. -/
def onGrid? (x : Binary64) (power : Int) : Option Nat :=
  let value := x.ratio
  let unit := decimalRatio 1 power
  let above := value.1 * unit.2
  let below := value.2 * unit.1
  let low := above / below
  -- Zero is no multiple to choose: no nonzero double is written as zero.
  let lowFits := 0 < low && x.readsBack (decimalRatio low power)
  let highFits := x.readsBack (decimalRatio (low + 1) power)
  match lowFits, highFits with
  | true, true => some (roundRatio above below)
  | true, false => some low
  | false, true => some (low + 1)
  | false, false => none

/-- Tries coarser to finer grids, starting at a power of ten, for a number of steps. -/
def searchGrids (x : Binary64) (power : Int) : Nat → Nat × Int
  | 0 => (roundRatio (x.ratio.1 * (decimalRatio 1 power).2) (x.ratio.2 * (decimalRatio 1 power).1),
      power)
  | steps + 1 =>
    match x.onGrid? power with
    | some n => (n, power)
    | none => searchGrids x (power - 1) steps

/-- The shortest digits of a nonzero double; seventeen always suffice. -/
def shortest (x : Binary64) : Digits :=
  let (n, power) := x.searchGrids (leadingDigit x.ratio) 17
  let written := Nat.toDigits 10 n
  let kept := (written.reverse.dropWhile (· == '0')).reverse
  ⟨kept, power + (written.length - kept.length : Nat)⟩

end ItemMapper.Binary64
