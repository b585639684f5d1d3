import ItemMapper.Number.Shortest

/-!
# Numbers

A number is an integer of 64 bits, signed or unsigned, or a finite double. Its text is that of JSON.
-/

namespace ItemMapper

/-- An integer from -2^63 to 2^64 - 1, or a finite double. -/
inductive Number where
  | integer (value : Int)
  | float (value : Binary64)
deriving DecidableEq, Repr

namespace Number

/-- The least integer that is a number, -2^63. -/
def leastInteger : Int := -9223372036854775808

/-- The greatest integer that is a number, 2^64 - 1. -/
def greatestInteger : Int := 18446744073709551615

/-- The greatest integer of a signed word, 2^63 - 1. -/
def greatestSigned : Int := 9223372036854775807

/-- Brings an integer into the range of signed words. -/
def saturate (n : Int) : Int :=
  max leastInteger (min greatestSigned n)

def isZero : Number → Bool
  | .integer n => n == 0
  | .float x => x.isZero

/-- The integer part as a signed word; numbers beyond the words give the nearest one. -/
def toSigned : Number → Int
  | .integer n => saturate n
  | .float x => saturate x.truncate

end Number

/-- The decimal text of an integer. -/
def integerText (n : Int) : String :=
  let digits := String.ofList (Nat.toDigits 10 n.natAbs)
  if n < 0 then "-" ++ digits else digits

namespace Binary64

/-- Digits with a point, the leading one standing at a power of ten that is not negative. -/
def pointAfter (digits : List Char) (leading : Nat) : List Char :=
  if digits.length ≤ leading + 1 then
    digits ++ List.replicate (leading + 1 - digits.length) '0' ++ ['.', '0']
  else digits.take (leading + 1) ++ '.' :: digits.drop (leading + 1)

/-- Digits with a point, the leading one standing at a power of ten that may be negative. -/
def positional (digits : List Char) (leading : Int) : List Char :=
  if leading < 0 then ['0', '.'] ++ List.replicate (leading.natAbs - 1) '0' ++ digits
  else pointAfter digits leading.natAbs

/-- Digits with a point after the first and a signed power of ten. -/
def scientific (digits : List Char) (leading : Int) : List Char :=
  let mantissa := match digits with
    | [] => []
    | [d] => [d]
    | d :: rest => d :: '.' :: rest
  mantissa ++ ['e', if leading < 0 then '-' else '+'] ++ Nat.toDigits 10 leading.natAbs

/-- Digits with a point; positional when the leading one stands at 10^-5 to 10^15. -/
def layOut (digits : List Char) (leading : Int) : List Char :=
  if -5 ≤ leading ∧ leading ≤ 15 then positional digits leading else scientific digits leading

/-- The text of a double: its sign, and the shortest digits that read back. -/
def text (x : Binary64) : String :=
  let sign := if x.negative then ['-'] else []
  if x.isZero then String.ofList (sign ++ ['0', '.', '0'])
  else
    let short := x.shortest
    String.ofList (sign ++ layOut short.digits (short.exponent + short.digits.length - 1))

end Binary64

def Number.text : Number → String
  | .integer n => integerText n
  | .float x => x.text

end ItemMapper
