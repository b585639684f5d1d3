import ItemMapper.Number.Binary64

/-!
# Decimal literals

Decimal literals as they are written, the two grammars they are read by, and the exact number a
literal denotes.
-/

namespace ItemMapper

/-- A decimal literal: digits, a fraction after a point, and a power of ten, each as written. -/
structure Decimal where
  negative : Bool
  whole : List Char
  fraction : Option (List Char)
  exponent : Option (Bool × List Char)
deriving DecidableEq, Repr

namespace Decimal

/-- The number that decimal digits denote. -/
def digitsValue (digits : List Char) : Nat :=
  digits.foldl (fun n c => 10 * n + (c.toNat - '0'.toNat)) 0

/-- Reads an exponent after its letter: a sign and at least one digit. -/
def scanExponent (cs : List Char) : Option ((Bool × List Char) × List Char) :=
  let (negative, rest) := match cs with
    | '-' :: rest => (true, rest)
    | '+' :: rest => (false, rest)
    | rest => (false, rest)
  let digits := rest.takeWhile Char.isDigit
  if digits.isEmpty then none else some ((negative, digits), rest.dropWhile Char.isDigit)

/-- Reads the longest run that looks like an unsigned literal, and gives what follows it. -/
def scanUnsigned (negative : Bool) (cs : List Char) : Option (Decimal × List Char) :=
  let whole := cs.takeWhile Char.isDigit
  let (fraction, rest) := match cs.dropWhile Char.isDigit with
    | '.' :: rest => (some (rest.takeWhile Char.isDigit), rest.dropWhile Char.isDigit)
    | rest => (none, rest)
  match rest with
  | 'e' :: after | 'E' :: after =>
    match scanExponent after with
    | none => none
    | some (exponent, rest) => some (⟨negative, whole, fraction, some exponent⟩, rest)
  | rest => some (⟨negative, whole, fraction, none⟩, rest)

/-- Reads a literal with an optional minus sign, and gives what follows it. -/
def scan (cs : List Char) : Option (Decimal × List Char) :=
  match cs with
  | '-' :: rest => scanUnsigned true rest
  | _ => scanUnsigned false cs

/--
The strict grammar: at least one digit in front, no zero before other digits, and digits after a
point.
-/
def isStrict (literal : Decimal) : Bool :=
  (match literal.whole with
    | [] => false
    | '0' :: rest => rest.isEmpty
    | _ => true) &&
  literal.fraction != some []

/-- The wide grammar: a digit before or after the point. -/
def isWide (literal : Decimal) : Bool :=
  !literal.whole.isEmpty || !(literal.fraction.getD []).isEmpty

/-- A whole text in the strict grammar. -/
def readStrict? (cs : List Char) : Option Decimal :=
  match scan cs with
  | some (literal, []) => if literal.isStrict then some literal else none
  | _ => none

/-- A whole text in the wide grammar, which also allows a plus sign. -/
def readWide? (cs : List Char) : Option Decimal :=
  let scanned := match cs with
    | '+' :: rest => scanUnsigned false rest
    | _ => scan cs
  match scanned with
  | some (literal, []) => if literal.isWide then some literal else none
  | _ => none

/-- All digits, those of the fraction included, as one number. -/
def coefficient (literal : Decimal) : Nat :=
  digitsValue (literal.whole ++ literal.fraction.getD [])

/-- The exponent as written. -/
def writtenExponent (literal : Decimal) : Int :=
  match literal.exponent with
  | none => 0
  | some (true, digits) => -(digitsValue digits : Int)
  | some (false, digits) => digitsValue digits

/-- The power of ten by which the coefficient is multiplied. -/
def power (literal : Decimal) : Int :=
  literal.writtenExponent - (literal.fraction.getD []).length

/--
The double nearest to a literal, or nothing when the literal lies beyond the finite doubles. A
literal that is a power of ten beyond 400 or below -400 is decided without computing the power.
-/
def toBinary64 (literal : Decimal) : Option Binary64 :=
  let n := literal.coefficient
  if n = 0 then some (Binary64.zero literal.negative)
  else
    let leading := literal.power + (Nat.toDigits 10 n).length
    if 400 < leading then none
    else if leading < -400 then some (Binary64.zero literal.negative)
    else if literal.power < 0 then Binary64.ofRatio literal.negative n (Nat.pow 10 literal.power.natAbs)
    else Binary64.ofRatio literal.negative (n * Nat.pow 10 literal.power.natAbs) 1

end Decimal

/-- Whether a text is a literal of the wide grammar for a number in the range of the doubles. -/
def isFiniteLiteral (cs : List Char) : Bool :=
  match Decimal.readWide? cs with
  | some literal => literal.toBinary64.isSome
  | none => false

end ItemMapper
