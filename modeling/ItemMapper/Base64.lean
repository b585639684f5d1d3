/-!
# Base64

Bytes as text in the standard alphabet, with padding. Only the canonical text of some bytes is read:
padded to whole groups of four, and with no bit set beyond the last byte.
-/

namespace ItemMapper

/-- A sequence of bytes. -/
abbrev Bytes := List UInt8

/-- The UTF-8 bytes of a text. -/
def utf8 (text : String) : Bytes :=
  text.toUTF8.data.toList

namespace Base64

/-- The character that fills up the last group. -/
def pad : UInt8 := 61

/-- The symbol for six bits. -/
def symbol (n : Nat) : UInt8 :=
  if n < 26 then UInt8.ofNat (65 + n)
  else if n < 52 then UInt8.ofNat (71 + n)
  else if n < 62 then UInt8.ofNat (n - 4)
  else if n = 62 then 43
  else 47

/-- The six bits of a symbol. -/
def value? (b : UInt8) : Option Nat :=
  let n := b.toNat
  if 65 ≤ n ∧ n ≤ 90 then some (n - 65)
  else if 97 ≤ n ∧ n ≤ 122 then some (n - 71)
  else if 48 ≤ n ∧ n ≤ 57 then some (n + 4)
  else if n = 43 then some 62
  else if n = 47 then some 63
  else none

/-- The symbols of some bytes, a group of four for every three. -/
def encodeBytes : Bytes → Bytes
  | [] => []
  | [a] =>
    [symbol (a.toNat / 4), symbol (a.toNat % 4 * 16), pad, pad]
  | [a, b] =>
    [symbol (a.toNat / 4), symbol (a.toNat % 4 * 16 + b.toNat / 16), symbol (b.toNat % 16 * 4), pad]
  | a :: b :: c :: rest =>
    symbol (a.toNat / 4) :: symbol (a.toNat % 4 * 16 + b.toNat / 16) ::
      symbol (b.toNat % 16 * 4 + c.toNat / 64) :: symbol (c.toNat % 64) :: encodeBytes rest

def encode (bytes : Bytes) : String :=
  String.ofList ((encodeBytes bytes).map fun b => Char.ofNat b.toNat)

/-- Why a text is not the Base64 text of any bytes; offsets count bytes of the text. -/
inductive Error where
  | symbol (byte : UInt8) (offset : Nat)
  | length (symbols : Nat)
  | padding
  | lastSymbol (byte : UInt8) (offset : Nat)
deriving DecidableEq, Repr

def Error.message : Error → String
  | .symbol byte offset => "Invalid symbol " ++ toString byte.toNat ++ ", offset " ++
      toString offset ++ "."
  | .length symbols => "Invalid input length: " ++ toString symbols
  | .padding => "Invalid padding"
  | .lastSymbol byte offset => "Invalid last symbol " ++ toString byte.toNat ++ ", offset " ++
      toString offset ++ "."

/-- The bits of a symbol that stands at an offset. -/
def valueAt (byte : UInt8) (offset : Nat) : Except Error Nat :=
  match value? byte with
  | some n => .ok n
  | none => .error (.symbol byte offset)

/-- The symbols of the last group before its padding, with their bits, and the padding after them. -/
def scanLast (start : Nat) : Nat → Bytes → Except Error (List (UInt8 × Nat) × Nat)
  | _, [] => .ok ([], 0)
  | index, b :: rest =>
    if b = pad then
      -- A group holds at least one byte, and so two symbols before any padding.
      if index < 2 then .error (.symbol pad (start + index))
      else if rest.all (· == pad) then .ok ([], rest.length + 1)
      else .error (.symbol pad (start + index))
    else do
      let n ← valueAt b (start + index)
      let (symbols, padding) ← scanLast start (index + 1) rest
      return ((b, n) :: symbols, padding)

/-- Reads the last group, which starts at an offset: one to four bytes of text. -/
def decodeLast (start : Nat) (group : Bytes) : Except Error Bytes := do
  let (symbols, padding) ← scanLast start 0 group
  if symbols.length < 2 then throw (.length (start + symbols.length))
  if (symbols.length + padding) % 4 ≠ 0 then throw .padding
  match symbols with
  -- The last symbol of a group that is not full has bits beyond the last byte, which must be zero.
  | [(_, a), (b, n)] =>
    if n % 16 ≠ 0 then throw (.lastSymbol b (start + 1))
    return [UInt8.ofNat (a * 4 + n / 16)]
  | [(_, a), (_, n), (c, m)] =>
    if m % 4 ≠ 0 then throw (.lastSymbol c (start + 2))
    return [UInt8.ofNat (a * 4 + n / 16), UInt8.ofNat (n % 16 * 16 + m / 4)]
  | [(_, a), (_, n), (_, m), (_, k)] =>
    return [UInt8.ofNat (a * 4 + n / 16), UInt8.ofNat (n % 16 * 16 + m / 4),
      UInt8.ofNat (m % 4 * 64 + k)]
  | _ => return []

/-- Reads groups of four; every group that another one follows must be full. -/
def decodeGroups (start : Nat) : Bytes → Except Error Bytes
  | [] => .ok []
  | a :: b :: c :: d :: next :: rest => do
    let w ← valueAt a start
    let x ← valueAt b (start + 1)
    let y ← valueAt c (start + 2)
    let z ← valueAt d (start + 3)
    let bytes ← decodeGroups (start + 4) (next :: rest)
    return UInt8.ofNat (w * 4 + x / 16) :: UInt8.ofNat (x % 16 * 16 + y / 4) ::
      UInt8.ofNat (y % 4 * 64 + z) :: bytes
  | group => decodeLast start group

/--
Reads text. A lone byte after whole groups is reported first when it could be neither a symbol nor
padding.
-/
def decodeBytes (text : Bytes) : Except Error Bytes :=
  match text.getLast? with
  | some last =>
    if text.length % 4 = 1 ∧ last ≠ pad ∧ value? last = none then
      .error (.symbol last (text.length - 1))
    else decodeGroups 0 text
  | none => .ok []

def decode (text : String) : Except Error Bytes :=
  decodeBytes (utf8 text)

end Base64

end ItemMapper
