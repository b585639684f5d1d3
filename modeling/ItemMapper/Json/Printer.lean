import ItemMapper.Json.Basic

/-!
# Writing JSON text

Trees are written without blanks. A flaw has no text of its own and is written as `null`.
-/

namespace ItemMapper.Json

/-- One character inside a JSON string. -/
def printedChar (c : Char) : List Char :=
  if c = '"' then ['\\', '"']
  else if c = '\\' then ['\\', '\\']
  else if c = '\n' then ['\\', 'n']
  else if c = '\r' then ['\\', 'r']
  else if c = '\t' then ['\\', 't']
  else if c.toNat = 8 then ['\\', 'b']
  else if c.toNat = 12 then ['\\', 'f']
  else if c.toNat < 16 then ['\\', 'u', '0', '0', '0'] ++ Nat.toDigits 16 c.toNat
  else if c.toNat < 32 then ['\\', 'u', '0', '0'] ++ Nat.toDigits 16 c.toNat
  else [c]

/-- A string between quotes. -/
def printString (text : String) : String :=
  String.ofList ('"' :: text.toList.flatMap printedChar ++ ['"'])

mutual

def print : Json → String
  | .null => "null"
  | .bool true => "true"
  | .bool false => "false"
  | .number n => n.text
  | .string text => printString text
  | .array items => "[" ++ printItems items ++ "]"
  | .object members => "\x7b" ++ printMembers members ++ "\x7d"
  | .flaw _ _ => "null"

/-- The texts of items, divided by commas. -/
def printItems : List Json → String
  | [] => ""
  | [item] => item.print
  | item :: rest => item.print ++ "," ++ printItems rest

/-- The texts of members, divided by commas. -/
def printMembers : List (String × Json) → String
  | [] => ""
  | [(name, value)] => printString name ++ ":" ++ value.print
  | (name, value) :: rest => printString name ++ ":" ++ value.print ++ "," ++ printMembers rest

end

end ItemMapper.Json
