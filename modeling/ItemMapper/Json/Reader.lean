import ItemMapper.Json.Basic
import ItemMapper.Number.Reader

/-!
# Reading JSON text

Text is read into a tree with the faults in it, so reading never fails. Where a fault has clear ends,
the reading goes on behind it; arrays and objects that are nested more deeply than 127 levels are such
a fault.
-/

namespace ItemMapper

/-- What a text says: a tree, and whether nothing but blanks follows it. -/
structure Document where
  root : Json
  complete : Bool
deriving Repr

namespace Json.Reader

/-- A tree and the text after it; no text is left where the reading broke off. -/
abbrev Taken (α : Type) := α × Option (List Char)

/-- How many levels of arrays and objects are taken in. -/
def depthLimit : Nat := 127

/-- The blanks that may stand between the parts of a text. -/
def isSpace (c : Char) : Bool :=
  c = ' ' || c = '\n' || c = '\t' || c = '\r'

/-- Drops the blanks in front. -/
def skip (cs : List Char) : List Char :=
  cs.dropWhile isSpace

/-- The value of a hexadecimal digit. -/
def hexDigit? (c : Char) : Option Nat :=
  if '0' ≤ c ∧ c ≤ '9' then some (c.toNat - '0'.toNat)
  else if 'a' ≤ c ∧ c ≤ 'f' then some (c.toNat - 'a'.toNat + 10)
  else if 'A' ≤ c ∧ c ≤ 'F' then some (c.toNat - 'A'.toNat + 10)
  else none

/-- The value of four hexadecimal digits. -/
def hexWord? (a b c d : Char) : Option Nat :=
  match hexDigit? a, hexDigit? b, hexDigit? c, hexDigit? d with
  | some a, some b, some c, some d => some (((a * 16 + b) * 16 + c) * 16 + d)
  | _, _, _, _ => none

/-- The character that a letter after a backslash stands for. -/
def escaped? (c : Char) : Option Char :=
  if c = '"' then some '"'
  else if c = '\\' then some '\\'
  else if c = '/' then some '/'
  else if c = 'b' then some '\x08'
  else if c = 'f' then some '\x0c'
  else if c = 'n' then some '\n'
  else if c = 'r' then some '\r'
  else if c = 't' then some '\t'
  else none

/-- Whether a word is the first or the second half of a pair for one character. -/
def isLeading (word : Nat) : Bool := 0xD800 ≤ word && word ≤ 0xDBFF

/-- Whether a word is the second half of a pair for one character. -/
def isTrailing (word : Nat) : Bool := 0xDC00 ≤ word && word ≤ 0xDFFF

/-- What stands between quotes: a text, or an escape in it that stands for no character. -/
inductive Quoted where
  | text (value : String)
  | unreadable
deriving Repr

/-- A quoted text as a value. -/
def Quoted.tree : Quoted → Json
  | .text value => .string value
  | .unreadable => .flaw .unreadable .null

/-- A quoted text as the name of a member. -/
def Quoted.member (name : Quoted) (item : Json) : String × Json :=
  match name with
  | .text name => (name, item)
  | .unreadable => ("", .flaw .unreadableName item)

/--
What was read between quotes so far: the characters, last one first, the first half of a pair that
waits for the second, and whether all escapes stood for characters.
-/
structure Quoting where
  taken : List Char := []
  half : Option Nat := none
  readable : Bool := true

namespace Quoting

/-- Adds a character; a half of a pair in front of it stands alone. -/
def add (q : Quoting) (c : Char) : Quoting :=
  ⟨c :: q.taken, none, q.readable && q.half.isNone⟩

/-- Adds an escaped 16-bit word, which may be half of a pair. -/
def addWord (q : Quoting) (word : Nat) : Quoting :=
  match q.half with
  | some high =>
    if isTrailing word then
      ⟨Char.ofNat (0x10000 + (high - 0xD800) * 0x400 + (word - 0xDC00)) :: q.taken, none, q.readable⟩
    else ⟨q.taken, none, false⟩
  | none =>
    if isTrailing word then ⟨q.taken, none, false⟩
    else if isLeading word then ⟨q.taken, some word, q.readable⟩
    else q.add (Char.ofNat word)

/-- What was read, at the closing quote. -/
def finish (q : Quoting) : Quoted :=
  if q.readable && q.half.isNone then .text (String.ofList q.taken.reverse) else .unreadable

end Quoting

/-- Reads up to the closing quote. Nothing is given where the text breaks off. -/
def quoted (q : Quoting) : List Char → Option (Quoted × List Char)
  | [] => none
  | '"' :: rest => some (q.finish, rest)
  | '\\' :: 'u' :: a :: b :: c :: d :: rest =>
    match hexWord? a b c d with
    | some word => quoted (q.addWord word) rest
    | none => none
  | '\\' :: c :: rest =>
    match escaped? c with
    | some meant => quoted (q.add meant) rest
    | none => none
  | c :: rest => if c.toNat < 0x20 then none else quoted (q.add c) rest

/-- Takes a word off the front of a text. -/
def literal (word : List Char) (meaning : Json) (cs : List Char) : Taken Json :=
  if word.isPrefixOf cs then (meaning, some (cs.drop word.length)) else (.broken, none)

/-- Takes a number off the front of a text. -/
def number (cs : List Char) : Taken Json :=
  match Decimal.scan cs with
  | none => (.broken, none)
  | some (literal, rest) =>
    if literal.isStrict then
      match literal.toNumber with
      | some n => (.number n, some rest)
      -- A number beyond all doubles has clear ends all the same.
      | none => (.flaw .unreadable .null, some rest)
    else (.broken, none)

/-- A container inside so many levels as are still taken in. -/
def nested (depth : Nat) (container : Json) : Json :=
  if depth = 0 then .flaw .tooDeep container else container

/-- A member whose name is missing: whatever stands there, only a string can be a name. -/
def nameless : String × Json :=
  ("", .flaw .nameless .null)

mutual

/-- Takes a value off the front of a text. Every step into a value uses up one unit of `budget`. -/
def value (budget depth : Nat) (cs : List Char) : Taken Json :=
  match budget with
  | 0 => (.broken, none)
  | budget + 1 =>
    match skip cs with
    | 'n' :: rest => literal ['n', 'u', 'l', 'l'] .null ('n' :: rest)
    | 't' :: rest => literal ['t', 'r', 'u', 'e'] (.bool true) ('t' :: rest)
    | 'f' :: rest => literal ['f', 'a', 'l', 's', 'e'] (.bool false) ('f' :: rest)
    | '"' :: rest =>
      match quoted {} rest with
      | none => (.broken, none)
      | some (text, rest) => (text.tree, some rest)
    | '[' :: rest =>
      let (items, after) := match skip rest with
        | ']' :: after => ([], some after)
        | _ => items budget (depth - 1) rest
      (nested depth (.array items), after)
    | '{' :: rest =>
      let (members, after) := match skip rest with
        | '}' :: after => ([], some after)
        | _ => members budget (depth - 1) rest
      (nested depth (.object members), after)
    | c :: rest =>
      if c = '-' || c.isDigit then number (c :: rest) else (.broken, none)
    | [] => (.broken, none)

/-- Takes the items of an array, at least one, and its closing bracket off the front of a text. -/
def items (budget depth : Nat) (cs : List Char) : Taken (List Json) :=
  match budget with
  | 0 => ([.broken], none)
  | budget + 1 =>
    match value budget depth cs with
    | (item, none) => ([item], none)
    | (item, some rest) =>
      match skip rest with
      | ',' :: rest =>
        let (others, after) := items budget depth rest
        (item :: others, after)
      | ']' :: rest => ([item], some rest)
      | _ => ([item, .broken], none)

/-- Takes the members of an object, at least one, and its closing brace off the front of a text. -/
def members (budget depth : Nat) (cs : List Char) : Taken (List (String × Json)) :=
  match budget with
  | 0 => ([nameless], none)
  | budget + 1 =>
    match skip cs with
    | '"' :: rest =>
      match quoted {} rest with
      | none => ([nameless], none)
      | some (name, rest) =>
        match skip rest with
        | ':' :: rest =>
          match value budget depth rest with
          | (item, none) => ([name.member item], none)
          | (item, some rest) =>
            match skip rest with
            | ',' :: rest =>
              let (others, after) := members budget depth rest
              (name.member item :: others, after)
            | '}' :: rest => ([name.member item], some rest)
            | _ => ([name.member item, nameless], none)
        | _ => ([name.member .broken], none)
    | _ => ([nameless], none)

end

end Json.Reader

/-- Reads a text. Twice its length bounds the steps, since of two in a row one takes a character. -/
def Document.read (text : String) : Document :=
  let cs := text.toList
  match Json.Reader.value (2 * cs.length + 2) Json.Reader.depthLimit cs with
  | (root, none) => ⟨root, false⟩
  | (root, some rest) => ⟨root, (Json.Reader.skip rest).isEmpty⟩

end ItemMapper
