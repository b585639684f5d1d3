import ItemMapper.Calendar.DateText
import ItemMapper.Codec.Natural
import ItemMapper.Error
import ItemMapper.Number.Reader

/-!
# Coercions to declared types

How a native value is brought into the form that a declared type asks for.
-/

namespace ItemMapper.Codec

/-- The instant of a date, of a text that spells one, or of a number of milliseconds. -/
def toInstant (value : Value) : Except WriteFault Instant :=
  let instant := match value with
    | .date instant => some instant
    | .string text => Instant.ofText? text
    | .number n => Instant.ofNumber? n
    | _ => none
  match instant with
  | some instant => .ok instant
  | none => .error (.invalidDate value)

/-- Everything is true but null, `false`, zero, the empty text and the text `false`. -/
def truth : Value → Bool
  | .null => false
  | .bool b => b
  | .number n => !n.isZero
  | .string text => text != "" && text != "false"
  | _ => true

/-- Bytes as they are, or those of a text. -/
def toBytes (type : WireType) : Value → Except WriteFault Bytes
  | .binary bytes => .ok bytes
  | .string text => .ok (utf8 text)
  | other => .error (.typeMismatch type other.kind)

/-- An element of a string set: a text or the text of a number. -/
def toSetText : Value → Except WriteFault String
  | .string text => .ok text
  | .number n => .ok n.text
  | other => .error (.typeMismatch .stringSet other.kind)

/-- An element of a number set: the text of a number, or a text that is one between its blanks. -/
def toSetNumber : Value → Except WriteFault String
  | .number n => .ok n.text
  | .string text =>
    if isFiniteLiteral (Text.trim text.toList) then .ok (Text.trimText text)
    else .error (.typeMismatch .numberSet .string)
  | other => .error (.typeMismatch .numberSet other.kind)

theorem toBytes_eq_ok_iff {type : WireType} {value : Value} {bytes : Bytes} : toBytes type value = .ok bytes ↔
    value = .binary bytes ∨ ∃ text, value = .string text ∧ utf8 text = bytes := by
  cases value <;> simp [toBytes]

theorem toSetText_eq_ok_iff {element : Value} {text : String} : toSetText element = .ok text ↔
    element = .string text ∨ ∃ n, element = .number n ∧ n.text = text := by
  cases element <;> simp [toSetText]

theorem toSetNumber_eq_ok_iff {element : Value} {text : String} : toSetNumber element = .ok text ↔
    (∃ n, element = .number n ∧ n.text = text) ∨
      ∃ given, element = .string given ∧ isFiniteLiteral (Text.trim given.toList) ∧ Text.trimText given = text := by
  cases element with
  | string given => cases literal : isFiniteLiteral (Text.trim given.toList) <;> simp [toSetNumber, literal]
  | _ => simp [toSetNumber]

/-- The elements that a value gives to a set: those of a list, or the value itself. -/
def elements : Value → List Value
  | .list items => items
  | scalar => [scalar]

/-- The different elements of a set, each where it occurs first. -/
def toSet {α : Type} [BEq α] (element : Value → Except WriteFault α) (value : Value) :
    Except WriteFault (List α) := do
  return (← (elements value).mapM element).eraseDups

/-- A set, unless it is empty. -/
def nonEmpty {α : Type} (wrap : List α → WireValue) (found : List α) : Option WireValue :=
  if found.isEmpty then none else some (wrap found)

/-- Brings a value that is not null into the form of a type that needs no encryption. -/
def coerce (type : WireType) (value : Value) : Except WriteFault (Option WireValue) :=
  match type with
  | .date => do return some (.string (← toInstant value).text)
  | .boolean => .ok (some (.bool (truth value)))
  | .binary => do return some (.binary (← toBytes type value))
  | .stringSet => do return nonEmpty .stringSet (← toSet toSetText value)
  | .numberSet => do return nonEmpty .numberSet (← toSet toSetNumber value)
  | .binarySet => do return nonEmpty .binarySet (← toSet (toBytes type) value)
  | .string | .number | .list | .encrypted _ => .ok value.marshal?

end ItemMapper.Codec
