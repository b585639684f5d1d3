import ItemMapper.Native.Value
import ItemMapper.Wire.Value

/-!
# Natural wire forms

The wire form that a native value takes without any declared type.
-/

namespace ItemMapper.Value

mutual

/-- The natural wire form; null becomes an explicit null, and a date its text. -/
def natural : Value → WireValue
  | .null => .null true
  | .bool b => .bool b
  | .number n => .number n.text
  | .string text => .string text
  | .binary bytes => .binary bytes
  | .date instant => .string instant.text
  | .list items => .list (naturalItems items)
  | .map fields => .map (naturalFields fields)

/-- The natural wire forms of items. -/
def naturalItems : List Value → List WireValue
  | [] => []
  | item :: rest => item.natural :: naturalItems rest

/-- The natural wire forms of fields. -/
def naturalFields : List (String × Value) → List (String × WireValue)
  | [] => []
  | (name, value) :: rest => (name, value.natural) :: naturalFields rest

end

/-- The natural wire form of a value that is not null; nulls inside it are kept. -/
def marshal? (value : Value) : Option WireValue :=
  if value.isNull then none else some value.natural

end ItemMapper.Value
