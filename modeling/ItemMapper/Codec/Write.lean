import ItemMapper.Cipher.Gateway
import ItemMapper.Codec.Coercion
import ItemMapper.Wire.Datatypes

/-!
# Writing items

Native items become wire items field by field, in the order of the names. Map values are written with
the declarations below their field; every other value by the declared type of its field, or in its
natural form when there is none. The first field that fails fails the whole item.
-/

namespace ItemMapper.Codec

/-- The path of a field below another one. -/
def joinPath (parent field : String) : String :=
  if parent = "" then field else parent ++ "." ++ field

/-- Writes a value by a declared type; null, and a set without elements, give nothing. -/
def writeAttribute (gateway : Gateway) (type : Option WireType) (path : String) (value : Value) :
    Result (Option WireValue) :=
  if value.isNull then .ok none
  else
    match type with
    | none => .ok value.marshal?
    | some (.encrypted keyId) =>
      match value with
      | .string plaintext => (gateway.encrypt path keyId plaintext).map fun text => some (.string text)
      | other => .error (.write path (.typeMismatch (.encrypted keyId) other.kind))
    | some type => (coerce type value).mapError (.write path)

/-- A written field; one that gave nothing is left out, or kept as an explicit null. -/
def keepField (nulls : Bool) (name : String) (written : Option WireValue) : WireItem :=
  match written with
  | some value => [(name, value)]
  | none => if nulls then [(name, .null true)] else []

mutual

/-- Writes the value of the field of a name and a path. -/
def writeField (gateway : Gateway) (nulls : Bool) (types : DatatypeMap) (name path : String) :
    Value → Result (Option WireValue)
  | .map fields => do
    let written ← writeFields gateway nulls (types.below name) path fields
    return some (.map written)
  | value => writeAttribute gateway (types.wireType? name) path value

def writeFields (gateway : Gateway) (nulls : Bool) (types : DatatypeMap) (parent : String) :
    List (String × Value) → Result WireItem
  | [] => .ok []
  | (name, value) :: rest => do
    let written ← writeField gateway nulls types name (joinPath parent name) value
    let others ← writeFields gateway nulls types parent rest
    return keepField nulls name written ++ others

end

/-- A map is written as the map of its written fields, whatever is declared for it. -/
theorem writeField_map_eq_ok_iff {gateway : Gateway} {nulls : Bool} {types : DatatypeMap} {name path : String}
    {fields : Item} {result : Option WireValue} :
    writeField gateway nulls types name path (.map fields) = .ok result ↔
      ∃ written, writeFields gateway nulls (types.below name) path fields = .ok written ∧
        result = some (.map written) := by
  rw [writeField]
  cases writeFields gateway nulls (types.below name) path fields with
  | error fault => simp [bind, Except.bind]
  | ok written => simp [bind, Except.bind, pure, Except.pure, eq_comm]

/-- Writes an item; fields that give nothing are kept as explicit nulls if `nulls` is set. -/
def writeItem (gateway : Gateway) (types : DatatypeMap) (nulls : Bool) (item : Item) :
    Result WireItem :=
  writeFields gateway nulls types "" item

end ItemMapper.Codec
