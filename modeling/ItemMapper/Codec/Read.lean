import ItemMapper.Codec.Write

/-!
# Reading items

Wire items become native items: sets become lists, dates are read from texts and from milliseconds, and
encrypted texts are decrypted on request. What lies inside a list has no declared type.
-/

namespace ItemMapper.Codec

/-- Reads the text of a number, between its blanks. -/
def readNumber (path text : String) : Result Number :=
  match Number.read? (Text.trim text.toList) with
  | some n => .ok n
  | none => .error (.read path (.invalidNumber text))

/-- Reads a number by a declared type: under a date it counts milliseconds. -/
def readNumberAs (type : Option WireType) (path text : String) : Result Value := do
  let n ← readNumber path text
  match type with
  | some .date =>
    match Instant.ofNumber? n with
    | some instant => return .date instant
    | none => throw (.read path (.invalidDate text))
  | _ => return .number n

/-- Reads a text by a declared type: dates are spelled out, and encrypted texts may be decrypted. -/
def readTextAs (gateway : Gateway) (decrypting : Bool) (type : Option WireType)
    (path text : String) : Result Value :=
  match type with
  | some .date =>
    match Instant.ofText? text with
    | some instant => .ok (.date instant)
    | none => .error (.read path (.invalidDate text))
  | some (.encrypted keyId) =>
    if decrypting then (gateway.decrypt path keyId text).map .string else .ok (.string text)
  | _ => .ok (.string text)

/-- The path of an item of a list. -/
def itemPath (path : String) (index : Nat) : String :=
  path ++ "[" ++ toString index ++ "]"

mutual

/-- Reads a value by the declared type and the declarations below its field. -/
def readValue (gateway : Gateway) (decrypting : Bool) (type : Option WireType)
    (below : DatatypeMap) (path : String) : WireValue → Result Value
  | .map fields => (readFields gateway decrypting below path fields).map .map
  | .list items => (readItems gateway decrypting path 0 items).map .list
  | .stringSet texts => .ok (.list (texts.map .string))
  | .numberSet texts => do return .list ((← texts.mapM (readNumber path)).map .number)
  | .binarySet blobs => .ok (.list (blobs.map .binary))
  | .null _ => .ok .null
  | .bool b => .ok (.bool b)
  | .binary bytes => .ok (.binary bytes)
  | .number text => readNumberAs type path text
  | .string text => readTextAs gateway decrypting type path text

/-- Reads the items of a list from the given position on. -/
def readItems (gateway : Gateway) (decrypting : Bool) (path : String) (index : Nat) :
    List WireValue → Result (List Value)
  | [] => .ok []
  | item :: rest => do
    -- Declarations name fields, and the items of a list have no names.
    let value ← readValue gateway decrypting none [] (itemPath path index) item
    let others ← readItems gateway decrypting path (index + 1) rest
    return value :: others

def readFields (gateway : Gateway) (decrypting : Bool) (types : DatatypeMap) (parent : String) :
    List (String × WireValue) → Result Item
  | [] => .ok []
  | (name, wire) :: rest => do
    let value ← readValue gateway decrypting (types.wireType? name) (types.below name)
      (joinPath parent name) wire
    let others ← readFields gateway decrypting types parent rest
    return (name, value) :: others

end

/-- Reads a single value by a declared type. -/
def readAttribute (gateway : Gateway) (decrypting : Bool) (type : Option WireType) (path : String)
    (wire : WireValue) : Result Value :=
  readValue gateway decrypting type [] path wire

def readItem (gateway : Gateway) (types : DatatypeMap) (decrypting : Bool) (wire : WireItem) :
    Result Item :=
  readFields gateway decrypting types "" wire

/-- Reads an item that may be absent. -/
def readItem? (gateway : Gateway) (types : DatatypeMap) (decrypting : Bool) :
    Option WireItem → Result (Option Item)
  | none => .ok none
  | some wire => (readItem gateway types decrypting wire).map some

end ItemMapper.Codec
