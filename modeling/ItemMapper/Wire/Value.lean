import ItemMapper.Json.Shape

/-!
# Wire values

A wire value carries exactly one type tag. Numbers travel as text, so none of their digits are lost.
The JSON form of a wire value is an object with the tag as its only member name; bytes are in Base64.
-/

namespace ItemMapper

/-- A tagged value as the store takes and returns it. -/
inductive WireValue where
  | string (text : String)
  | number (text : String)
  | binary (bytes : Bytes)
  | stringSet (texts : List String)
  | numberSet (texts : List String)
  | binarySet (blobs : List Bytes)
  | bool (value : Bool)
  | null (value : Bool)
  | list (items : List WireValue)
  | map (fields : List (String × WireValue))
deriving Repr

/-- An item as the store takes and returns it. -/
abbrev WireItem := Fields WireValue

namespace WireValue

/-- All tags, in the order in which they are documented. -/
def tags : List String :=
  ["S", "N", "B", "SS", "NS", "BS", "BOOL", "NULL", "L", "M"]

def tag : WireValue → String
  | .string _ => "S"
  | .number _ => "N"
  | .binary _ => "B"
  | .stringSet _ => "SS"
  | .numberSet _ => "NS"
  | .binarySet _ => "BS"
  | .bool _ => "BOOL"
  | .null _ => "NULL"
  | .list _ => "L"
  | .map _ => "M"

def isSet : WireValue → Bool
  | .stringSet _ | .numberSet _ | .binarySet _ => true
  | _ => false

def isNumber : WireValue → Bool
  | .number _ => true
  | _ => false

def isNull : WireValue → Bool
  | .null true => true
  | _ => false

/-- The number of elements of a set. -/
def setSize? : WireValue → Option Nat
  | .stringSet texts | .numberSet texts => some texts.length
  | .binarySet blobs => some blobs.length
  | _ => none

def string? : WireValue → Option String
  | .string text => some text
  | _ => none

def number? : WireValue → Option String
  | .number text => some text
  | _ => none

def map? : WireValue → Option WireItem
  | .map fields => some fields
  | _ => none

/-- A short form for diagnostics: the tag with the text, or with the size of what it holds. -/
def summary (value : WireValue) : String :=
  let content := match value with
    | .string text | .number text => text
    | .binary bytes => toString bytes.length ++ " bytes"
    | .stringSet texts | .numberSet texts => Text.quoteList texts
    | .binarySet blobs => toString blobs.length ++ " items"
    | .bool b | .null b => toString b
    | .list items => toString items.length ++ " items"
    | .map fields => toString fields.length ++ " keys"
  "\x7b" ++ value.tag ++ ": " ++ content ++ "\x7d"

/-! ### JSON form -/

mutual

def toJson : WireValue → Json
  | .string text => .object [("S", .string text)]
  | .number text => .object [("N", .string text)]
  | .binary bytes => .object [("B", .string (Base64.encode bytes))]
  | .stringSet texts => .object [("SS", .array (texts.map .string))]
  | .numberSet texts => .object [("NS", .array (texts.map .string))]
  | .binarySet blobs => .object [("BS", .array (blobs.map fun blob => .string (Base64.encode blob)))]
  | .bool b => .object [("BOOL", .bool b)]
  | .null b => .object [("NULL", .bool b)]
  | .list items => .object [("L", .array (toJsonItems items))]
  | .map fields => .object [("M", .object (toJsonMembers fields))]

def toJsonItems : List WireValue → List Json
  | [] => []
  | value :: rest => value.toJson :: toJsonItems rest

def toJsonMembers : List (String × WireValue) → List (String × Json)
  | [] => []
  | (name, value) :: rest => (name, value.toJson) :: toJsonMembers rest

end

def readBytes (text : String) : Json.Shaped Bytes :=
  (Base64.decode text).mapError .base64

mutual

/-- Reads a value from its JSON form: the tag first, then the content, then that nothing follows. -/
def ofJson : Json → Json.Shaped WireValue
  | .object [] => .error .noTag
  | .object ((name, content) :: rest) => do
    if !content.isNamed then throw .syntaxError
    let value ← ofTagged name content
    match rest with
    | [] => return value
    | (_, second) :: _ => throw (if second.isNamed then .secondTag else .syntaxError)
  | other => .error (other.mistyped .taggedValue)

def ofTagged (name : String) (content : Json) : Json.Shaped WireValue :=
  match name with
  | "S" => content.asString.map .string
  | "N" => content.asString.map .number
  | "B" => do return .binary (← readBytes (← content.asString))
  | "SS" => (content.asList Json.asString).map .stringSet
  | "NS" => (content.asList Json.asString).map .numberSet
  | "BS" => do return .binarySet (← (← content.asList Json.asString).mapM readBytes)
  | "BOOL" => content.asBool.map .bool
  | "NULL" => content.asBool.map .null
  | "L" =>
    match content with
    | .array items => (ofItems items).map .list
    | other => .error (other.mistyped .sequence)
  | "M" =>
    match content with
    | .object members => (ofMembers members).map fun fields => .map (Fields.ofList fields)
    | other => .error (other.mistyped .map)
  | _ => .error (.unknownField name tags)

def ofItems : List Json → Json.Shaped (List WireValue)
  | [] => .ok []
  | tree :: rest => do
    let value ← ofJson tree
    return value :: (← ofItems rest)

def ofMembers : List (String × Json) → Json.Shaped (List (String × WireValue))
  | [] => .ok []
  | (name, tree) :: rest => do
    if !tree.isNamed then throw .syntaxError
    let value ← ofJson tree
    return (name, value) :: (← ofMembers rest)

end

end WireValue

def WireItem.toJson (item : WireItem) : Json :=
  .object (WireValue.toJsonMembers item)

def WireItem.ofJson : Json → Json.Shaped WireItem
  | .object members => (WireValue.ofMembers members).map Fields.ofList
  | other => .error (other.mistyped .map)

end ItemMapper
