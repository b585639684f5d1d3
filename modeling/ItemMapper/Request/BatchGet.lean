import ItemMapper.Request.Expected

/-!
# Batch reads

The request that asks tables for the items under some keys, and the response, which may leave keys for
a further request.
-/

namespace ItemMapper

/-- Keys to read from a table, and how. -/
structure KeyRequest where
  keys : List WireItem
  /-- Which attributes to return; all of them if it is missing. -/
  projection : Option String := none
  /-- What the names in the projection stand for. -/
  names : Option (Fields String) := none
  consistentRead : Option Bool := none
deriving Repr

/-- Which use of capacity to report. -/
inductive CapacityDetail where
  | indexes
  | total
  | none
deriving DecidableEq, Repr

/-- A request to read from tables. -/
structure BatchRequest where
  tables : Fields KeyRequest
  capacityDetail : Option CapacityDetail := none
deriving Repr

/-- Capacity that was used on a table. -/
structure ConsumedCapacity where
  table : Option String := none
  units : Option Binary64 := none
deriving DecidableEq, Repr

/-- A response: the items of each table, and the keys that have not been looked at. -/
structure BatchResponse where
  items : Fields (List WireItem) := []
  unprocessed : Option (Fields KeyRequest) := none
  consumed : List ConsumedCapacity := []
deriving Repr

/-- The same way of reading, for other keys. -/
def KeyRequest.withKeys (request : KeyRequest) (keys : List WireItem) : KeyRequest :=
  { request with keys }

/-- The number of keys in all tables of a request. -/
def BatchRequest.keyCount (request : BatchRequest) : Nat :=
  request.tables.foldl (fun count (_, request) => count + request.keys.length) 0

/-- The object of values under names. -/
def fieldsJson {α : Type} (form : α → Json) (fields : Fields α) : Json :=
  .object (fields.map fun (name, value) => (name, form value))

namespace KeyRequest

def toJson (request : KeyRequest) : Json :=
  .object (optionalMember "ConsistentRead" .bool request.consistentRead ++
    optionalMember "ExpressionAttributeNames" (fieldsJson .string) request.names ++
    [("Keys", .array (request.keys.map WireItem.toJson))] ++
    optionalMember "ProjectionExpression" .string request.projection)

structure Draft where
  keys : Option (List WireItem) := none
  projection : Option String := none
  names : Option (Fields String) := none
  consistentRead : Option Bool := none

def fields : List (Json.RecordField Draft) :=
  [⟨"Keys", false, fun draft tree => do
      return { draft with keys := some (← tree.asList WireItem.ofJson) }⟩,
    ⟨"ProjectionExpression", false, fun draft tree => do
      return { draft with projection := ← tree.asOption Json.asString }⟩,
    ⟨"ExpressionAttributeNames", false, fun draft tree => do
      return { draft with names := ← tree.asOption (Json.asFields Json.asString) }⟩,
    ⟨"ConsistentRead", false, fun draft tree => do
      return { draft with consistentRead := ← tree.asOption Json.asBool }⟩]

def ofJson (tree : Json) : Json.Shaped KeyRequest := do
  let draft ← tree.asRecord "KeysAndAttributes" fields {}
  return {
    keys := ← Json.required "Keys" draft.keys
    projection := draft.projection
    names := draft.names
    consistentRead := draft.consistentRead }

end KeyRequest

namespace CapacityDetail

def name : CapacityDetail → String
  | .indexes => "INDEXES"
  | .total => "TOTAL"
  | .none => "NONE"

def names : List String :=
  [name .indexes, name .total, name .none]

def toJson (detail : CapacityDetail) : Json :=
  .string detail.name

def ofJson (tree : Json) : Json.Shaped CapacityDetail := do
  let name ← tree.asVariant names
  return if name = "INDEXES" then .indexes else if name = "TOTAL" then .total else .none

end CapacityDetail

namespace BatchRequest

def toJson (request : BatchRequest) : Json :=
  .object (("RequestItems", fieldsJson KeyRequest.toJson request.tables) ::
    optionalMember "ReturnConsumedCapacity" CapacityDetail.toJson request.capacityDetail)

structure Draft where
  tables : Option (Fields KeyRequest) := none
  capacityDetail : Option CapacityDetail := none

def fields : List (Json.RecordField Draft) :=
  [⟨"RequestItems", false, fun draft tree => do
      return { draft with tables := some (← tree.asFields KeyRequest.ofJson) }⟩,
    ⟨"ReturnConsumedCapacity", false, fun draft tree => do
      return { draft with capacityDetail := ← tree.asOption CapacityDetail.ofJson }⟩]

def ofJson (tree : Json) : Json.Shaped BatchRequest := do
  let draft ← tree.asRecord "BatchGetItemInput" fields {}
  return {
    tables := ← Json.required "RequestItems" draft.tables
    capacityDetail := draft.capacityDetail }

end BatchRequest

namespace ConsumedCapacity

def toJson (consumed : ConsumedCapacity) : Json :=
  .object (optionalMember "CapacityUnits" (fun units => .number (.float units)) consumed.units ++
    optionalMember "TableName" .string consumed.table)

def fields : List (Json.RecordField ConsumedCapacity) :=
  [⟨"TableName", false, fun draft tree => do
      return { draft with table := ← tree.asOption Json.asString }⟩,
    ⟨"CapacityUnits", false, fun draft tree => do
      return { draft with units := ← tree.asOption Json.asFloat }⟩]

def ofJson : Json → Json.Shaped ConsumedCapacity :=
  Json.asRecord "ConsumedCapacity" fields {}

end ConsumedCapacity

namespace BatchResponse

/-- The JSON form of a response; unprocessed keys are `null` when there are none. -/
def toJson (response : BatchResponse) : Json :=
  .object ((if response.consumed.isEmpty then []
      else [("ConsumedCapacity", .array (response.consumed.map ConsumedCapacity.toJson))]) ++
    [("Responses", fieldsJson (fun items => .array (items.map WireItem.toJson)) response.items),
      ("UnprocessedKeys", (response.unprocessed.map (fieldsJson KeyRequest.toJson)).getD .null)])

def fields : List (Json.RecordField BatchResponse) :=
  [⟨"Responses", true, fun draft tree => do
      return { draft with items := ← tree.asFields (Json.asList WireItem.ofJson) }⟩,
    ⟨"UnprocessedKeys", true, fun draft tree => do
      return { draft with unprocessed := ← tree.asOption (Json.asFields KeyRequest.ofJson) }⟩,
    ⟨"ConsumedCapacity", true, fun draft tree => do
      return { draft with consumed := ← tree.asList ConsumedCapacity.ofJson }⟩]

def ofJson : Json → Json.Shaped BatchResponse :=
  Json.asRecord "BatchGetItemOutput" fields {}

end BatchResponse

end ItemMapper
