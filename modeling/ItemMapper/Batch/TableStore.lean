import ItemMapper.Batch.Drain
import ItemMapper.Settings
import ItemMapper.Text.Blank
import ItemMapper.Text.Parts

/-!
# A table store in memory

A stand-in for a store of tables. It looks at no more than a page of keys in one call and leaves the
rest unprocessed, and it can be told to refuse some calls.
-/

namespace ItemMapper

/-- Tables of items, each under the text of its key attribute. -/
structure TableStore where
  keyAttribute : String
  tables : Fields (Fields WireItem) := []
  /-- How many keys are looked at in one call. -/
  pageLimit : Nat := greatestChunkSize
  /-- How many of the next calls are refused. -/
  throttles : Nat := 0
deriving Repr

namespace TableStore

/-- The text under which an item is stored or looked up: that of its key attribute. -/
def keyText? (store : TableStore) (item : WireItem) : Option String :=
  (Fields.get? item store.keyAttribute).bind fun value => value.string? <|> value.number?

/-- Stores an item in a table, which comes into being with its first item. -/
def put (store : TableStore) (table : String) (item : WireItem) : Option TableStore :=
  (store.keyText? item).map fun key =>
    let items := (Fields.get? store.tables table).getD []
    { store with tables := Fields.insert table (Fields.insert key item items) store.tables }

/-- The names of the attributes that a projection asks for. -/
def projectedNames (projection : String) (names : Fields String) : List String :=
  (Text.parts ',' projection.toList).map fun part =>
    let word := String.ofList (Text.trim part)
    (Fields.get? names word).getD word

/-- The attributes of an item that a request asks for. -/
def project (request : KeyRequest) (item : WireItem) : WireItem :=
  match request.projection with
  | none => item
  | some projection =>
    let wanted := projectedNames projection (request.names.getD [])
    item.filter fun (name, _) => name ∈ wanted

/-- Looks keys up in a table; keys that are not stored there bring nothing. -/
def lookUp (store : TableStore) (stored : Fields WireItem) (keys : List WireItem) : List WireItem :=
  keys.filterMap fun key => (store.keyText? key).bind (Fields.get? stored)

/-- The refusal of a call; it passes. -/
def throttled : TransportError :=
  { retryable := true, message := "ProvisionedThroughputExceededException", source := none }

/-- The refusal of a call with too many keys. -/
def tooManyKeys : TransportError :=
  { retryable := false
    message := "Too many items requested for the BatchGetItem call"
    source := none }

/-- The refusal of a call for a table that does not exist. -/
def missingTable (table : String) : TransportError :=
  { retryable := false, message := "Requested resource not found: " ++ table, source := none }

/-- The items and the keys left over for one table of a request. -/
def serveTable (store : TableStore) (table : String) (request : KeyRequest) :
    Except TransportError (List WireItem × Option KeyRequest) :=
  match Fields.get? store.tables table with
  | none => .error (missingTable table)
  | some stored =>
    let items := (store.lookUp stored (request.keys.take store.pageLimit)).map (project request)
    -- Keys that are not looked at come back as they were sent, with the way of reading them.
    let rest := request.keys.drop store.pageLimit
    .ok (items, if rest.isEmpty then none else some (request.withKeys rest))

/-- The items and the keys left over for the tables of a request. -/
def serveTables (store : TableStore) :
    List (String × KeyRequest) →
      Except TransportError (List (String × List WireItem) × List (String × KeyRequest))
  | [] => .ok ([], [])
  | (table, request) :: rest => do
    let (items, left) ← store.serveTable table request
    let (others, leftOver) ← store.serveTables rest
    return ((table, items) :: others, (left.toList.map fun request => (table, request)) ++ leftOver)

/-- Answers a request that is not throttled. -/
def serve (store : TableStore) (request : BatchRequest) : Reply :=
  if greatestChunkSize < request.keyCount then .error tooManyKeys
  else do
    let (items, left) ← store.serveTables request.tables
    return { items := items, unprocessed := if left.isEmpty then none else some left }

/-- The way to a store in memory. -/
def transport : Transport TableStore where
  call request store :=
    if store.throttles = 0 then (store.serve request, store)
    else (.error throttled, { store with throttles := store.throttles - 1 })

/--
The calls that reading so many keys can cost: each call that is not refused takes at least one key,
unless a page has no room for any.
-/
def callsFor (store : TableStore) (keys : Nat) : Nat :=
  keys + store.throttles + 1

end TableStore

end ItemMapper
