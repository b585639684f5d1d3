import ItemMapper.Request.BatchGet

/-!
# Cursors of batch reads

A cursor reads the items under some keys of a table. A response may leave keys unprocessed; these are
the next request, exactly as the response reports them.
-/

namespace ItemMapper

/-- The progress of reading some keys: what is still to be asked for, and what has come so far. -/
structure Cursor where
  table : String
  remaining : Option KeyRequest
  received : List WireItem := []
deriving Repr

namespace Cursor

/-- A cursor before its first request. -/
def start (table : String) (request : KeyRequest) : Cursor :=
  { table, remaining := some request }

/-- The keys that are still to be asked for. -/
def remainingKeys (cursor : Cursor) : List WireItem :=
  match cursor.remaining with
  | some request => request.keys
  | none => []

/-- Whether there is nothing more to ask for. -/
def isDone (cursor : Cursor) : Bool :=
  cursor.remainingKeys.isEmpty

/-- The next request, unless the cursor is done. -/
def nextRequest? (cursor : Cursor) : Option BatchRequest :=
  match cursor.remaining with
  | some request => if request.keys.isEmpty then none else some { tables := [(cursor.table, request)] }
  | none => none

/-- The items that a response brings for a table. -/
def itemsFor (response : BatchResponse) (table : String) : List WireItem :=
  (Fields.get? response.items table).getD []

/-- The request that a response leaves for a table. -/
def leftFor (response : BatchResponse) (table : String) : Option KeyRequest :=
  response.unprocessed.bind fun left => Fields.get? left table

/-- The cursor after a response. What the response says about other tables does not count. -/
def advance (cursor : Cursor) (response : BatchResponse) : Cursor :=
  { cursor with
    remaining := leftFor response cursor.table
    received := cursor.received ++ itemsFor response cursor.table }

theorem nextRequest?_eq_none_iff {cursor : Cursor} : cursor.nextRequest? = none ↔ cursor.isDone := by
  cases h : cursor.remaining <;> simp [nextRequest?, isDone, remainingKeys, h]

end Cursor

end ItemMapper
