import ItemMapper.Batch.Drain
import ItemMapper.Codec.Read
import ItemMapper.Settings

/-!
# Fetching items

The keys are written first, all of them, and cut into chunks. Chunk after chunk is then drained and its
items are read. The first failure fails the whole fetch; one in a chunk is reported with the position of
the chunk.
-/

namespace ItemMapper

variable {σ : Type}

/-- How items are asked for and read. -/
structure FetchOptions where
  consistentRead : Option Bool := none
  /-- Which attributes to return; all of them if it is missing. -/
  projection : Option String := none
  /-- What the names in the projection stand for. -/
  names : Option (Fields String) := none
  /-- Whether encrypted fields of the items are decrypted. -/
  decrypting : Bool := true

/-- The request for some keys. -/
def FetchOptions.requestFor (options : FetchOptions) (keys : List WireItem) : KeyRequest where
  keys := keys
  projection := options.projection
  names := options.names
  consistentRead := options.consistentRead

/-- A list cut, in order, into pieces of a size (at least one); only the last one may be shorter. -/
def chunks {α : Type} (size : Nat) : List α → List (List α)
  | [] => []
  | x :: rest => (x :: rest.take (size - 1)) :: chunks size (rest.drop (size - 1))
termination_by xs => xs.length
decreasing_by
  simp only [List.length_drop, List.length_cons]
  omega

theorem flatten_chunks {α : Type} (size : Nat) (xs : List α) : (chunks size xs).flatten = xs := by
  fun_induction chunks size xs with
  | case1 => rfl
  | case2 x rest ih => simp [ih]

theorem ne_nil_of_mem_chunks {α : Type} {size : Nat} {xs chunk : List α} (member : chunk ∈ chunks size xs) :
    chunk ≠ [] := by
  fun_induction chunks size xs with
  | case1 => simp at member
  | case2 x rest ih =>
    rcases List.mem_cons.mp member with rfl | member
    · simp
    · exact ih member

theorem length_le_of_mem_chunks {α : Type} {size : Nat} (positive : 0 < size) {xs chunk : List α}
    (member : chunk ∈ chunks size xs) : chunk.length ≤ size := by
  fun_induction chunks size xs with
  | case1 => simp at member
  | case2 x rest ih =>
    rcases List.mem_cons.mp member with rfl | member
    · simp only [List.length_cons, List.length_take]
      omega
    · exact ih member

/-- What a batch read needs besides its keys: the table, its declarations, and how to go about it. -/
structure BatchRead where
  table : String
  types : DatatypeMap := []
  gateway : Gateway := .identity
  settings : Settings := {}
  options : FetchOptions := {}

namespace BatchRead

def writeKeys (read : BatchRead) (keys : List Item) : Result (List WireItem) :=
  keys.mapM (Codec.writeItem read.gateway read.types false)

def readItems (read : BatchRead) (received : List WireItem) : Result (List Item) :=
  received.mapM (Codec.readItem read.gateway read.types read.options.decrypting)

/-- The items that come of a drained chunk. -/
def readDrained (read : BatchRead) : Except TransportError (List WireItem) → Result (List Item)
  | .ok received => read.readItems received
  | .error failure => .error (.transport failure)

/-- The cursor for some written keys. -/
def cursor (read : BatchRead) (keys : List WireItem) : Cursor :=
  .start read.table (read.options.requestFor keys)

/-- Fetches the items of one chunk. -/
def fetchChunk (read : BatchRead) (transport : Transport σ) (calls : Nat) (keys : List WireItem)
    (state : σ) : Option (Result (List Item)) × σ :=
  let (drained, state) := (read.cursor keys).drain transport read.settings.maxRetries calls state
  (drained.map read.readDrained, state)

/-- Fetches the items of chunks, the first of which has the given position. -/
def fetchChunks (read : BatchRead) (transport : Transport σ) (calls index : Nat) :
    List (List WireItem) → σ → Option (Result (List Item)) × σ
  | [], state => (some (.ok []), state)
  | keys :: rest, state =>
    match read.fetchChunk transport calls keys state with
    | (none, state) => (none, state)
    | (some (.error cause), state) => (some (.error (.chunk index cause)), state)
    | (some (.ok items), state) =>
      match read.fetchChunks transport calls (index + 1) rest state with
      | (some (.ok others), state) => (some (.ok (items ++ others)), state)
      | other => other

/--
Fetches the items under some keys; each chunk may make a number of calls, and without an outcome for
one of them there is none for the whole.
-/
def fetch (read : BatchRead) (transport : Transport σ) (calls : Nat) (keys : List Item) (state : σ) :
    Option (Result (List Item)) × σ :=
  match read.settings.validate with
  | .error cause => (some (.error cause), state)
  | .ok () =>
    match read.writeKeys keys with
    | .error cause => (some (.error cause), state)
    | .ok written => read.fetchChunks transport calls 0 (chunks read.settings.chunkSize written) state

end BatchRead

end ItemMapper
