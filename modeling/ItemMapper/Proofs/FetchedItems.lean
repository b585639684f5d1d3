import ItemMapper.Batch.Fetch
import ItemMapper.Batch.TableStore
import ItemMapper.Proofs.DrainedItems
import ItemMapper.Proofs.Results

/-!
# What a fetch from a table brings

A fetch cuts its keys into chunks, the store serves each chunk page by page, and some of its calls are
refused. None of this shows in the result: it is the one of looking up the keys one by one and reading what is
found (`readOneByOne`), with the position of the first key whose item cannot be read turned into the one of
its chunk.

Main result: `fetch_eq_readOneByOne`.
-/

namespace ItemMapper

theorem Text.parts_eq_splitOn (divider : Char) (cs : List Char) : parts divider cs = cs.splitOn divider := by
  induction cs with
  | nil => rfl
  | cons c rest ih =>
    rw [parts, ih, List.splitOn, List.splitOn, List.splitOnP_cons_eq_if_modifyHead]
    by_cases same : c = divider
    · simp [same]
    · obtain ⟨first, others, split⟩ := List.exists_cons_of_ne_nil (List.splitOnP_ne_nil (· == divider) rest)
      simp [same, split]

/-! ### One key after another -/

/--
Whether a read asks for an attribute. Without a projection it asks for all of them. Otherwise some part of the
projection, between its commas and without the blanks around it, is the name of the attribute, or stands for it.
-/
def FetchOptions.asksFor (options : FetchOptions) (name : String) : Bool :=
  match options.projection with
  | none => true
  | some projection => (projection.toList.splitOn ',').any fun part =>
    let word := String.ofList (Text.trim part)
    match options.names.bind fun names => Fields.get? names word with
    | some meant => meant == name
    | none => word == name

/--
What a table holds under a key, as far as a read asks for it: the item with the text of the key attribute, cut
down to the attributes that are asked for.
-/
def FetchOptions.lookUp? (options : FetchOptions) (keyAttribute : String) (stored : Fields WireItem)
    (key : WireItem) : Option WireItem :=
  let text := (Fields.get? key keyAttribute).bind fun value => value.string? <|> value.number?
  (text.bind (Fields.get? stored)).map (List.filter fun (name, _) => options.asksFor name)

/--
Reads what is found under some keys, one after another; the first key has the given position. If an item
cannot be read, the result is the position of its key, and why.
-/
def readOneByOne (lookUp? : WireItem → Option WireItem) (readItem : WireItem → Result Item) (position : Nat) :
    List WireItem → Except (Nat × Error) (List Item)
  | [] => .ok []
  | key :: rest =>
    match lookUp? key with
    | none => readOneByOne lookUp? readItem (position + 1) rest
    | some wire =>
      match readItem wire with
      | .error cause => .error (position, cause)
      | .ok item => (readOneByOne lookUp? readItem (position + 1) rest).map (item :: ·)

section

variable {lookUp? : WireItem → Option WireItem} {readItem : WireItem → Result Item}

theorem readOneByOne_of_none {key : WireItem} (missing : lookUp? key = none) (position : Nat)
    (rest : List WireItem) :
    readOneByOne lookUp? readItem position (key :: rest) =
      readOneByOne lookUp? readItem (position + 1) rest := by
  simp only [readOneByOne, missing]

theorem readOneByOne_of_error {key wire : WireItem} {cause : Error} (found : lookUp? key = some wire)
    (fails : readItem wire = .error cause) (position : Nat) (rest : List WireItem) :
    readOneByOne lookUp? readItem position (key :: rest) = .error (position, cause) := by
  simp only [readOneByOne, found, fails]

theorem readOneByOne_of_ok {key wire : WireItem} {item : Item} (found : lookUp? key = some wire)
    (read : readItem wire = .ok item) (position : Nat) (rest : List WireItem) :
    readOneByOne lookUp? readItem position (key :: rest) =
      (readOneByOne lookUp? readItem (position + 1) rest).map (item :: ·) := by
  simp only [readOneByOne, found, read]

/-- Keys can be read in two parts, if the positions go on. -/
theorem readOneByOne_append (position : Nat) (front back : List WireItem) :
    readOneByOne lookUp? readItem position (front ++ back) = (do
      let items ← readOneByOne lookUp? readItem position front
      let others ← readOneByOne lookUp? readItem (position + front.length) back
      return items ++ others) := by
  induction front generalizing position with
  | nil =>
    rw [List.nil_append, List.length_nil, Nat.add_zero]
    cases readOneByOne lookUp? readItem position back <;> rfl
  | cons key rest ih =>
    have moved : position + (key :: rest).length = position + 1 + rest.length := by
      rw [List.length_cons]
      omega
    rw [List.cons_append, moved]
    cases found : lookUp? key with
    | none => rw [readOneByOne_of_none found, readOneByOne_of_none found, ih]
    | some wire =>
      cases read : readItem wire with
      | error cause =>
        rw [readOneByOne_of_error found read, readOneByOne_of_error found read]
        rfl
      | ok item =>
        rw [readOneByOne_of_ok found read, readOneByOne_of_ok found read, ih]
        cases readOneByOne lookUp? readItem (position + 1) rest with
        | error fault => rfl
        | ok items => cases readOneByOne lookUp? readItem (position + 1 + rest.length) back <;> rfl

/-- Among keys of one chunk, the failure is the one of reading everything that is found. -/
theorem readOneByOne_chunk {size index position : Nat} {keys : List WireItem}
    (inside : ∀ place < keys.length, (position + place) / size = index) :
    (readOneByOne lookUp? readItem position keys).mapError
      (fun fault => Error.chunk (fault.1 / size) fault.2) =
      ((keys.filterMap lookUp?).mapM readItem).mapError (Error.chunk index) := by
  induction keys generalizing position with
  | nil => rfl
  | cons key rest ih =>
    have first : position / size = index := inside 0 (by simp)
    have rest_inside : ∀ place < rest.length, (position + 1 + place) / size = index := by
      intro place below
      rw [Nat.add_assoc, Nat.add_comm 1]
      exact inside (place + 1) (by simpa using below)
    have others := ih rest_inside
    cases found : lookUp? key with
    | none =>
      rw [List.filterMap_cons_none found, readOneByOne_of_none found]
      exact others
    | some wire =>
      rw [List.filterMap_cons_some found, List.mapM_cons]
      cases read : readItem wire with
      | error cause =>
        rw [readOneByOne_of_error found read, ← first]
        rfl
      | ok item =>
        rw [readOneByOne_of_ok found read, mapError_map, others, ← mapError_map]
        cases (rest.filterMap lookUp?).mapM readItem <;> rfl

end

/-! ### One call -/

variable {read : BatchRead} {store : TableStore} {stored : Fields WireItem}

/--
The reply to a request for keys of one table: what is found under the keys that a page has room for, while the
others are left.
-/
def BatchRead.page (read : BatchRead) (store : TableStore) (stored : Fields WireItem) (keys : List WireItem) :
    BatchResponse where
  items := [(read.table, (keys.take store.pageLimit).filterMap
    (read.options.lookUp? store.keyAttribute stored))]
  unprocessed :=
    if (keys.drop store.pageLimit).isEmpty then none
    else some [(read.table, read.options.requestFor (keys.drop store.pageLimit))]

namespace TableStore

theorem call_of_throttles {throttles : Nat} (busy : store.throttles = throttles + 1)
    (request : BatchRequest) :
    transport.call request store = (.error throttled, { store with throttles }) := by
  simp [transport, busy]

theorem call_of_ready (ready : store.throttles = 0) (request : BatchRequest) :
    transport.call request store = (store.serve request, store) := by
  simp [transport, ready]

/-- The store cuts an item down to the attributes that the options ask for. -/
theorem project_requestFor (options : FetchOptions) (asked : List WireItem) (item : WireItem) :
    project (options.requestFor asked) item = item.filter fun (name, _) => options.asksFor name := by
  unfold project
  cases shown : options.projection with
  | none => simp [FetchOptions.requestFor, FetchOptions.asksFor, shown]
  | some projection =>
    simp only [FetchOptions.requestFor, shown]
    apply List.filter_congr
    intro entry _
    rw [Bool.eq_iff_iff, decide_eq_true_iff, projectedNames, Text.parts_eq_splitOn]
    simp only [FetchOptions.asksFor, shown, List.mem_map, List.any_eq_true]
    apply exists_congr
    intro part
    apply and_congr_right
    intro _
    -- A name without meaning is meant itself.
    cases options.names with
    | none => simp [Fields.get?]
    | some names =>
      simp only [Option.getD_some, Option.bind_some]
      cases Fields.get? names (String.ofList (Text.trim part)) <;> simp

/-- What the store brings for keys is what the options of the request find under each of them. -/
theorem lookUp_project (options : FetchOptions) (store : TableStore) (stored : Fields WireItem)
    (keys asked : List WireItem) :
    (store.lookUp stored keys).map (project (options.requestFor asked)) =
      keys.filterMap (options.lookUp? store.keyAttribute stored) := by
  rw [lookUp, List.map_filterMap, funext (project_requestFor options asked)]
  rfl

theorem serveTable_requestFor {table : String} (present : Fields.get? store.tables table = some stored)
    (options : FetchOptions) (keys : List WireItem) :
    store.serveTable table (options.requestFor keys) = .ok
      ((keys.take store.pageLimit).filterMap (options.lookUp? store.keyAttribute stored),
        if (keys.drop store.pageLimit).isEmpty then none
        else some (options.requestFor (keys.drop store.pageLimit))) := by
  rw [← lookUp_project options store stored (keys.take store.pageLimit) keys, serveTable, present]
  rfl

theorem serve_requestFor (present : Fields.get? store.tables read.table = some stored)
    {keys : List WireItem} (few : keys.length ≤ greatestChunkSize) :
    store.serve { tables := [(read.table, read.options.requestFor keys)] } =
      .ok (read.page store stored keys) := by
  have counted : ¬ greatestChunkSize < BatchRequest.keyCount
      { tables := [(read.table, read.options.requestFor keys)] } := by
    simpa [BatchRequest.keyCount, FetchOptions.requestFor] using few
  rw [serve, if_neg counted, serveTables, serveTable_requestFor present, BatchRead.page]
  by_cases last : (keys.drop store.pageLimit).isEmpty
  · rw [if_pos last, if_pos last]
    rfl
  · rw [if_neg last, if_neg last]
    rfl

/-- A refusal does not end a run, as long as it is within the limit. -/
theorem isFinal_throttled {limit : Option Nat} {failures : Nat}
    (patient : ∀ most, limit = some most → failures ≤ most) :
    throttled.isFinal limit failures = false := by
  cases limit with
  | none => rfl
  | some most =>
    have within : ¬ most < failures := Nat.not_lt.mpr (patient most rfl)
    simp [TransportError.isFinal, throttled, exceedsLimit, within]

end TableStore

/-! ### One chunk -/

namespace BatchRead

theorem leftFor_page (read : BatchRead) (store : TableStore) (stored : Fields WireItem)
    (keys : List WireItem) :
    Cursor.leftFor (read.page store stored keys) read.table =
      if (keys.drop store.pageLimit).isEmpty then none
      else some (read.options.requestFor (keys.drop store.pageLimit)) := by
  unfold Cursor.leftFor page
  by_cases last : (keys.drop store.pageLimit).isEmpty
  · simp [last]
  · simp [last, Fields.get?]

theorem keysLeft_page (read : BatchRead) (store : TableStore) (stored : Fields WireItem)
    (keys : List WireItem) :
    (read.page store stored keys).keysLeft read.table = keys.drop store.pageLimit := by
  rw [BatchResponse.keysLeft, leftFor_page]
  by_cases last : (keys.drop store.pageLimit).isEmpty
  · rw [if_pos last]
    exact (List.isEmpty_iff.mp last).symm
  · rw [if_neg last]
    rfl

theorem itemsFor_page (read : BatchRead) (store : TableStore) (stored : Fields WireItem)
    (keys : List WireItem) :
    Cursor.itemsFor (read.page store stored keys) read.table =
      (keys.take store.pageLimit).filterMap (read.options.lookUp? store.keyAttribute stored) := by
  simp [Cursor.itemsFor, page, Fields.get?]

/-- A cursor of a read asks for keys of its table only, and in the way of its options. -/
def Owns (read : BatchRead) (cursor : Cursor) : Prop :=
  cursor.table = read.table ∧
    (cursor.remaining = none ∨ ∃ keys, cursor.remaining = some (read.options.requestFor keys))

theorem owns_cursor (read : BatchRead) (keys : List WireItem) : read.Owns (read.cursor keys) :=
  ⟨rfl, .inr ⟨keys, rfl⟩⟩

section

variable {cursor : Cursor}

theorem Owns.eq_of_nextRequest? (owns : read.Owns cursor) {request : BatchRequest}
    (asks : cursor.nextRequest? = some request) :
    request = { tables := [(read.table, read.options.requestFor cursor.remainingKeys)] } ∧
      cursor.remainingKeys ≠ [] := by
  obtain ⟨table_same, none_left | ⟨keys, left⟩⟩ := owns
  · simp [Cursor.nextRequest?, none_left] at asks
  · have remaining : cursor.remainingKeys = keys := by
      rw [Cursor.remainingKeys, left]
      rfl
    rw [Cursor.nextRequest?, left] at asks
    by_cases empty : keys.isEmpty
    · simp [FetchOptions.requestFor, empty] at asks
    · simp only [FetchOptions.requestFor, empty] at asks
      cases asks
      rw [remaining, ← table_same]
      exact ⟨rfl, by simpa using empty⟩

theorem Owns.advance_page (owns : read.Owns cursor) (store : TableStore) (stored : Fields WireItem)
    (keys : List WireItem) : read.Owns (cursor.advance (read.page store stored keys)) := by
  refine ⟨owns.1, ?_⟩
  change Cursor.leftFor (read.page store stored keys) cursor.table = none ∨
    ∃ others, Cursor.leftFor (read.page store stored keys) cursor.table = _
  rw [owns.1, leftFor_page]
  by_cases last : (keys.drop store.pageLimit).isEmpty
  · exact .inl (if_pos last)
  · exact .inr ⟨_, if_neg last⟩

theorem Owns.remainingKeys_advance_page (owns : read.Owns cursor) (store : TableStore)
    (stored : Fields WireItem) :
    (cursor.advance (read.page store stored cursor.remainingKeys)).remainingKeys =
      cursor.remainingKeys.drop store.pageLimit := by
  rw [Cursor.remainingKeys_advance, owns.1, keysLeft_page]

/-- A page changes nothing about what a cursor accounts for. -/
theorem Owns.account_advance_page (owns : read.Owns cursor) (store : TableStore)
    (stored : Fields WireItem) :
    (cursor.advance (read.page store stored cursor.remainingKeys)).account
        (read.options.lookUp? store.keyAttribute stored) =
      cursor.account (read.options.lookUp? store.keyAttribute stored) := by
  rw [Cursor.account_advance, owns.1, itemsFor_page, keysLeft_page, ← List.filterMap_append,
    List.take_append_drop, Cursor.account]

end

theorem drainFrom_of_done {limit : Option Nat} {calls failures : Nat} {cursor : Cursor}
    (done : cursor.isDone) (lookup : WireItem → Option WireItem) :
    ∃ throttles ≤ store.throttles,
      Cursor.drainFrom TableStore.transport limit calls failures cursor store =
        (some (.ok (cursor.account lookup)), { store with throttles }) := by
  refine ⟨store.throttles, Nat.le_refl _, ?_⟩
  rw [Cursor.drainFrom_of_isDone done, Cursor.account_of_isDone done]

/--
A cursor that is drained from the table brings what it accounts for: each call either is refused, of which
there are finitely many, or takes keys away.
-/
theorem drainFrom_table (present : Fields.get? store.tables read.table = some stored)
    (room : 0 < store.pageLimit) {limit : Option Nat} {calls failures : Nat} {cursor : Cursor}
    (owns : read.Owns cursor) (few : cursor.remainingKeys.length ≤ greatestChunkSize)
    (patient : ∀ most, limit = some most → failures + store.throttles ≤ most)
    (enough : cursor.remainingKeys.length + store.throttles ≤ calls) :
    ∃ throttles ≤ store.throttles,
      Cursor.drainFrom TableStore.transport limit calls failures cursor store =
        (some (.ok (cursor.account (read.options.lookUp? store.keyAttribute stored))),
          { store with throttles }) := by
  induction calls generalizing store failures cursor with
  | zero =>
    have none_left : cursor.remainingKeys = [] := List.length_eq_zero_iff.mp (by omega)
    exact drainFrom_of_done (List.isEmpty_iff.mpr none_left) _
  | succ calls ih =>
    cases asks : cursor.nextRequest? with
    | none => exact drainFrom_of_done (Cursor.nextRequest?_eq_none_iff.mp asks) _
    | some request =>
      obtain ⟨rfl, some_left⟩ := owns.eq_of_nextRequest? asks
      cases busy : store.throttles with
      | zero =>
        -- The page has room for a key at least, so fewer keys are left.
        have called := TableStore.call_of_ready busy
          { tables := [(read.table, read.options.requestFor cursor.remainingKeys)] }
        rw [TableStore.serve_requestFor present few] at called
        have left := owns.remainingKeys_advance_page store stored
        have some_length := List.length_pos_iff.mpr some_left
        have still_few : (cursor.remainingKeys.drop store.pageLimit).length ≤ greatestChunkSize := by
          rw [List.length_drop]
          omega
        have still_patient : ∀ most, limit = some most → 0 + store.throttles ≤ most := by
          intro most limited
          have := patient most limited
          omega
        have still_enough :
            (cursor.remainingKeys.drop store.pageLimit).length + store.throttles ≤ calls := by
          rw [List.length_drop]
          omega
        rw [← left] at still_few still_enough
        obtain ⟨throttles, fewer, drained⟩ := ih present room (owns.advance_page store stored _) still_few
          still_patient still_enough
        refine ⟨throttles, by omega, ?_⟩
        rw [Cursor.drainFrom_of_ok asks called, drained, owns.account_advance_page]
      | succ throttles =>
        -- The call is refused, and the same request is made again.
        have called := TableStore.call_of_throttles busy
          { tables := [(read.table, read.options.requestFor cursor.remainingKeys)] }
        have within : ∀ most, limit = some most → failures + 1 + throttles ≤ most := by
          intro most limited
          have := patient most limited
          omega
        have again : TableStore.throttled.isFinal limit (failures + 1) = false := by
          apply TableStore.isFinal_throttled
          intro most limited
          have := within most limited
          omega
        have still_enough : cursor.remainingKeys.length + throttles ≤ calls := by omega
        obtain ⟨fewer, below, drained⟩ :=
          @ih { store with throttles } present room (failures + 1) cursor owns few within still_enough
        refine ⟨fewer, Nat.le_succ_of_le below, ?_⟩
        rw [Cursor.drainFrom_of_error asks called, again, if_neg Bool.false_ne_true]
        exact drained

theorem fetchChunk_table (present : Fields.get? store.tables read.table = some stored)
    (room : 0 < store.pageLimit)
    (patient : ∀ most, read.settings.maxRetries = some most → store.throttles ≤ most)
    {keys : List WireItem} (few : keys.length ≤ greatestChunkSize) {calls : Nat}
    (enough : keys.length + store.throttles ≤ calls) :
    ∃ throttles ≤ store.throttles,
      read.fetchChunk TableStore.transport calls keys store =
        (some (read.readItems (keys.filterMap (read.options.lookUp? store.keyAttribute stored))),
          { store with throttles }) := by
  have not_failed : ∀ most, read.settings.maxRetries = some most → 0 + store.throttles ≤ most := by
    intro most limited
    rw [Nat.zero_add]
    exact patient most limited
  obtain ⟨throttles, fewer, drained⟩ := drainFrom_table present room (read.owns_cursor keys) few not_failed
    enough
  refine ⟨throttles, fewer, ?_⟩
  rw [fetchChunk, Cursor.drain, drained]
  rfl

/-! ### All chunks -/

/-- The position behind a chunk is the one of the next chunk, if there are more keys. -/
theorem next_position (lookUp? : WireItem → Option WireItem) (readItem : WireItem → Result Item) {size : Nat}
    (positive : 0 < size) (index : Nat) (key : WireItem) (rest : List WireItem) :
    readOneByOne lookUp? readItem (index * size + (key :: rest.take (size - 1)).length)
        (rest.drop (size - 1)) =
      readOneByOne lookUp? readItem ((index + 1) * size) (rest.drop (size - 1)) := by
  by_cases last : rest.length ≤ size - 1
  · rw [List.drop_eq_nil_of_le last]
    rfl
  · have full : (key :: rest.take (size - 1)).length = size := by
      rw [List.length_cons, List.length_take]
      omega
    rw [full, Nat.succ_mul]

theorem fetchChunks_cons {σ : Type} {transport : Transport σ} {calls index : Nat} {chunk : List WireItem}
    {rest : List (List WireItem)} {state after : σ} {fetched others : Result (List Item)}
    (first : read.fetchChunk transport calls chunk state = (some fetched, after))
    (behind : (read.fetchChunks transport calls (index + 1) rest after).1 = some others) :
    (read.fetchChunks transport calls index (chunk :: rest) state).1 = some (do
      let items ← fetched.mapError (Error.chunk index)
      let more ← others
      return items ++ more) := by
  rw [fetchChunks, first]
  cases fetched with
  | error cause => rfl
  | ok items =>
    rcases later : read.fetchChunks transport calls (index + 1) rest after with ⟨outcome, last⟩
    rw [later] at behind
    cases behind
    simp only [later]
    cases others <;> rfl

theorem chunkSize_of_validate {settings : Settings} (valid : settings.validate = .ok ()) :
    0 < settings.chunkSize ∧ settings.chunkSize ≤ greatestChunkSize := by
  unfold Settings.validate at valid
  split at valid
  next => cases valid
  next usable =>
    obtain ⟨some_size, small⟩ := not_or.mp usable
    exact ⟨Nat.pos_of_ne_zero some_size, Nat.le_of_not_lt small⟩

/-- Chunk after chunk, the items are those of the keys one after another. -/
theorem fetchChunks_table (present : Fields.get? store.tables read.table = some stored)
    (room : 0 < store.pageLimit)
    (patient : ∀ most, read.settings.maxRetries = some most → store.throttles ≤ most)
    {size : Nat} (positive : 0 < size) (few : size ≤ greatestChunkSize) {keys : List WireItem} {calls : Nat}
    (enough : keys.length + store.throttles ≤ calls) (index : Nat) :
    (read.fetchChunks TableStore.transport calls index (chunks size keys) store).1 =
      some ((readOneByOne (read.options.lookUp? store.keyAttribute stored)
        (Codec.readItem read.gateway read.types read.options.decrypting) (index * size) keys).mapError
          fun fault => .chunk (fault.1 / size) fault.2) := by
  -- The induction is on the chunks; only the last one may be shorter, and no position follows it.
  fun_induction chunks size keys generalizing index store with
  | case1 => rfl
  | case2 key rest ih =>
    have shorter : (key :: rest.take (size - 1)).length ≤ size := by
      rw [List.length_cons, List.length_take]
      omega
    rw [List.length_cons] at enough
    have chunk_enough : (key :: rest.take (size - 1)).length + store.throttles ≤ calls := by
      rw [List.length_cons, List.length_take]
      omega
    obtain ⟨throttles, fewer, fetched⟩ :=
      fetchChunk_table present room patient (Nat.le_trans shorter few) chunk_enough
    have split : key :: rest = (key :: rest.take (size - 1)) ++ rest.drop (size - 1) := by
      rw [List.cons_append, List.take_append_drop]
    have inside : ∀ place < (key :: rest.take (size - 1)).length, (index * size + place) / size = index := by
      intro place below
      rw [Nat.mul_comm, Nat.mul_add_div positive, Nat.div_eq_of_lt (by omega), Nat.add_zero]
    have goes_on := next_position (read.options.lookUp? store.keyAttribute stored)
      (Codec.readItem read.gateway read.types read.options.decrypting) positive index key rest
    have rest_enough : (rest.drop (size - 1)).length + throttles ≤ calls := by
      rw [List.length_drop]
      omega
    have others := @ih { store with throttles } present room
      (fun most limited => Nat.le_trans fewer (patient most limited)) rest_enough (index + 1)
    rw [fetchChunks_cons fetched others, split, readOneByOne_append, goes_on, mapError_bind,
      readOneByOne_chunk inside]
    simp only [mapError_bind]
    rfl

/--
Fetching from a table in memory comes down to looking up the keys one after another and reading what is found,
whatever the size of chunks, the room of a page and the calls that are refused. If an item cannot be read, the
fetch fails with the chunk of the first such key.
-/
theorem fetch_eq_readOneByOne {keys : List Item} {written : List WireItem} {calls : Nat}
    (valid : read.settings.validate = .ok ()) (room : 0 < store.pageLimit)
    (present : Fields.get? store.tables read.table = some stored)
    (patient : ∀ most, read.settings.maxRetries = some most → store.throttles ≤ most)
    (writes : read.writeKeys keys = .ok written) (enough : store.callsFor keys.length ≤ calls) :
    (read.fetch TableStore.transport calls keys store).1 =
      some ((readOneByOne (read.options.lookUp? store.keyAttribute stored)
        (Codec.readItem read.gateway read.types read.options.decrypting) 0 written).mapError
          fun fault => .chunk (fault.1 / read.settings.chunkSize) fault.2) := by
  obtain ⟨positive, few⟩ := chunkSize_of_validate valid
  have same_length : written.length = keys.length := length_of_mapM writes
  have calls_enough : written.length + store.throttles ≤ calls := by
    rw [TableStore.callsFor] at enough
    omega
  rw [fetch, valid]
  simp only [writes]
  rw [fetchChunks_table present room patient positive few calls_enough, Nat.zero_mul]

/--
Two calls are refused, a page has room for one key, and a chunk for two. The keys ask for a string, for
nothing, for a number, for the first one again, and for an item with a date that is none. Without the last one
the fetch brings the attributes of the projection, and not the others.
-/
theorem fetch_eq_readOneByOne_unreadable :
    let store : TableStore :=
      { keyAttribute := "id"
        tables := [("t", [("7", [("id", .number "7"), ("name", .string "Seven")]),
          ("a", [("at", .null true), ("id", .string "a"), ("name", .string "Ann")]),
          ("b", [("at", .string "never"), ("id", .string "b")])])]
        pageLimit := 1
        throttles := 2 }
    let read : BatchRead :=
      { table := "t"
        types := [("at", .leaf .date)]
        settings := { chunkSize := 2, maxRetries := some 2 }
        options := { projection := some "id , #day", names := some [("#day", "at")] } }
    let keys : List Item := [[("id", .string "a")], [("n", .null)], [("id", .number (.integer 7))],
      [("id", .string "a")]]
    let unreadable : List Item := keys ++ [[("id", .string "b")]]
    read.settings.validate = .ok () ∧ store.callsFor keys.length ≤ 8 ∧ store.callsFor unreadable.length ≤ 8 ∧
      (read.fetch TableStore.transport 8 keys store).1 = some (.ok [[("at", .null), ("id", .string "a")],
        [("id", .number (.integer 7))], [("at", .null), ("id", .string "a")]]) ∧
      (read.fetch TableStore.transport 8 unreadable store).1 =
        some (.error (.chunk 2 (.read "at" (.invalidDate "never")))) := by
  intro store read keys unreadable
  have valid : read.settings.validate = .ok () := rfl
  have room : 0 < store.pageLimit := by decide
  have present : Fields.get? store.tables read.table = some _ := rfl
  have patient : ∀ most, read.settings.maxRetries = some most → store.throttles ≤ most := by
    intro most limited
    cases limited
    exact Nat.le_refl 2
  have writes : read.writeKeys keys = .ok _ := rfl
  have unreadable_writes : read.writeKeys unreadable = .ok _ := rfl
  have enough : store.callsFor keys.length ≤ 8 := by decide
  have unreadable_enough : store.callsFor unreadable.length ≤ 8 := by decide
  have fetched := fetch_eq_readOneByOne valid room present patient writes enough
  have unreadable_fetched := fetch_eq_readOneByOne valid room present patient unreadable_writes unreadable_enough
  refine ⟨valid, enough, unreadable_enough, fetched.trans ?_, unreadable_fetched.trans ?_⟩
  · cbv
  · cbv

end BatchRead

end ItemMapper
