import ItemMapper.Proofs.DrainTrace
import ItemMapper.Proofs.FetchedItems
import ItemMapper.Proofs.ReadOutcome

/-!
# How a fetch ends

A fetch drains one chunk of keys after another. It brings the items of all chunks, or it fails with the
first chunk that fails, and asks for nothing after that (`BatchRead.EndsWith`). What is wrong with the
settings or with a key comes before any call.

Main result: this holds for every transport, whatever it answers (`fetch_all_or_nothing`).
-/

namespace ItemMapper

variable {σ : Type}

/-! ### Pieces -/

/-- A list cut in order: no piece is empty or longer than a size, and only the last one may be shorter. -/
structure IsCut {α : Type} (size : Nat) (whole : List α) (pieces : List (List α)) : Prop where
  joined : pieces.flatten = whole
  bounds : ∀ piece ∈ pieces, 1 ≤ piece.length ∧ piece.length ≤ size
  full : ∀ piece ∈ pieces.dropLast, piece.length = size

theorem length_of_mem_dropLast_chunks {α : Type} {size : Nat} (positive : 0 < size) {xs piece : List α}
    (member : piece ∈ (chunks size xs).dropLast) : piece.length = size := by
  fun_induction chunks size xs with
  | case1 => cases member
  | case2 x rest ih =>
    cases behind : chunks size (rest.drop (size - 1)) with
    | nil =>
      rw [behind] at member
      cases member
    | cons next others =>
      rw [behind] at ih member
      rcases List.mem_cons.mp member with rfl | member
      · -- There is another piece, so the list goes on behind this one.
        have goes_on : rest.drop (size - 1) ≠ [] := by
          intro ended
          rw [ended, chunks] at behind
          cases behind
        have longer := List.length_pos_iff.mpr goes_on
        rw [List.length_drop] at longer
        rw [List.length_cons, List.length_take]
        omega
      · exact ih member

theorem isCut_chunks {α : Type} {size : Nat} (positive : 0 < size) (xs : List α) :
    IsCut size xs (chunks size xs) where
  joined := flatten_chunks size xs
  bounds _ member :=
    ⟨List.length_pos_iff.mpr (ne_nil_of_mem_chunks member), length_le_of_mem_chunks positive member⟩
  full _ member := length_of_mem_dropLast_chunks positive member

/-! ### Faults of reading -/

/-- An error about a field is not one that passes. -/
theorem Error.isRetryable_of_path? {fault : Error} {path : String} (named : fault.path? = some path) :
    fault.isRetryable = false := by
  cases fault with
  | transport | chunk => cases named
  | _ => rfl

theorem Codec.isRetryable_of_readFields {gateway : Gateway} {decrypting : Bool} {types : DatatypeMap}
    {parent : String} {fields : WireItem} {fault : Error}
    (failed : readFields gateway decrypting types parent fields = .error fault) : fault.isRetryable = false := by
  obtain ⟨name, wire, leaf, -, -, fails⟩ := exists_of_readFields_error fields failed
  exact Error.isRetryable_of_path? fails.path?_eq

/-! ### Runs of chunks -/

/-- A chunk that a fetch came to: its keys, what went through the transport, and how its cursor ended. -/
structure ChunkRun where
  keys : List WireItem
  trace : List Exchange
  drained : Option (Except TransportError (List WireItem))

namespace BatchRead

variable {read : BatchRead} {transport : Transport σ} {calls index : Nat} {state later after : σ}
  {keys : List WireItem} {rest pieces : List (List WireItem)} {run : ChunkRun} {runs : List ChunkRun}

/-- Reads an item that has been received. -/
def readItem (read : BatchRead) (wire : WireItem) : Result Item :=
  Codec.readItem read.gateway read.types read.options.decrypting wire

/-- What has been received is read, one item from each and in the same order. -/
def Reads (read : BatchRead) (received : List WireItem) (items : List Item) : Prop :=
  List.Forall₂ (fun wire item => read.readItem wire = .ok item) received items

/-- A chunk was drained, and all its items can be read. -/
def Succeeds (read : BatchRead) (run : ChunkRun) : Prop :=
  ∃ received items, run.drained = some (.ok received) ∧ read.Reads received items

/-- A chunk failed on the way to the store, or at the first of its items that cannot be read. -/
inductive FailsWith (read : BatchRead) (run : ChunkRun) : Error → Prop
  | transport {failure : TransportError} : run.drained = some (.error failure) →
      FailsWith read run (.transport failure)
  | unreadable {front back : List WireItem} {wire : WireItem} {cause : Error} :
      run.drained = some (.ok (front ++ wire :: back)) →
      (∀ other ∈ front, ∃ item, read.readItem other = .ok item) → read.readItem wire = .error cause →
      FailsWith read run cause

/-- Chunks are drained one after another, each with the transport as the one before left it. -/
inductive Drains (read : BatchRead) (transport : Transport σ) (calls : Nat) : List ChunkRun → σ → σ → Prop
  | done {state : σ} : Drains read transport calls [] state state
  | next {run : ChunkRun} {runs : List ChunkRun} {state between after : σ} :
      IsRun transport state between read.table (read.options.requestFor run.keys) read.settings.maxRetries
        calls run.trace run.drained →
      Drains read transport calls runs between after → Drains read transport calls (run :: runs) state after

/--
The outcome of a fetch after it came to some chunks, the first of which has the given position: either it
came to all, and has an item for each one received, or the last one it came to failed or did not end.
-/
inductive EndsWith (read : BatchRead) (pieces : List (List WireItem)) (index : Nat) (runs : List ChunkRun) :
    Option (Result (List Item)) → Prop
  | ok {received : List (List WireItem)} {items : List Item} : runs.map ChunkRun.keys = pieces →
      runs.map ChunkRun.drained = received.map (fun wires => some (.ok wires)) →
      read.Reads received.flatten items → EndsWith read pieces index runs (some (.ok items))
  | error {early : List ChunkRun} {last : ChunkRun} {cause : Error} : runs = early ++ [last] →
      (∀ run ∈ early, read.Succeeds run) → read.FailsWith last cause →
      EndsWith read pieces index runs (some (.error (.chunk (index + early.length) cause)))
  | unfinished {early : List ChunkRun} {last : ChunkRun} : runs = early ++ [last] →
      (∀ run ∈ early, read.Succeeds run) → last.drained = none → EndsWith read pieces index runs none

/-- What goes through the transport in a fetch, in order. -/
def exchanges (read : BatchRead) (transport : Transport σ) (calls : Nat) (keys : List Item) (state : σ) :
    List Exchange :=
  (read.fetch transport.recorded calls keys (state, [])).2.2

/-! ### One chunk -/

/-- The run of a chunk. -/
def chunkRun (read : BatchRead) (transport : Transport σ) (calls : Nat) (keys : List WireItem) (state : σ) :
    ChunkRun where
  keys := keys
  trace := Cursor.exchanges transport read.settings.maxRetries calls (read.cursor keys) state
  drained := ((read.cursor keys).drain transport read.settings.maxRetries calls state).1

theorem fetchChunk_recorded (read : BatchRead) (transport : Transport σ) (calls : Nat) (keys : List WireItem)
    (state : σ) (log : List Exchange) :
    read.fetchChunk transport.recorded calls keys (state, log) =
      ((read.fetchChunk transport calls keys state).1, (read.fetchChunk transport calls keys state).2,
        log ++ (read.chunkRun transport calls keys state).trace) := by
  rw [fetchChunk, Cursor.drain_recorded]
  rfl

theorem fetchChunk_fst (read : BatchRead) (transport : Transport σ) (calls : Nat) (keys : List WireItem)
    (state : σ) :
    (read.fetchChunk transport calls keys state).1 =
      (read.chunkRun transport calls keys state).drained.map read.readDrained :=
  rfl

theorem drains_chunkRun (fetched : (read.fetchChunk transport calls keys state).2 = later)
    (behind : read.Drains transport calls runs later after) :
    read.Drains transport calls (read.chunkRun transport calls keys state :: runs) state after := by
  subst fetched
  exact .next (Cursor.drain_isRun transport read.settings.maxRetries calls read.table
    (read.options.requestFor keys) state).1 behind

theorem reads_iff {received : List WireItem} {items : List Item} :
    read.readItems received = .ok items ↔ read.Reads received items :=
  mapM_eq_ok_iff_forall₂

theorem chunkRun_cases (read : BatchRead) (transport : Transport σ) (calls : Nat) (keys : List WireItem)
    (state : σ) :
    (read.chunkRun transport calls keys state).drained = none ∧
        (read.fetchChunk transport calls keys state).1 = none ∨
      (∃ cause, read.FailsWith (read.chunkRun transport calls keys state) cause ∧
        (read.fetchChunk transport calls keys state).1 = some (.error cause)) ∨
      ∃ received items, (read.chunkRun transport calls keys state).drained = some (.ok received) ∧
        read.Reads received items ∧ (read.fetchChunk transport calls keys state).1 = some (.ok items) := by
  rw [fetchChunk_fst]
  rcases drained : (read.chunkRun transport calls keys state).drained with _ | failure | received
  · exact .inl ⟨rfl, rfl⟩
  · exact .inr (.inl ⟨_, .transport drained, rfl⟩)
  · cases read_all : read.readItems received with
    | ok items => exact .inr (.inr ⟨received, items, rfl, reads_iff.mp read_all, by simp [readDrained, read_all]⟩)
    | error cause =>
      -- The store answered in full, but one of the items cannot be read.
      obtain ⟨front, wire, back, rfl, fine, failed⟩ := mapM_eq_error_iff.mp read_all
      exact .inr (.inl ⟨cause, .unreadable drained fine failed, by simp [readDrained, read_all]⟩)

/-! ### All chunks -/

theorem fetchChunks_of_none (fetched : read.fetchChunk transport calls keys state = (none, later)) :
    read.fetchChunks transport calls index (keys :: rest) state = (none, later) := by
  simp only [fetchChunks, fetched]

theorem fetchChunks_of_error {cause : Error}
    (fetched : read.fetchChunk transport calls keys state = (some (.error cause), later)) :
    read.fetchChunks transport calls index (keys :: rest) state =
      (some (.error (.chunk index cause)), later) := by
  simp only [fetchChunks, fetched]

/-- The items of a chunk come before those of the chunks behind it, if these do not fail. -/
theorem fetchChunks_of_ok {items : List Item}
    (fetched : read.fetchChunk transport calls keys state = (some (.ok items), later)) :
    read.fetchChunks transport calls index (keys :: rest) state =
      ((read.fetchChunks transport calls (index + 1) rest later).1.map fun others => others.map (items ++ ·),
        (read.fetchChunks transport calls (index + 1) rest later).2) := by
  simp only [fetchChunks, fetched]
  rcases read.fetchChunks transport calls (index + 1) rest later with ⟨_ | cause | others, last⟩ <;> rfl

theorem EndsWith.of_failsWith {pieces : List (List WireItem)} {index : Nat} {cause : Error}
    (fails : read.FailsWith run cause) : read.EndsWith pieces index [run] (some (.error (.chunk index cause))) := by
  have alone : [run] = [] ++ [run] := rfl
  exact .error alone (List.forall_mem_nil _) fails

theorem EndsWith.of_unfinished {pieces : List (List WireItem)} {index : Nat} (open_ended : run.drained = none) :
    read.EndsWith pieces index [run] none := by
  have alone : [run] = [] ++ [run] := rfl
  exact .unfinished alone (List.forall_mem_nil _) open_ended

/-- A chunk that succeeds moves the chunks behind it on by one place. -/
theorem EndsWith.cons {received : List WireItem} {items : List Item} {outcome : Option (Result (List Item))}
    (drained : run.drained = some (.ok received)) (reads : read.Reads received items)
    (ends : read.EndsWith rest (index + 1) runs outcome) :
    read.EndsWith (run.keys :: rest) index (run :: runs)
      (outcome.map fun others => others.map (items ++ ·)) := by
  have succeeds : read.Succeeds run := ⟨received, items, drained, reads⟩
  cases ends with
  | @ok all others same all_drained all_read =>
    refine @EndsWith.ok _ _ _ _ (received :: all) (items ++ others) ?_ ?_ ?_
    · rw [List.map_cons, same]
    · rw [List.map_cons, List.map_cons, drained, all_drained]
    · exact List.rel_append reads all_read
  | @error early last cause split early_succeed fails =>
    have place : index + 1 + early.length = index + (run :: early).length := by
      rw [List.length_cons]
      omega
    have all_succeed : ∀ other ∈ run :: early, read.Succeeds other :=
      List.forall_mem_cons.mpr ⟨succeeds, early_succeed⟩
    -- The failed chunk keeps its place in the whole, counted from one chunk earlier.
    rw [place]
    exact .error (by rw [split, List.cons_append]) all_succeed fails
  | @unfinished early last split early_succeed open_ended =>
    have all_succeed : ∀ other ∈ run :: early, read.Succeeds other :=
      List.forall_mem_cons.mpr ⟨succeeds, early_succeed⟩
    exact .unfinished (by rw [split, List.cons_append]) all_succeed open_ended

/-- Fetching pieces comes to some of them, in order, and ends with the last one that it came to. -/
theorem exists_runs (read : BatchRead) (transport : Transport σ) (calls index : Nat)
    (pieces : List (List WireItem)) (state : σ) :
    ∃ runs, runs.map ChunkRun.keys <+: pieces ∧
      read.Drains transport calls runs state (read.fetchChunks transport calls index pieces state).2 ∧
      read.EndsWith pieces index runs (read.fetchChunks transport calls index pieces state).1 ∧
      ∀ log, read.fetchChunks transport.recorded calls index pieces (state, log) =
        ((read.fetchChunks transport calls index pieces state).1,
          (read.fetchChunks transport calls index pieces state).2, log ++ runs.flatMap ChunkRun.trace) := by
  -- The induction is on the pieces; each chunk leaves a position and a state to the next one.
  induction pieces generalizing index state with
  | nil =>
    refine ⟨[], List.nil_prefix, .done, @EndsWith.ok _ _ _ _ [] [] rfl rfl .nil, fun log => ?_⟩
    simp [fetchChunks]
  | cons keys rest ih =>
    have recorded := read.fetchChunk_recorded transport calls keys state
    have alone : [(read.chunkRun transport calls keys state).keys] <+: keys :: rest :=
      List.prefix_append [keys] rest
    rcases fetched : read.fetchChunk transport calls keys state with ⟨outcome, later⟩
    have moved : (read.fetchChunk transport calls keys state).2 = later := by rw [fetched]
    rw [fetched] at recorded
    rcases read.chunkRun_cases transport calls keys state with
      ⟨open_ended, ended⟩ | ⟨cause, fails, ended⟩ | ⟨received, items, drained, reads, ended⟩
    · obtain rfl : outcome = none := by rw [← ended, fetched]
      refine ⟨[read.chunkRun transport calls keys state], alone, ?_⟩
      rw [fetchChunks_of_none fetched]
      refine ⟨drains_chunkRun moved .done, .of_unfinished open_ended, fun log => ?_⟩
      rw [fetchChunks_of_none (recorded log), List.flatMap_singleton]
    · obtain rfl : outcome = some (.error cause) := by rw [← ended, fetched]
      refine ⟨[read.chunkRun transport calls keys state], alone, ?_⟩
      rw [fetchChunks_of_error fetched]
      refine ⟨drains_chunkRun moved .done, .of_failsWith fails, fun log => ?_⟩
      rw [fetchChunks_of_error (recorded log), List.flatMap_singleton]
    · obtain rfl : outcome = some (.ok items) := by rw [← ended, fetched]
      obtain ⟨runs, reached, drains, ends, rest_recorded⟩ := ih (index + 1) later
      refine ⟨read.chunkRun transport calls keys state :: runs, List.cons_prefix_cons.mpr ⟨rfl, reached⟩, ?_⟩
      rw [fetchChunks_of_ok fetched]
      refine ⟨drains_chunkRun moved drains, ends.cons drained reads, fun log => ?_⟩
      rw [fetchChunks_of_ok (recorded log), rest_recorded, List.flatMap_cons, List.append_assoc]

/-! ### What is asked for -/

/-- The first request of a run asks for everything. -/
theorem exists_first_exchange {table : String} {first : KeyRequest} {limit : Option Nat}
    {trace : List Exchange} {outcome : Option (Except TransportError (List WireItem))}
    (run : IsRun transport state after table first limit calls trace outcome) (some_keys : first.keys ≠ [])
    (some_calls : 0 < calls) : ∃ reply others, trace = ⟨{ tables := [(table, first)] }, reply⟩ :: others := by
  have begins : nextMove table first limit [] = .send { tables := [(table, first)] } := by
    simp [nextMove, Move.forLeft, some_keys]
  cases trace with
  | nil =>
    -- A run that has made no call would have ended, or have no calls to make.
    cases outcome with
    | none => exact absurd (run.unfinished rfl) (Nat.ne_of_lt some_calls)
    | some result =>
      rw [(run.ends result).mp rfl] at begins
      cases begins
  | cons exchange others =>
    have sent := run.sends [] exchange ⟨others, rfl⟩
    rw [begins] at sent
    exact ⟨exchange.reply, others, by rw [Move.send.inj sent]⟩

theorem Drains.isRun (drains : read.Drains transport calls runs state after) (member : run ∈ runs) :
    ∃ before behind, IsRun transport before behind read.table (read.options.requestFor run.keys)
      read.settings.maxRetries calls run.trace run.drained := by
  induction drains with
  | done => cases member
  | next first _ ih =>
    rcases List.mem_cons.mp member with rfl | member
    · exact ⟨_, _, first⟩
    · exact ih member

/-! ### Failures that pass -/

theorem FailsWith.isRetryable_iff {cause : Error} (fails : read.FailsWith run cause) :
    cause.isRetryable ↔ ∃ failure, run.drained = some (.error failure) ∧ failure.retryable := by
  cases fails with
  | transport drained => simp [drained, Error.isRetryable]
  | unreadable drained _ failed => simp [drained, Codec.isRetryable_of_readFields failed]

theorem EndsWith.isRetryable_iff {fault : Error}
    (ends : read.EndsWith pieces index runs (some (.error fault))) :
    fault.isRetryable ↔ ∃ run failure, runs.getLast? = some run ∧
      run.drained = some (.error failure) ∧ failure.retryable := by
  cases ends with
  | error split _ fails => simp [split, Error.isRetryable, fails.isRetryable_iff]

/-! ### Whole fetches -/

/--
How a fetch goes on when its keys are written: they are cut into pieces, which are drained one after
another, and the last one that is come to settles the outcome.
-/
structure IsFetch (read : BatchRead) (transport : Transport σ) (calls : Nat) (state after : σ)
    (written : List WireItem) (trace : List Exchange) (outcome : Option (Result (List Item)))
    (pieces : List (List WireItem)) (runs : List ChunkRun) : Prop where
  cut : IsCut read.settings.chunkSize written pieces
  small : read.settings.chunkSize ≤ greatestChunkSize
  reached : runs.map ChunkRun.keys <+: pieces
  asks : 0 < calls → ∀ run ∈ runs, ∃ reply others, run.trace =
    ⟨{ tables := [(read.table,
        { keys := run.keys
          projection := read.options.projection
          names := read.options.names
          consistentRead := read.options.consistentRead })] }, reply⟩ :: others
  drains : read.Drains transport calls runs state after
  recorded : trace = runs.flatMap ChunkRun.trace
  ends : read.EndsWith pieces 0 runs outcome
  passes : ∀ fault, outcome = some (.error fault) →
    (fault.isRetryable ↔ ∃ run failure, runs.getLast? = some run ∧
      run.drained = some (.error failure) ∧ failure.retryable)

theorem exists_isFetch (read : BatchRead) (transport : Transport σ) (calls : Nat) {keys : List Item}
    (state : σ) {written : List WireItem} (valid : read.settings.validate = .ok ())
    (writes : read.writeKeys keys = .ok written) :
    ∃ pieces runs, read.IsFetch transport calls state (read.fetch transport calls keys state).2 written
      (read.exchanges transport calls keys state) (read.fetch transport calls keys state).1 pieces runs := by
  obtain ⟨positive, small⟩ := chunkSize_of_validate valid
  have cut := isCut_chunks positive written
  obtain ⟨runs, reached, drains, ends, recorded⟩ :=
    read.exists_runs transport calls 0 (chunks read.settings.chunkSize written) state
  have fetched : read.fetch transport calls keys state =
      read.fetchChunks transport calls 0 (chunks read.settings.chunkSize written) state := by
    simp only [fetch, valid, writes]
  have trace : read.exchanges transport calls keys state = runs.flatMap ChunkRun.trace := by
    simp only [exchanges, fetch, valid, writes, recorded []]
    exact List.nil_append _
  rw [fetched]
  refine ⟨_, runs, cut, small, reached, ?_, drains, trace, ends, fun fault failed => ?_⟩
  · intro some_calls run member
    obtain ⟨before, behind, is_run⟩ := drains.isRun member
    have piece : run.keys ∈ chunks read.settings.chunkSize written :=
      reached.subset (List.mem_map_of_mem member)
    exact exists_first_exchange is_run (List.length_pos_iff.mp (cut.bounds _ piece).1) some_calls
  · rw [failed] at ends
    exact ends.isRetryable_iff

/--
A fetch is all or nothing. Without usable settings, or with a key that cannot be written, it fails before any
call, and without keys it brings nothing, without a call. Otherwise the keys are cut, in order, and the pieces
are drained one after another: either every item received has been read, or the fetch fails with the position
of the first piece that fails, and with its failure.
-/
theorem fetch_all_or_nothing (read : BatchRead) (transport : Transport σ) (calls : Nat) (keys : List Item)
    (state : σ) :
    let ran := read.fetch transport calls keys state
    let trace := read.exchanges transport calls keys state
    (∀ cause, read.settings.validate = .error cause →
      (∃ fault, cause = .setting fault) ∧ ran = (some (.error cause), state) ∧ trace = []) ∧
    (read.settings.validate = .ok () →
      (∀ front key back cause, keys = front ++ key :: back →
        (∀ other ∈ front, ∃ wire, Codec.writeItem read.gateway read.types false other = .ok wire) →
        Codec.writeItem read.gateway read.types false key = .error cause →
        ran = (some (.error cause), state) ∧ trace = []) ∧
      (keys = [] → ran = (some (.ok []), state) ∧ trace = []) ∧
      ∀ written, List.Forall₂ (fun key wire =>
          Codec.writeItem read.gateway read.types false key = .ok wire) keys written →
        ∃ pieces runs, read.IsFetch transport calls state ran.2 written trace ran.1 pieces runs) := by
  intro ran trace
  refine ⟨?_, fun valid => ⟨?_, ?_, ?_⟩⟩
  · intro cause invalid
    refine ⟨?_, by simp only [ran, fetch, invalid], by simp only [trace, exchanges, fetch, invalid]⟩
    unfold Settings.validate at invalid
    repeat' split at invalid
    all_goals
      cases invalid
      try exact ⟨_, rfl⟩
  · intro front key back cause split fine failed
    have unwritten : read.writeKeys keys = .error cause :=
      mapM_eq_error_iff.mpr ⟨front, key, back, split, fine, failed⟩
    exact ⟨by simp only [ran, fetch, valid, unwritten], by simp only [trace, exchanges, fetch, valid, unwritten]⟩
  · rintro rfl
    have nothing : read.writeKeys [] = .ok [] := rfl
    exact ⟨by simp only [ran, fetch, valid, nothing, chunks, fetchChunks],
      by simp only [trace, exchanges, fetch, valid, nothing, chunks, fetchChunks]⟩
  · intro written writes
    exact read.exists_isFetch transport calls state valid (mapM_eq_ok_iff_forall₂.mpr writes)

/--
The first piece takes two responses, with a failure that passes between them; the item of the second piece
has a date that is none, so the items of the first one are not returned either.
-/
theorem fetch_all_or_nothing_unreadable :
    let read : BatchRead :=
      { table := "t", types := [("at", .leaf .date)], settings := { chunkSize := 2, maxRetries := some 1 } }
    let keys : List Item := [[("id", .string "a")], [("id", .string "b")], [("id", .string "c")]]
    let replies : List Reply := [
      .ok { items := [("t", [[("id", .string "a")]])]
            unprocessed := some [("t", { keys := [[("id", .string "b")]] })] },
      .error ⟨true, "throttled", none⟩,
      .ok { items := [("t", [[("id", .string "b")]])] },
      .ok { items := [("t", [[("at", .string "never"), ("id", .string "c")]])] }]
    let trace := read.exchanges Transport.ofReplies 3 keys replies
    read.settings.validate = .ok () ∧ trace.length = 4 ∧
      ∃ written, List.Forall₂ (fun key wire =>
          Codec.writeItem read.gateway read.types false key = .ok wire) keys written ∧
        ∃ pieces runs, read.IsFetch Transport.ofReplies 3 replies [] written trace
          (some (.error (.chunk 1 (.read "at" (.invalidDate "never"))))) pieces runs := by
  intro read keys replies trace
  have valid : read.settings.validate = .ok () := rfl
  have writes : List.Forall₂ (fun key wire => Codec.writeItem read.gateway read.types false key = .ok wire)
      keys [[("id", .string "a")], [("id", .string "b")], [("id", .string "c")]] :=
    .cons rfl (.cons rfl (.cons rfl .nil))
  have ran : read.fetch Transport.ofReplies 3 keys replies =
      (some (.error (.chunk 1 (.read "at" (.invalidDate "never")))), []) := by
    cbv
  have counted : (read.exchanges Transport.ofReplies 3 keys replies).length = 4 := by
    cbv
  obtain ⟨pieces, runs, fetched⟩ :=
    ((fetch_all_or_nothing read Transport.ofReplies 3 keys replies).2 valid).2.2 _ writes
  rw [ran] at fetched
  exact ⟨valid, counted, _, writes, pieces, runs, fetched⟩

end BatchRead

end ItemMapper
