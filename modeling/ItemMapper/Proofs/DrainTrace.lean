import ItemMapper.Proofs.DrainedItems

/-!
# The trace of a drained cursor

What a cursor does next is fixed by the exchanges it has had so far: it asks for what the last response
left, it sends a request that failed once more, or it ends (`nextMove`). A drained cursor makes exactly
these moves against any transport (`drain_isRun`), and a failure that passes ends it only as the first one
in a row beyond the limit.
-/

namespace ItemMapper

variable {σ : Type}

/-! ### Moves -/

/-- What a cursor does next: it sends a request, or ends with a result. -/
inductive Move where
  | send (request : BatchRequest)
  | finish (result : Except TransportError (List WireItem))

/-- Whether an exchange failed for a while only. -/
def Exchange.isPassing (exchange : Exchange) : Bool :=
  match exchange.reply with
  | .ok _ => false
  | .error failure => failure.retryable

/-- The items that an exchange brings for a table. -/
def Exchange.itemsFor (exchange : Exchange) (table : String) : List WireItem :=
  match exchange.reply with
  | .ok response => (Fields.get? response.items table).getD []
  | .error _ => []

/-- The passing failures in a row at the end of a trace. -/
def failuresAtEnd (trace : List Exchange) : Nat :=
  (trace.reverse.takeWhile Exchange.isPassing).length

/-- The items that all exchanges bring for a table, in order. -/
def itemsOf (table : String) (trace : List Exchange) : List WireItem :=
  trace.flatMap fun exchange => exchange.itemsFor table

/-- Keys that are left are asked for, as they are; without any the trace has brought all items. -/
def Move.forLeft (table : String) (trace : List Exchange) : Option KeyRequest → Move
  | none => .finish (.ok (itemsOf table trace))
  | some left =>
    if left.keys.isEmpty then .finish (.ok (itemsOf table trace))
    else .send { tables := [(table, left)] }

/--
The move after a trace. At the start it asks with the first request; a response is followed by what it
leaves for the table; a request that fails for a while is sent again, unless the limit is passed.
-/
def nextMove (table : String) (first : KeyRequest) (limit : Option Nat) (trace : List Exchange) : Move :=
  match trace.getLast? with
  | none => .forLeft table trace (some first)
  | some ⟨_, .ok response⟩ => .forLeft table trace (response.unprocessed.bind fun left => Fields.get? left table)
  | some ⟨request, .error failure⟩ =>
    match failure.retryable, limit with
    | false, _ => .finish (.error failure)
    | true, none => .send request
    | true, some most =>
      if failuresAtEnd trace ≤ most then .send request else .finish (.error failure)

/-- What a transport replies to requests, one after another, and the state that they leave it in. -/
def Transport.replies (transport : Transport σ) : List BatchRequest → σ → List Reply × σ
  | [], state => ([], state)
  | request :: rest, state =>
    let (reply, state) := transport.call request state
    let (others, state) := transport.replies rest state
    (reply :: others, state)

/--
A trace is that of a run with so many calls at most: every request is the move after the exchanges before
it, the replies are those of the transport, and the outcome is the move after all of them. A run without
outcome has made all its calls.
-/
structure IsRun (transport : Transport σ) (state after : σ) (table : String) (first : KeyRequest)
    (limit : Option Nat) (calls : Nat) (trace : List Exchange)
    (outcome : Option (Except TransportError (List WireItem))) : Prop where
  sends : ∀ early exchange, early ++ [exchange] <+: trace →
    nextMove table first limit early = .send exchange.request
  replied : transport.replies (trace.map Exchange.request) state = (trace.map Exchange.reply, after)
  ends : ∀ result, outcome = some result ↔ nextMove table first limit trace = .finish result
  bounded : trace.length ≤ calls
  unfinished : outcome = none → trace.length = calls

/-! ### Traces that grow -/

theorem failuresAtEnd_concat (trace : List Exchange) (exchange : Exchange) :
    failuresAtEnd (trace ++ [exchange]) = if exchange.isPassing then failuresAtEnd trace + 1 else 0 := by
  rw [failuresAtEnd, List.reverse_concat, List.takeWhile_cons]
  split
  · exact List.length_cons
  · rfl

theorem itemsOf_concat (table : String) (trace : List Exchange) (exchange : Exchange) :
    itemsOf table (trace ++ [exchange]) = itemsOf table trace ++ exchange.itemsFor table := by
  simp [itemsOf]

theorem nextMove_concat_ok (table : String) (first : KeyRequest) (limit : Option Nat)
    (trace : List Exchange) (request : BatchRequest) (response : BatchResponse) :
    nextMove table first limit (trace ++ [⟨request, .ok response⟩]) =
      .forLeft table (trace ++ [⟨request, .ok response⟩]) (Cursor.leftFor response table) := by
  simp [nextMove, Cursor.leftFor]

theorem nextMove_concat_error (table : String) (first : KeyRequest) (limit : Option Nat)
    (trace : List Exchange) (request : BatchRequest) (failure : TransportError) :
    nextMove table first limit (trace ++ [⟨request, .error failure⟩]) =
      if failure.isFinal limit (failuresAtEnd trace + 1) then .finish (.error failure)
      else .send request := by
  cases passes : failure.retryable with
  | false => simp [nextMove, passes, TransportError.isFinal]
  | true =>
    have counted : failuresAtEnd (trace ++ [⟨request, .error failure⟩]) = failuresAtEnd trace + 1 := by
      simp [failuresAtEnd_concat, Exchange.isPassing, passes]
    cases limit with
    | none => simp [nextMove, passes, TransportError.isFinal, exceedsLimit]
    | some most =>
      generalize failuresAtEnd trace + 1 = count at counted ⊢
      by_cases within : count ≤ most
      · simp [nextMove, passes, TransportError.isFinal, exceedsLimit, counted, within]
      · simp [nextMove, passes, TransportError.isFinal, exceedsLimit, counted, within]

/-- A run goes on only as long as the failures in a row are within the limit. -/
theorem failuresAtEnd_le {table : String} {first : KeyRequest} {most : Nat} {trace : List Exchange}
    {request : BatchRequest} (goes_on : nextMove table first (some most) trace = .send request) :
    failuresAtEnd trace ≤ most := by
  rcases List.eq_nil_or_concat trace with rfl | ⟨early, ⟨asked, failure | response⟩, rfl⟩
  · exact Nat.zero_le most
  · rw [List.concat_eq_append, nextMove_concat_error] at *
    split at goes_on
    next => cases goes_on
    next open_ended =>
      have passing : failure.retryable ∧ failuresAtEnd early + 1 ≤ most := by
        simpa [TransportError.isFinal, exceedsLimit] using open_ended
      rw [failuresAtEnd_concat]
      simpa [Exchange.isPassing, passing.1] using passing.2
  · simp [failuresAtEnd_concat, Exchange.isPassing]

theorem replies_concat (transport : Transport σ) (requests : List BatchRequest) (request : BatchRequest)
    (state : σ) :
    transport.replies (requests ++ [request]) state =
      let (replies, between) := transport.replies requests state
      let (reply, after) := transport.call request between
      (replies ++ [reply], after) := by
  induction requests generalizing state with
  | nil => rfl
  | cons earlier rest ih => simp [Transport.replies, ih]

namespace Cursor

/-! ### Runs -/

/--
A cursor that has seen so many failures in a row, and the state of the transport, are those after a trace
of moves; the cursor's next request is the next move.
-/
structure IsAfter (transport : Transport σ) (start : σ) (table : String) (first : KeyRequest)
    (limit : Option Nat) (trace : List Exchange) (failures : Nat) (cursor : Cursor) (state : σ) : Prop where
  sends : ∀ early exchange, early ++ [exchange] <+: trace →
    nextMove table first limit early = .send exchange.request
  replied : transport.replies (trace.map Exchange.request) start = (trace.map Exchange.reply, state)
  counted : failuresAtEnd trace = failures
  table_eq : cursor.table = table
  received : cursor.received = itemsOf table trace
  move : nextMove table first limit trace = match cursor.nextRequest? with
    | some request => .send request
    | none => .finish (.ok cursor.received)

variable {transport : Transport σ} {begin state later after : σ} {table : String} {first : KeyRequest}
  {limit : Option Nat} {trace : List Exchange} {failures : Nat} {cursor : Cursor}
  {request : BatchRequest}

/-- What is left for a cursor is its next request, or the end. -/
theorem forLeft_remaining (table_eq : cursor.table = table) (received : cursor.received = itemsOf table trace) :
    Move.forLeft table trace cursor.remaining = match cursor.nextRequest? with
      | some request => .send request
      | none => .finish (.ok cursor.received) := by
  subst table_eq
  rw [received]
  cases stands : cursor.remaining with
  | none => simp [Move.forLeft, nextRequest?, stands]
  | some left => cases empty : left.keys.isEmpty <;> simp [Move.forLeft, nextRequest?, stands, empty]

theorem isAfter_start (transport : Transport σ) (state : σ) (table : String) (first : KeyRequest)
    (limit : Option Nat) :
    IsAfter transport state table first limit [] 0 (start table first) state where
  sends early exchange inside := by simp at inside
  replied := rfl
  counted := rfl
  table_eq := rfl
  received := rfl
  move := @forLeft_remaining table [] (start table first) rfl rfl

/-- One more exchange of a run is asked for by the move before it. -/
theorem IsAfter.sends_concat (is_after : IsAfter transport begin table first limit trace failures cursor state)
    (asks : cursor.nextRequest? = some request) (reply : Reply) :
    ∀ early exchange, early ++ [exchange] <+: trace ++ [⟨request, reply⟩] →
      nextMove table first limit early = .send exchange.request := by
  intro early exchange inside
  rcases List.prefix_concat_iff.mp inside with whole | before
  · obtain ⟨rfl, same⟩ := List.append_inj' whole rfl
    obtain rfl := List.singleton_inj.mp same
    rw [is_after.move, asks]
  · exact is_after.sends early exchange before

theorem IsAfter.replied_concat
    (is_after : IsAfter transport begin table first limit trace failures cursor state) {reply : Reply}
    (called : transport.call request state = (reply, later)) :
    let longer : List Exchange := trace ++ [⟨request, reply⟩]
    transport.replies (longer.map Exchange.request) begin = (longer.map Exchange.reply, later) := by
  simp [replies_concat, is_after.replied, called]

/-- A response moves the cursor on, with no failures in a row. -/
theorem IsAfter.ok (is_after : IsAfter transport begin table first limit trace failures cursor state)
    (asks : cursor.nextRequest? = some request) {response : BatchResponse}
    (called : transport.call request state = (.ok response, later)) :
    IsAfter transport begin table first limit (trace ++ [⟨request, .ok response⟩]) 0
      (cursor.advance response) later := by
  have table_eq := is_after.table_eq
  have received : (cursor.advance response).received =
      itemsOf table (trace ++ [⟨request, .ok response⟩]) := by
    rw [itemsOf_concat, ← is_after.received, ← table_eq]
    rfl
  constructor
  case sends => exact is_after.sends_concat asks (.ok response)
  case replied => exact is_after.replied_concat called
  case counted => simp [failuresAtEnd_concat, Exchange.isPassing]
  case table_eq => exact table_eq
  case received => exact received
  case move =>
    have left : (cursor.advance response).remaining = leftFor response table := table_eq ▸ rfl
    rw [nextMove_concat_ok, ← left]
    exact forLeft_remaining table_eq received

/-- A failure that does not end the run leaves the cursor as it is, with one more failure in a row. -/
theorem IsAfter.error (is_after : IsAfter transport begin table first limit trace failures cursor state)
    (asks : cursor.nextRequest? = some request) {failure : TransportError}
    (called : transport.call request state = (.error failure, later))
    (goes_on : failure.isFinal limit (failures + 1) = false) :
    IsAfter transport begin table first limit (trace ++ [⟨request, .error failure⟩]) (failures + 1)
      cursor later := by
  have counted := is_after.counted
  have passes : failure.retryable := by
    simp only [TransportError.isFinal, Bool.or_eq_false_iff, Bool.not_eq_false'] at goes_on
    exact goes_on.1
  constructor
  case sends => exact is_after.sends_concat asks (.error failure)
  case replied => exact is_after.replied_concat called
  case counted => simp [failuresAtEnd_concat, Exchange.isPassing, passes, counted]
  case table_eq => exact is_after.table_eq
  case received =>
    rw [itemsOf_concat, is_after.received]
    exact (List.append_nil _).symm
  case move => simp [nextMove_concat_error, counted, goes_on, asks]

/-- A run whose cursor is done has ended with everything that was received. -/
theorem IsAfter.isRun (is_after : IsAfter transport begin table first limit trace failures cursor state)
    (asks : cursor.nextRequest? = none) {calls : Nat} (enough : trace.length ≤ calls) :
    IsRun transport begin state table first limit calls trace (some (.ok cursor.received)) := by
  refine ⟨is_after.sends, is_after.replied, ?_, enough, nofun⟩
  intro result
  simp [is_after.move, asks]

/-- From wherever a run is, driving the cursor takes it to its end, or through all its calls. -/
theorem isRun_drainFrom {calls total : Nat} (size : trace.length + calls = total)
    (is_after : IsAfter transport begin table first limit trace failures cursor state) :
    let ran := drainFrom transport.recorded limit calls failures cursor (state, trace)
    IsRun transport begin ran.2.1 table first limit total ran.2.2 ran.1 := by
  -- The induction is on the calls; what is known about the trace so far carries it.
  induction calls generalizing failures cursor state trace with
  | zero =>
    cases asks : cursor.nextRequest? with
    | none =>
      rw [drainFrom_of_isDone (nextRequest?_eq_none_iff.mp asks)]
      exact is_after.isRun asks (by omega)
    | some request =>
      have stopped : drainFrom transport.recorded limit 0 failures cursor (state, trace) =
          (none, state, trace) := by
        rw [drainFrom]
        simp only [asks]
      rw [stopped]
      refine ⟨is_after.sends, is_after.replied, ?_, Nat.le_of_eq size, fun _ => size⟩
      intro result
      simp [is_after.move, asks]
  | succ calls ih =>
    cases asks : cursor.nextRequest? with
    | none =>
      rw [drainFrom_of_isDone (nextRequest?_eq_none_iff.mp asks)]
      exact is_after.isRun asks (by omega)
    | some request =>
      have longer (exchange : Exchange) : (trace ++ [exchange]).length + calls = total := by
        rw [List.length_append, List.length_singleton]
        omega
      rcases called : transport.call request state with ⟨failure | response, later⟩
      · rw [drainFrom_of_error asks (call_recorded called trace)]
        cases final : failure.isFinal limit (failures + 1) with
        | true =>
          rw [if_pos rfl]
          refine ⟨is_after.sends_concat asks _, is_after.replied_concat called, ?_, ?_, fun ended => by cases ended⟩
          · intro result
            simp [nextMove_concat_error, is_after.counted, final]
          · exact Nat.le.intro (longer _)
        | false => exact ih (longer _) (is_after.error asks called final)
      · rw [drainFrom_of_ok asks (call_recorded called trace)]
        exact ih (longer _) (is_after.ok asks called)

/-! ### Ends -/

theorem forLeft_ne_error (table : String) (trace : List Exchange) (left : Option KeyRequest)
    (failure : TransportError) : Move.forLeft table trace left ≠ .finish (.error failure) := by
  cases left with
  | none => simp [Move.forLeft]
  | some left => cases empty : left.keys.isEmpty <;> simp [Move.forLeft, empty]

/-- A run ends with a failure that passes only as the first one in a row beyond the limit. -/
theorem failuresAtEnd_of_ends {outcome : Option (Except TransportError (List WireItem))} {calls : Nat}
    (run : IsRun transport state after table first limit calls trace outcome) {failure : TransportError}
    (ended : outcome = some (.error failure)) (passes : failure.retryable) :
    ∃ most, limit = some most ∧ failuresAtEnd trace = most + 1 := by
  have move := (run.ends (.error failure)).mp ended
  rcases List.eq_nil_or_concat trace with rfl | ⟨early, ⟨request, other | response⟩, rfl⟩
  · exact absurd move (forLeft_ne_error table [] (some first) failure)
  · rw [List.concat_eq_append] at *
    rw [nextMove_concat_error] at move
    split at move
    next final =>
      obtain rfl : other = failure := by simpa using move
      obtain ⟨most, rfl, beyond⟩ : ∃ most, limit = some most ∧ most < failuresAtEnd early + 1 := by
        cases limit with
        | none => simp [TransportError.isFinal, exceedsLimit, passes] at final
        | some most => exact ⟨most, rfl, by simpa [TransportError.isFinal, exceedsLimit, passes] using final⟩
      -- The exchange before the last one did not end the run, so the row is no longer than that.
      have within := failuresAtEnd_le (run.sends early _ (List.prefix_refl _))
      refine ⟨most, rfl, ?_⟩
      simp only [failuresAtEnd_concat, Exchange.isPassing, passes, if_true]
      omega
    next => cases move
  · rw [List.concat_eq_append, nextMove_concat_ok] at move
    exact absurd move (forLeft_ne_error table _ (leftFor response table) failure)

/--
Draining a cursor makes exactly the moves that its trace calls for, against any transport. It ends with a
failure that passes only at the first one in a row beyond the limit, so never without a limit.
-/
theorem drain_isRun (transport : Transport σ) (limit : Option Nat) (calls : Nat) (table : String)
    (first : KeyRequest) (state : σ) :
    let ran := drain transport limit calls (start table first) state
    let trace := exchanges transport limit calls (start table first) state
    IsRun transport state ran.2 table first limit calls trace ran.1 ∧
      ∀ failure, ran.1 = some (.error failure) → failure.retryable →
        ∃ most, limit = some most ∧ failuresAtEnd trace = most + 1 := by
  intro ran trace
  have run := @isRun_drainFrom _ transport state state table first limit [] 0 (start table first) calls
    calls (Nat.zero_add calls) (isAfter_start transport state table first limit)
  -- Keeping the record changes nothing about the run.
  obtain ⟨more, recorded⟩ := drainFrom_recorded transport limit calls 0 (start table first) state []
  have same : IsRun transport state ran.2 table first limit calls trace ran.1 := by
    simp only [recorded] at run
    simpa only [ran, trace, exchanges, drain, recorded] using run
  exact ⟨same, fun failure ended passes => failuresAtEnd_of_ends same ended passes⟩

/-- A failure that passes, a response that leaves a key and speaks of another table, and the last response. -/
theorem drain_isRun_paged :
    let key : String → WireItem := fun id => [("id", .string id)]
    let item : String → WireItem := fun id => [("id", .string id), ("seen", .bool true)]
    let first : KeyRequest := { keys := [key "a", key "b"], consistentRead := some true }
    let left : KeyRequest := { keys := [key "b"] }
    let busy : TransportError := { retryable := true, message := "busy", source := none }
    let page : BatchResponse :=
      { items := [("other", [item "c"]), ("users", [item "a"])]
        unprocessed := some [("other", first), ("users", left)] }
    let last : BatchResponse := { items := [("users", [item "b"])], unprocessed := some [] }
    let replies : List Reply := [.error busy, .ok page, .ok last]
    let ran := drain Transport.ofReplies (some 1) 4 (start "users" first) replies
    let trace := exchanges Transport.ofReplies (some 1) 4 (start "users" first) replies
    ran = (some (.ok [item "a", item "b"]), []) ∧
    trace = [⟨{ tables := [("users", first)] }, .error busy⟩, ⟨{ tables := [("users", first)] }, .ok page⟩,
      ⟨{ tables := [("users", left)] }, .ok last⟩] ∧
    IsRun Transport.ofReplies replies [] "users" first (some 1) 4 trace ran.1 := by
  intro key item first left busy page last replies ran trace
  obtain ⟨run, -⟩ := drain_isRun Transport.ofReplies (some 1) 4 "users" first replies
  exact ⟨rfl, rfl, run⟩

end Cursor

end ItemMapper
