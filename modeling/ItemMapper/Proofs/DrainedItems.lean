import ItemMapper.Batch.Drain

/-!
# What a drained cursor has read

The exchanges of a run, with a store that serves some of the keys it is asked for and leaves the others,
or fails for a while. Whatever it leaves, what has been received and what is found for the keys still to
be asked for make up the whole (`Cursor.Accounts`), so a run that ends has read every key once
(`drain_reads_all`).
-/

namespace ItemMapper

variable {σ : Type} {lookup : WireItem → Option WireItem} {table : String}

/-! ### Exchanges with a store -/

/-- The keys that a request asks of a table. -/
def BatchRequest.keysOf (request : BatchRequest) (table : String) : List WireItem :=
  match Fields.get? request.tables table with
  | some request => request.keys
  | none => []

/-- The keys that a response leaves for a table; it may also not mention the table. -/
def BatchResponse.keysLeft (response : BatchResponse) (table : String) : List WireItem :=
  match Cursor.leftFor response table with
  | some request => request.keys
  | none => []

/--
A store, given by what it has under each key, serves an exchange: with a passing failure, or with what it
finds under some of the keys, in any order, while it leaves the others.
-/
inductive Exchange.Serves (lookup : WireItem → Option WireItem) (table : String) : Exchange → Prop
  | fails {request : BatchRequest} {failure : TransportError} : failure.retryable →
      Serves lookup table ⟨request, .error failure⟩
  | answers {request : BatchRequest} {response : BatchResponse} {served left : List WireItem} :
      (request.keysOf table).Perm (served ++ left) →
      (Cursor.itemsFor response table).Perm (served.filterMap lookup) →
      response.keysLeft table = left → Serves lookup table ⟨request, .ok response⟩

/-- A store serves an exchange with the first keys, in their order. -/
inductive Exchange.ServesInOrder (lookup : WireItem → Option WireItem) (table : String) :
    Exchange → Prop
  | fails {request : BatchRequest} {failure : TransportError} : failure.retryable →
      ServesInOrder lookup table ⟨request, .error failure⟩
  | answers {request : BatchRequest} {response : BatchResponse} {served left : List WireItem} :
      request.keysOf table = served ++ left →
      Cursor.itemsFor response table = served.filterMap lookup →
      response.keysLeft table = left → ServesInOrder lookup table ⟨request, .ok response⟩

theorem Exchange.Serves.retryable {request : BatchRequest} {failure : TransportError}
    (serves : Serves lookup table ⟨request, .error failure⟩) : failure.retryable := by
  cases serves with
  | fails passes => exact passes

theorem Exchange.ServesInOrder.retryable {request : BatchRequest} {failure : TransportError}
    (serves : ServesInOrder lookup table ⟨request, .error failure⟩) : failure.retryable := by
  cases serves with
  | fails passes => exact passes

/-- Whether an exchange failed. -/
def Exchange.isFailure (exchange : Exchange) : Bool :=
  match exchange.reply with
  | .ok _ => false
  | .error _ => true

/-- No more failures come in a row than a limit allows. -/
def RowsWithin (limit : Option Nat) (trace : List Exchange) : Prop :=
  ∀ most, limit = some most → ∀ row, row <:+: trace → (∀ exchange ∈ row, exchange.isFailure) →
    row.length ≤ most

namespace Cursor

/-- The exchanges of a run, in order. -/
def exchanges (transport : Transport σ) (limit : Option Nat) (calls : Nat) (cursor : Cursor) (state : σ) :
    List Exchange :=
  (drain transport.recorded limit calls cursor (state, [])).2.2

/-! ### Recorded runs -/

section

variable {transport : Transport σ} {cursor : Cursor} {request : BatchRequest} {state later : σ}

/-- An answered request takes the run on with the cursor after the response. -/
theorem drainFrom_of_ok {response : BatchResponse} (asks : cursor.nextRequest? = some request)
    (called : transport.call request state = (.ok response, later)) (limit : Option Nat)
    (calls failures : Nat) :
    drainFrom transport limit (calls + 1) failures cursor state =
      drainFrom transport limit calls 0 (cursor.advance response) later := by
  rw [drainFrom]
  simp only [asks, called]

/-- A failed request ends the run, or is made once more. -/
theorem drainFrom_of_error {failure : TransportError} (asks : cursor.nextRequest? = some request)
    (called : transport.call request state = (.error failure, later)) (limit : Option Nat)
    (calls failures : Nat) :
    drainFrom transport limit (calls + 1) failures cursor state =
      if failure.isFinal limit (failures + 1) then (some (.error failure), later)
      else drainFrom transport limit calls (failures + 1) cursor later := by
  rw [drainFrom]
  simp only [asks, called]

theorem call_recorded {reply : Reply} (called : transport.call request state = (reply, later))
    (log : List Exchange) :
    transport.recorded.call request (state, log) = (reply, later, log ++ [⟨request, reply⟩]) := by
  simp only [Transport.recorded, called]

end

/-- Keeping a record changes nothing about a run; what the run adds does not depend on the record. -/
theorem exists_record (transport : Transport σ) (limit : Option Nat) (calls failures : Nat)
    (cursor : Cursor) (state : σ) :
    ∃ more, ∀ log, drainFrom transport.recorded limit calls failures cursor (state, log) =
      ((drainFrom transport limit calls failures cursor state).1,
        (drainFrom transport limit calls failures cursor state).2, log ++ more) := by
  induction calls generalizing failures cursor state with
  | zero =>
    refine ⟨[], fun log => ?_⟩
    rw [drainFrom, drainFrom, List.append_nil]
    cases cursor.nextRequest? <;> rfl
  | succ calls ih =>
    cases asks : cursor.nextRequest? with
    | none =>
      refine ⟨[], fun log => ?_⟩
      have done := nextRequest?_eq_none_iff.mp asks
      rw [drainFrom_of_isDone done, drainFrom_of_isDone done, List.append_nil]
    | some request =>
      rcases called : transport.call request state with ⟨failure | response, later⟩
      · by_cases final : failure.isFinal limit (failures + 1)
        · refine ⟨[⟨request, .error failure⟩], fun log => ?_⟩
          rw [drainFrom_of_error asks called, drainFrom_of_error asks (call_recorded called log)]
          simp only [final, if_true]
        · obtain ⟨more, found⟩ := ih (failures + 1) cursor later
          refine ⟨⟨request, .error failure⟩ :: more, fun log => ?_⟩
          rw [drainFrom_of_error asks called, drainFrom_of_error asks (call_recorded called log),
            if_neg final, if_neg final, found, List.append_assoc]
          rfl
      · obtain ⟨more, found⟩ := ih 0 (cursor.advance response) later
        refine ⟨⟨request, .ok response⟩ :: more, fun log => ?_⟩
        rw [drainFrom_of_ok asks called, drainFrom_of_ok asks (call_recorded called log), found,
          List.append_assoc]
        rfl

theorem drainFrom_recorded (transport : Transport σ) (limit : Option Nat) (calls failures : Nat)
    (cursor : Cursor) (state : σ) (log : List Exchange) :
    ∃ more, drainFrom transport.recorded limit calls failures cursor (state, log) =
      ((drainFrom transport limit calls failures cursor state).1,
        (drainFrom transport limit calls failures cursor state).2, log ++ more) :=
  (exists_record transport limit calls failures cursor state).imp fun _ found => found log

/-- A run adds its exchanges to a record. -/
theorem drain_recorded (transport : Transport σ) (limit : Option Nat) (calls : Nat) (cursor : Cursor)
    (state : σ) (log : List Exchange) :
    drain transport.recorded limit calls cursor (state, log) =
      ((drain transport limit calls cursor state).1, (drain transport limit calls cursor state).2,
        log ++ exchanges transport limit calls cursor state) := by
  obtain ⟨more, found⟩ := exists_record transport limit calls 0 cursor state
  have trace : exchanges transport limit calls cursor state = [] ++ more :=
    congrArg (fun result => result.2.2) (found [])
  rw [trace]
  exact found log

theorem prefix_of_drainFrom_recorded {transport : Transport σ} {limit : Option Nat}
    {calls failures : Nat} {cursor : Cursor} {state after : σ} {log trace : List Exchange}
    {outcome : Option (Except TransportError (List WireItem))}
    (ran : drainFrom transport.recorded limit calls failures cursor (state, log) =
      (outcome, after, trace)) : log <+: trace := by
  obtain ⟨more, found⟩ := drainFrom_recorded transport limit calls failures cursor state log
  rw [found] at ran
  exact ⟨more, (Prod.mk.inj (Prod.mk.inj ran).2).2⟩

/-! ### Failures in a row -/

/-- A record ends in so many failures. -/
def EndsInFailures (log : List Exchange) (failures : Nat) : Prop :=
  ∃ row, row <:+ log ∧ (∀ exchange ∈ row, exchange.isFailure) ∧ row.length = failures

theorem endsInFailures_zero (log : List Exchange) : EndsInFailures log 0 :=
  ⟨[], List.nil_suffix, nofun, rfl⟩

theorem EndsInFailures.succ {log : List Exchange} {failures : Nat} (ends : EndsInFailures log failures)
    {exchange : Exchange} (fails : exchange.isFailure) :
    EndsInFailures (log ++ [exchange]) (failures + 1) := by
  obtain ⟨row, ⟨front, rfl⟩, all_fail, rfl⟩ := ends
  refine ⟨row ++ [exchange], ⟨front, by simp⟩, ?_, by simp⟩
  intro other member
  rcases List.mem_append.mp member with inside | last
  · exact all_fail other inside
  · rw [List.mem_singleton.mp last]
    exact fails

/-- A run does not give up while the rows of its failures are within the limit. -/
theorem not_exceedsLimit {limit : Option Nat} {log trace : List Exchange} {failures : Nat}
    (rows : RowsWithin limit trace) (ends : EndsInFailures log failures) (recorded : log <+: trace) :
    exceedsLimit limit failures = false := by
  cases limit with
  | none => rfl
  | some most =>
    obtain ⟨row, suffix, all_fail, rfl⟩ := ends
    have bound := rows most rfl row (suffix.isInfix.trans recorded.isInfix) all_fail
    simpa [exceedsLimit] using bound

/-! ### Whole runs -/

/--
A run whose failures all pass, and are not too many in a row, ends with a cursor that is done. What every
answered request preserves holds for that cursor.
-/
theorem drainFrom_ends {Good : Exchange → Prop} {Invariant : Cursor → Prop}
    (passing : ∀ request failure, Good ⟨request, .error failure⟩ → failure.retryable)
    (step : ∀ cursor request response, Invariant cursor → cursor.nextRequest? = some request →
      Good ⟨request, .ok response⟩ → Invariant (cursor.advance response))
    {transport : Transport σ} {limit : Option Nat} {calls failures : Nat} {cursor : Cursor}
    {state after : σ} {log trace : List Exchange} {outcome : Except TransportError (List WireItem)}
    (ran : drainFrom transport.recorded limit calls failures cursor (state, log) =
      (some outcome, after, trace))
    (good : ∀ exchange ∈ trace, Good exchange) (rows : RowsWithin limit trace)
    (ends : EndsInFailures log failures) (holds : Invariant cursor) :
    ∃ last, Invariant last ∧ last.isDone ∧ outcome = .ok last.received := by
  -- The induction is on the calls; the record ends in the failures that the run has just seen.
  induction calls generalizing failures cursor state log with
  | zero =>
    cases asks : cursor.nextRequest? with
    | none =>
      have done := nextRequest?_eq_none_iff.mp asks
      rw [drainFrom_of_isDone done] at ran
      obtain rfl := Option.some.inj (Prod.mk.inj ran).1
      exact ⟨cursor, holds, done, rfl⟩
    | some request =>
      rw [drainFrom] at ran
      simp [asks] at ran
  | succ calls ih =>
    cases asks : cursor.nextRequest? with
    | none =>
      have done := nextRequest?_eq_none_iff.mp asks
      rw [drainFrom_of_isDone done] at ran
      obtain rfl := Option.some.inj (Prod.mk.inj ran).1
      exact ⟨cursor, holds, done, rfl⟩
    | some request =>
      rcases called : transport.call request state with ⟨failure | response, later⟩
      · rw [drainFrom_of_error asks (call_recorded called log)] at ran
        have more_failures : EndsInFailures (log ++ [⟨request, .error failure⟩]) (failures + 1) :=
          ends.succ rfl
        split at ran
        next final =>
          -- The failure would be the last exchange of the run, but it is one that passes.
          obtain ⟨-, -, rfl⟩ : _ ∧ _ ∧ log ++ [⟨request, .error failure⟩] = trace := by simpa using ran
          have passes := passing request failure (good _ (by simp))
          have within := not_exceedsLimit rows more_failures (List.prefix_refl _)
          simp [TransportError.isFinal, passes, within] at final
        next => exact ih ran more_failures holds
      · rw [drainFrom_of_ok asks (call_recorded called log)] at ran
        -- The exchange is one of the whole run, since records only grow.
        have recorded := prefix_of_drainFrom_recorded ran
        have answered := good ⟨request, .ok response⟩ (recorded.subset (by simp))
        exact ih ran (endsInFailures_zero _) (step cursor request response holds asks answered)

/-- What the exchanges of a run preserve holds for the cursor at its end. -/
theorem drain_ends {Good : Exchange → Prop} {Invariant : Cursor → Prop}
    (passing : ∀ request failure, Good ⟨request, .error failure⟩ → failure.retryable)
    (step : ∀ cursor request response, Invariant cursor → cursor.nextRequest? = some request →
      Good ⟨request, .ok response⟩ → Invariant (cursor.advance response))
    {transport : Transport σ} {limit : Option Nat} {calls : Nat} {cursor : Cursor} {state : σ}
    {outcome : Except TransportError (List WireItem)}
    (ended : (drain transport limit calls cursor state).1 = some outcome)
    (good : ∀ exchange ∈ exchanges transport limit calls cursor state, Good exchange)
    (rows : RowsWithin limit (exchanges transport limit calls cursor state))
    (holds : Invariant cursor) :
    ∃ last, Invariant last ∧ last.isDone ∧ outcome = .ok last.received := by
  obtain ⟨more, ran⟩ := drainFrom_recorded transport limit calls 0 cursor state []
  have trace : exchanges transport limit calls cursor state = [] ++ more :=
    congrArg (fun result => result.2.2) ran
  have same : (drainFrom transport limit calls 0 cursor state).1 = some outcome := ended
  rw [← trace, same] at ran
  exact drainFrom_ends passing step ran good rows (endsInFailures_zero []) holds

/-! ### Accounts -/

/-- What a cursor has received, and what is found under the keys that it still has to ask for. -/
def account (lookup : WireItem → Option WireItem) (cursor : Cursor) : List WireItem :=
  cursor.received ++ cursor.remainingKeys.filterMap lookup

/-- The account of a cursor is the whole, up to the order. -/
def Accounts (lookup : WireItem → Option WireItem) (table : String) (whole : List WireItem)
    (cursor : Cursor) : Prop :=
  cursor.table = table ∧ (account lookup cursor).Perm whole

/-- The account of a cursor is the whole. -/
def AccountsInOrder (lookup : WireItem → Option WireItem) (table : String) (whole : List WireItem)
    (cursor : Cursor) : Prop :=
  cursor.table = table ∧ account lookup cursor = whole

theorem keysOf_nextRequest? {cursor : Cursor} {request : BatchRequest}
    (asks : cursor.nextRequest? = some request) :
    request.keysOf cursor.table = cursor.remainingKeys := by
  unfold nextRequest? at asks
  split at asks
  next keys stands =>
    split at asks
    next => cases asks
    next =>
      obtain rfl := Option.some.inj asks
      simp [BatchRequest.keysOf, Fields.get?, remainingKeys, stands]
  next => cases asks

theorem remainingKeys_advance (cursor : Cursor) (response : BatchResponse) :
    (cursor.advance response).remainingKeys = response.keysLeft cursor.table := by
  cases left : leftFor response cursor.table <;>
    simp [remainingKeys, advance, BatchResponse.keysLeft, left]

theorem account_advance (cursor : Cursor) (response : BatchResponse) :
    account lookup (cursor.advance response) = cursor.received ++
      (itemsFor response cursor.table ++ (response.keysLeft cursor.table).filterMap lookup) := by
  rw [account, remainingKeys_advance, ← List.append_assoc]
  rfl

theorem account_of_isDone {cursor : Cursor} (done : cursor.isDone) :
    account lookup cursor = cursor.received := by
  have none_left : cursor.remainingKeys = [] := List.isEmpty_iff.mp done
  rw [account, none_left, List.filterMap_nil, List.append_nil]

variable {whole : List WireItem}

/-- Whatever part of the keys is served, what was received and what is left make up the whole. -/
theorem Accounts.advance {cursor : Cursor} (accounts : cursor.Accounts lookup table whole)
    {request : BatchRequest} {response : BatchResponse} (asks : cursor.nextRequest? = some request)
    (serves : Exchange.Serves lookup table ⟨request, .ok response⟩) :
    (cursor.advance response).Accounts lookup table whole := by
  obtain ⟨rfl, accounts⟩ := accounts
  refine ⟨rfl, .trans ?_ accounts⟩
  cases serves with
  | @answers _ _ served left split items rest =>
    rw [keysOf_nextRequest? asks] at split
    -- What was found under the keys asked for is split as the keys are.
    have found : (cursor.remainingKeys.filterMap lookup).Perm
        (served.filterMap lookup ++ left.filterMap lookup) := by
      rw [← List.filterMap_append]
      exact split.filterMap lookup
    rw [account_advance, rest, account]
    exact ((items.append_right _).trans found.symm).append_left _

theorem AccountsInOrder.advance {cursor : Cursor} (accounts : cursor.AccountsInOrder lookup table whole)
    {request : BatchRequest} {response : BatchResponse} (asks : cursor.nextRequest? = some request)
    (serves : Exchange.ServesInOrder lookup table ⟨request, .ok response⟩) :
    (cursor.advance response).AccountsInOrder lookup table whole := by
  obtain ⟨rfl, accounts⟩ := accounts
  refine ⟨rfl, .trans ?_ accounts⟩
  cases serves with
  | @answers _ _ served left split items rest =>
    rw [keysOf_nextRequest? asks] at split
    rw [account_advance, rest, items, account, split, List.filterMap_append]

/--
A run against a store that serves part of the keys each time, or fails for a while, brings what is found
under each key once, if it ends. If the store serves the keys in their order, so are the items.
-/
theorem drain_reads_all {transport : Transport σ} {limit : Option Nat} {calls : Nat}
    {request : KeyRequest} {state : σ} {outcome : Except TransportError (List WireItem)}
    (ended : (drain transport limit calls (start table request) state).1 = some outcome)
    (served : ∀ exchange ∈ exchanges transport limit calls (start table request) state,
      exchange.Serves lookup table)
    (rows : RowsWithin limit (exchanges transport limit calls (start table request) state)) :
    ∃ items, outcome = .ok items ∧ items.Perm (request.keys.filterMap lookup) ∧
      ((∀ exchange ∈ exchanges transport limit calls (start table request) state,
        exchange.ServesInOrder lookup table) → items = request.keys.filterMap lookup) := by
  have at_start : account lookup (start table request) = request.keys.filterMap lookup := rfl
  have accounts : (start table request).Accounts lookup table (request.keys.filterMap lookup) :=
    ⟨rfl, .of_eq at_start⟩
  obtain ⟨last, ⟨-, accounted⟩, done, rfl⟩ := drain_ends
    (fun _ _ => Exchange.Serves.retryable) (fun _ _ _ held => held.advance) ended served rows accounts
  rw [account_of_isDone done] at accounted
  refine ⟨last.received, rfl, accounted, ?_⟩
  intro in_order
  -- The same run, now with an account that keeps the order.
  have accounts : (start table request).AccountsInOrder lookup table (request.keys.filterMap lookup) :=
    ⟨rfl, at_start⟩
  obtain ⟨final, ⟨-, accounted⟩, final_done, same⟩ := drain_ends
    (fun _ _ => Exchange.ServesInOrder.retryable) (fun _ _ _ held => held.advance) ended in_order
    rows accounts
  rw [Except.ok.inj same, ← accounted, account_of_isDone final_done]

/-- A key that is asked for twice, a failure that passes, and items of a table nobody asked for. -/
theorem drain_reads_all_repeated :
    let key (id : String) : WireItem := [("id", .string id)]
    let lookup : WireItem → Option WireItem := fun
      | [("id", .string "a")] => some [("id", .string "a"), ("n", .number "1")]
      | _ => none
    let request : KeyRequest := { keys := [key "a", key "b", key "a"] }
    let found : WireItem := [("id", .string "a"), ("n", .number "1")]
    let replies : List Reply := [
      .ok { items := [("t", [found])], unprocessed := some [("t", { keys := [key "b", key "a"] })] },
      .error ⟨true, "throttled", none⟩,
      .ok { items := [("other", [key "c"]), ("t", [found])], unprocessed := some [] }]
    let run := exchanges Transport.ofReplies (some 1) 3 (start "t" request) replies
    (drain Transport.ofReplies (some 1) 3 (start "t" request) replies).1 = some (.ok [found, found]) ∧
      (∀ exchange ∈ run, exchange.Serves lookup "t") ∧ RowsWithin (some 1) run ∧
      [found, found].Perm (request.keys.filterMap lookup) := by
  intro key lookup request found replies run
  have ended : (drain Transport.ofReplies (some 1) 3 (start "t" request) replies).1 =
      some (.ok [found, found]) := rfl
  have served : ∀ exchange ∈ run, exchange.Serves lookup "t" := by
    intro exchange member
    have listed : run = [run[0], run[1], run[2]] := rfl
    rw [listed] at member
    obtain rfl | rfl | rfl : exchange = run[0] ∨ exchange = run[1] ∨ exchange = run[2] := by
      simpa only [List.mem_cons, List.not_mem_nil, or_false] using member
    · exact @Exchange.Serves.answers _ _ _ _ [key "a"] [key "b", key "a"] (.refl _) (.refl _) rfl
    · exact .fails rfl
    · exact @Exchange.Serves.answers _ _ _ _ [key "b", key "a"] [] (.refl _) (.refl _) rfl
  have rows : RowsWithin (some 1) run := by
    intro most limited row inside all_fail
    obtain rfl := Option.some.inj limited
    have fewer : row.countP Exchange.isFailure ≤ run.countP Exchange.isFailure :=
      inside.sublist.countP_le
    rwa [List.countP_eq_length.mpr all_fail] at fewer
  obtain ⟨items, same, accounted, -⟩ := drain_reads_all ended served rows
  obtain rfl := Except.ok.inj same
  exact ⟨ended, served, rows, accounted⟩

end Cursor

end ItemMapper
