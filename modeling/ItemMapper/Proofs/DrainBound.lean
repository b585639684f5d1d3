import ItemMapper.Proofs.DrainTrace
import ItemMapper.Settings

/-!
# How many calls a drained cursor makes

Neither the keys that are left nor the failures in a row get fewer with every call: a failure keeps the
keys, and a response starts the count of failures anew. But for each key there is room for as many failures
as the limit allows and one response (`callsWithin`), and every call that does not end the run takes from
this room.

Main result: against a transport whose responses leave fewer keys than they were asked for, a run with a
limit ends, after one more call for each key than the limit allows failures at most (`drain_ends_within`).
-/

namespace ItemMapper

variable {σ : Type} {transport : Transport σ} {table : String} {most failures calls : Nat}

/-- Every response leaves fewer keys of a table than the request asks for, or none at all. -/
def Transport.Progresses (transport : Transport σ) (table : String) : Prop :=
  ∀ request state response later, transport.call request state = (.ok response, later) →
    response.keysLeft table = [] ∨ (response.keysLeft table).length < (request.keysOf table).length

namespace Cursor

variable {cursor : Cursor} {request : BatchRequest} {state later : σ}

/-- The calls for which there is room, after some failures in a row. -/
def callsWithin (most failures : Nat) (cursor : Cursor) : Nat :=
  cursor.remainingKeys.length * (most + 1) - failures

theorem remainingKeys_ne_nil (asks : cursor.nextRequest? = some request) : cursor.remainingKeys ≠ [] := by
  intro none_left
  have done : cursor.isDone := by simp [isDone, none_left]
  rw [nextRequest?_eq_none_iff.mpr done] at asks
  cases asks

theorem one_key_within (asks : cursor.nextRequest? = some request) :
    most + 1 ≤ cursor.remainingKeys.length * (most + 1) := by
  have some_key := List.length_pos_iff.mpr (remainingKeys_ne_nil asks)
  exact Nat.le_mul_of_pos_left (most + 1) some_key

theorem callsWithin_of_failure (asks : cursor.nextRequest? = some request) (allowed : failures ≤ most) :
    callsWithin most failures cursor = callsWithin most (failures + 1) cursor + 1 := by
  -- Without room for one more call the subtraction would stop at zero, and take nothing.
  have room : most + 1 ≤ _ := one_key_within asks
  simp only [callsWithin]
  omega

/-- A response with fewer keys makes up for the failures before it. -/
theorem callsWithin_of_response (asks : cursor.nextRequest? = some request) (allowed : failures ≤ most)
    (progresses : transport.Progresses cursor.table) {response : BatchResponse}
    (called : transport.call request state = (.ok response, later)) :
    callsWithin most 0 (cursor.advance response) + 1 ≤ callsWithin most failures cursor := by
  have room : most + 1 ≤ _ := one_key_within asks
  have fewer := progresses request state response later called
  rw [keysOf_nextRequest? asks, ← remainingKeys_advance cursor response] at fewer
  simp only [callsWithin, Nat.sub_zero]
  rcases fewer with none_left | fewer
  · simp only [none_left, List.length_nil, Nat.zero_mul]
    omega
  · -- The room of the key that is gone covers all failures in a row.
    have one_less : ((cursor.advance response).remainingKeys.length + 1) * (most + 1) ≤
        cursor.remainingKeys.length * (most + 1) := Nat.mul_le_mul_right (most + 1) fewer
    rw [Nat.succ_mul] at one_less
    omega

theorem within_of_not_isFinal {failure : TransportError}
    (goes_on : failure.isFinal (some most) failures = false) : failures ≤ most := by
  simp only [TransportError.isFinal, exceedsLimit, Bool.or_eq_false_iff, decide_eq_false_iff_not] at goes_on
  omega

/-- From wherever a run is, the calls for which there is room take it to its end. -/
theorem drainFrom_ends_within (progresses : transport.Progresses cursor.table) (allowed : failures ≤ most)
    (room : callsWithin most failures cursor ≤ calls) :
    ∃ outcome after, drainFrom transport (some most) calls failures cursor state = (some outcome, after) := by
  -- The induction is on the calls; the room shrinks with them, whether a call fails or not.
  induction calls generalizing failures cursor state with
  | zero =>
    cases asks : cursor.nextRequest? with
    | none => exact ⟨_, _, drainFrom_of_isDone (nextRequest?_eq_none_iff.mp asks) ..⟩
    | some request =>
      have some_room := callsWithin_of_failure asks allowed
      omega
  | succ calls ih =>
    cases asks : cursor.nextRequest? with
    | none => exact ⟨_, _, drainFrom_of_isDone (nextRequest?_eq_none_iff.mp asks) ..⟩
    | some request =>
      rcases called : transport.call request state with ⟨failure | response, later⟩
      · rw [drainFrom_of_error asks called]
        cases final : failure.isFinal (some most) (failures + 1) with
        | true => exact ⟨_, _, rfl⟩
        | false =>
          have less_room := callsWithin_of_failure asks allowed
          exact ih progresses (within_of_not_isFinal final) (by omega)
      · rw [drainFrom_of_ok asks called]
        have less_room := callsWithin_of_response asks allowed progresses called
        exact @ih 0 (cursor.advance response) later progresses (Nat.zero_le most) (by omega)

/-- The failures in a row never go further beyond the limit than by the one that ends the run. -/
theorem failuresAtEnd_le_of_isRun {after : σ} {first : KeyRequest} {trace early : List Exchange}
    {outcome : Option (Except TransportError (List WireItem))}
    (run : IsRun transport state after table first (some most) calls trace outcome)
    (inside : early <+: trace) : failuresAtEnd early ≤ most + 1 := by
  rcases List.eq_nil_or_concat early with rfl | ⟨front, exchange, rfl⟩
  · exact Nat.zero_le _
  · -- The call before the last exchange was made, so the count was within the limit then.
    rw [List.concat_eq_append] at *
    have before := failuresAtEnd_le (run.sends front exchange inside)
    rw [failuresAtEnd_concat]
    split <;> omega

/--
Against a transport that leaves fewer keys with every response, a run with a limit for failures in a row
ends, however the calls fail in between, and it makes no more calls than one for each key and failure that
the limit allows, and one for each key. The count of failures in a row stays within a word.
-/
theorem drain_ends_within (progresses : transport.Progresses table)
    (representable : most < Settings.greatestRetries) (first : KeyRequest) (state : σ) :
    ∃ outcome after trace, trace.length ≤ first.keys.length * (most + 1) ∧
      (∀ early, early <+: trace → failuresAtEnd early ≤ Settings.greatestRetries) ∧
      ∀ calls, first.keys.length * (most + 1) ≤ calls →
        drain transport (some most) calls (start table first) state = (some outcome, after) ∧
        exchanges transport (some most) calls (start table first) state = trace := by
  let bound := first.keys.length * (most + 1)
  have room : callsWithin most 0 (start table first) ≤ bound := Nat.le_refl _
  obtain ⟨outcome, after, ended⟩ :=
    @drainFrom_ends_within _ transport most 0 bound (start table first) state progresses (Nat.zero_le _) room
  have run := (drain_isRun transport (some most) bound table first state).1
  refine ⟨outcome, after, exchanges transport (some most) bound (start table first) state, run.bounded, ?_, ?_⟩
  · intro early inside
    exact Nat.le_trans (failuresAtEnd_le_of_isRun run inside) representable
  · intro calls enough
    -- More calls change neither the run nor its record.
    obtain ⟨more, recorded⟩ := drainFrom_recorded transport (some most) bound 0 (start table first) state []
    rw [ended] at recorded
    refine ⟨drainFrom_of_le ended enough, ?_⟩
    simp only [exchanges, drain, drainFrom_of_le recorded enough, recorded]

/-- Every request is refused once and then answered for its first key, so two keys take all of four calls. -/
theorem drain_ends_within_alternating :
    let transport : Transport Bool := ⟨fun request refused =>
      if refused then
        (.ok { unprocessed := some [("t", { keys := (request.keysOf "t").tail })] }, false)
      else (.error ⟨true, "throttled", none⟩, true)⟩
    let first : KeyRequest := { keys := [[("id", .string "a")], [("id", .string "b")]] }
    transport.Progresses "t" ∧ 1 < Settings.greatestRetries ∧
      ∃ outcome after trace, trace.length = first.keys.length * (1 + 1) ∧
        (∀ early, early <+: trace → failuresAtEnd early ≤ Settings.greatestRetries) ∧
        ∀ calls, first.keys.length * (1 + 1) ≤ calls →
          drain transport (some 1) calls (start "t" first) false = (some outcome, after) ∧
          exchanges transport (some 1) calls (start "t" first) false = trace := by
  intro transport first
  have progresses : transport.Progresses "t" := by
    intro request refused response later called
    cases refused with
    | false => simp [transport] at called
    | true =>
      obtain ⟨rfl, -⟩ : _ = response ∧ false = later := by simpa [transport] using called
      cases keys : request.keysOf "t" with
      | nil => exact .inl rfl
      | cons key rest => exact .inr (Nat.lt_succ_self rest.length)
  have representable : 1 < Settings.greatestRetries := by decide
  obtain ⟨outcome, after, trace, -, counted, runs⟩ := drain_ends_within progresses representable first false
  refine ⟨progresses, representable, outcome, after, trace, ?_, counted, runs⟩
  rw [← (runs 4 (Nat.le_refl _)).2]
  rfl

end Cursor

end ItemMapper
