import ItemMapper.Batch.Cursor
import ItemMapper.Batch.Transport

/-!
# Draining cursors

A cursor is driven until it is done. A passing failure sends the same request again; too many of them in
a row, or any other failure, end the run. Nothing bounds the number of calls that a transport may cost,
so a run gets a number of calls it may make. A run that has used them up has no outcome.

Main statement: more calls never change an outcome (`drainFrom_of_le`).
-/

namespace ItemMapper

variable {σ : Type}

/-- Whether so many passing failures in a row are more than a limit allows. -/
def exceedsLimit (limit : Option Nat) (failures : Nat) : Bool :=
  match limit with
  | some most => most < failures
  | none => false

/-- Whether a failure ends a run, if it is the last of so many passing failures in a row. -/
def TransportError.isFinal (failure : TransportError) (limit : Option Nat) (failures : Nat) : Bool :=
  !failure.retryable || exceedsLimit limit failures

namespace Cursor

/--
Drives a cursor, which has just seen so many failures in a row, with at most a number of calls. The
result is the outcome, if there is one, and the state of the transport after the run.
-/
def drainFrom (transport : Transport σ) (limit : Option Nat) :
    (calls failures : Nat) → Cursor → σ → Option (Except TransportError (List WireItem)) × σ
  | calls, failures, cursor, state =>
    match cursor.nextRequest? with
    | none => (some (.ok cursor.received), state)
    | some request =>
      match calls with
      | 0 => (none, state)
      | calls + 1 =>
        match transport.call request state with
        -- A response ends the row of failures; a failure that passes leaves the cursor where it is.
        | (.ok response, state) => drainFrom transport limit calls 0 (cursor.advance response) state
        | (.error failure, state) =>
          if failure.isFinal limit (failures + 1) then (some (.error failure), state)
          else drainFrom transport limit calls (failures + 1) cursor state

theorem drainFrom_of_isDone {cursor : Cursor} (done : cursor.isDone) (transport : Transport σ)
    (limit : Option Nat) (calls failures : Nat) (state : σ) :
    drainFrom transport limit calls failures cursor state = (some (.ok cursor.received), state) := by
  have none := nextRequest?_eq_none_iff.mpr done
  unfold drainFrom
  simp [none]

theorem drainFrom_of_le {transport : Transport σ} {limit : Option Nat} {calls more failures : Nat}
    {cursor : Cursor} {state after : σ} {outcome : Except TransportError (List WireItem)}
    (ended : drainFrom transport limit calls failures cursor state = (some outcome, after))
    (enough : calls ≤ more) :
    drainFrom transport limit more failures cursor state = (some outcome, after) := by
  induction calls generalizing more failures cursor state with
  | zero =>
    cases next : cursor.nextRequest? with
    | none =>
      unfold drainFrom at ended ⊢
      simpa [next] using ended
    | some request =>
      unfold drainFrom at ended
      simp [next] at ended
  | succ calls ih =>
    obtain ⟨more, rfl⟩ : ∃ rest, more = rest + 1 := ⟨more - 1, by omega⟩
    have enough : calls ≤ more := by omega
    unfold drainFrom at ended ⊢
    cases next : cursor.nextRequest? with
    | none => simpa [next] using ended
    | some request =>
      simp only [next] at ended ⊢
      rcases called : transport.call request state with ⟨failure | response, later⟩
      · simp only [called] at ended ⊢
        cases final : failure.isFinal limit (failures + 1) with
        | true => simpa [final] using ended
        | false =>
          simp only [final] at ended ⊢
          exact ih ended enough
      · simp only [called] at ended ⊢
        exact ih ended enough

/-- Drives a cursor from its start. -/
def drain (transport : Transport σ) (limit : Option Nat) (calls : Nat) (cursor : Cursor) (state : σ) :
    Option (Except TransportError (List WireItem)) × σ :=
  drainFrom transport limit calls 0 cursor state

end Cursor

/-- The calls that a run against a list of replies can make: the one after the last reply ends it. -/
def scriptCalls (replies : List Reply) : Nat :=
  replies.length + 1

end ItemMapper
