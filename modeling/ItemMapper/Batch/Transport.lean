import ItemMapper.Error
import ItemMapper.Request.BatchGet

/-!
# Transports

A transport carries a request to the store and brings back a response, or fails. What it does may hang
on all that went through it before, so every call gives its next state.
-/

namespace ItemMapper

/-- What comes back for a request. -/
abbrev Reply := Except TransportError BatchResponse

/-- A way to the store, which changes from call to call. -/
structure Transport (σ : Type) where
  call : BatchRequest → σ → Reply × σ

/-- A request with what came back for it. -/
structure Exchange where
  request : BatchRequest
  reply : Reply
deriving Repr

namespace Transport

/-- A transport that also keeps what went through it, in order. -/
def recorded {σ : Type} (transport : Transport σ) : Transport (σ × List Exchange) where
  call request := fun (state, log) =>
    let (reply, state) := transport.call request state
    (reply, state, log ++ [⟨request, reply⟩])

/-- The failure after the end of a script; it does not pass. -/
def scriptExhausted : TransportError :=
  { retryable := false, message := "script exhausted", source := none }

/-- A transport that gives the replies of a list one after another, whatever the requests are. -/
def ofReplies : Transport (List Reply) where
  call _ := fun
    | [] => (.error scriptExhausted, [])
    | reply :: rest => (reply, rest)

end Transport

end ItemMapper
