import DeviceTrace.Client.Call

/-!
# The device client

The client is the other party of a session. It may refuse any call, by a policy that sees the call
and how many calls came before it, and a refused call leaves everything as it was. Otherwise it
keeps what a later call can show: the enabled kinds, whether its callbacks deliver, the buffers
that wait for a flush, and the stack of correlation ids.
-/

namespace DeviceTrace

structure DeviceClient where
  /-- The message with which the client refuses a call, none if it accepts. -/
  refuses : Nat → ClientCall → Option String
  calls : Nat := 0
  enabledKinds : EnabledKinds := .empty
  delivering : Bool := false
  queue : List Completion := []
  /-- The correlation ids pushed and not popped, the latest first. -/
  correlation : List UInt64 := []
  timestamp : UInt64 := 0
  dropped : UInt64 := 0

namespace DeviceClient

/-- A client that accepts every call. -/
def willing : DeviceClient := { refuses := fun _ _ => none }

/-- What an accepted call does. -/
def accept (c : DeviceClient) :
    (call : ClientCall) → Except TraceError call.Reply × DeviceClient
  | .enableKind context kind =>
    (.ok (), { c with enabledKinds := c.enabledKinds.set context kind true })
  | .disableKind context kind =>
    (.ok (), { c with enabledKinds := c.enabledKinds.set context kind false })
  | .registerCallbacks enabled => (.ok (), { c with delivering := enabled })
  | .flushAll _ => (.ok c.queue, { c with queue := [] })
  | .pushCorrelation id => (.ok (), { c with correlation := id.raw :: c.correlation })
  | .popCorrelation =>
    match c.correlation with
    | id :: rest => (.ok id, { c with correlation := rest })
    | [] => (.error (.client ClientCall.popCorrelation.function "stack empty"), c)
  | .deviceTimestamp _ => (.ok c.timestamp, c)
  | .droppedRecordCount .. => (.ok c.dropped, c)
  | .subscribe | .unsubscribe | .finalize => (.ok (), c)

def answer (c : DeviceClient) (call : ClientCall) :
    Except TraceError call.Reply × DeviceClient :=
  let counted := { c with calls := c.calls + 1 }
  match c.refuses c.calls call with
  | some message => (.error (.client call.function message), counted)
  | none => counted.accept call

end DeviceClient

end DeviceTrace
