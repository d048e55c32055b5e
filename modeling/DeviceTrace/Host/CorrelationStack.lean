import DeviceTrace.Client.Gateway
import DeviceTrace.Host.ApiFunction

/-!
# One worker's part of the correlation stack

The client keeps a stack of correlation ids for each worker. A worker pushes the id of its operation
when it enters an API function and pops it when it leaves. It keeps a list of its own of what it has
pushed, and never pops more than that.
-/

namespace DeviceTrace

/-- The ids that a worker has pushed and not yet popped, the latest first. -/
structure CorrelationStack where
  pushed : List CorrelationId := []
  deriving DecidableEq

namespace CorrelationStack

def depth (s : CorrelationStack) : Nat := s.pushed.length

/-- Pushes an id. One that the client refuses is not kept. -/
def push (s : CorrelationStack) (id : CorrelationId) (g : Gateway) : CorrelationStack × Gateway :=
  let (accepted, g) := g.attempt (.pushCorrelation id)
  (if accepted then ⟨id :: s.pushed⟩ else s, g)

/-- Reports a popped id other than the expected one. -/
def compare (expected : CorrelationId) (popped : UInt64) (g : Gateway) : Gateway :=
  if popped = expected.raw then g
  else
    let function := ClientCall.popCorrelation.function
    g.report function (.client function s!"popped {popped}, expected {expected.raw}")

/-- Drops the latest id and pops one from the client, which should be the expected one. The latest
id is dropped even if the client fails. -/
def pop (s : CorrelationStack) (expected : CorrelationId) (g : Gateway) :
    CorrelationStack × Gateway :=
  match s.pushed with
  | [] => (s, g)
  | _ :: pushed =>
    let (popped, g) := g.ask .popCorrelation
    (⟨pushed⟩, match popped with
      | some popped => compare expected popped g
      | none => g)

/-- Pushes when a call is entered and pops when it is left. Calls without an id, and calls of
functions that the filter does not allow, are passed over. -/
def onCall (s : CorrelationStack) (filter : CallFilter) (site : ApiSite) (function : ApiFunction)
    (id : Option CorrelationId) (g : Gateway) : CorrelationStack × Gateway :=
  match id with
  | none => (s, g)
  | some id =>
    if filter.allows function then
      match site with
      | .enter => s.push id g
      | .exit => s.pop id g
    else (s, g)

end CorrelationStack
end DeviceTrace
