import DeviceTrace.Client.Basic
import DeviceTrace.Client.Event

/-!
# The gateway of a session

A gateway is a client together with the journal of all events at the border of the session. No call
of the client fails silently: `ask` reports each failure under the name of the call.
-/

namespace DeviceTrace

structure Gateway where
  client : DeviceClient
  /-- What has happened so far, in order. -/
  journal : List Event := []

namespace Gateway

def emit (g : Gateway) (events : List Event) : Gateway := { g with journal := g.journal ++ events }

def report (g : Gateway) (function : String) (error : TraceError) : Gateway :=
  g.emit [.failure (error.report function)]

/-- The value of a result. An error is reported under the name of the function instead. -/
def check {α : Type} (g : Gateway) (function : String) : Except TraceError α → Option α × Gateway
  | .ok value => (some value, g)
  | .error e => (none, g.report function e)

/-- Calls the client and gives its reply, or reports why there is none. -/
def ask (g : Gateway) (call : ClientCall) : Option call.Reply × Gateway :=
  let (answer, client) := g.client.answer call
  let failure := match answer with
    | .ok _ => none
    | .error e => some e
  ({ g with client }.emit [.call call failure]).check call.function answer

/-- Calls the client for the effect of the call. -/
def tell (g : Gateway) (call : ClientCall) : Gateway := (g.ask call).2

/-- Calls the client and says whether the call succeeded. -/
def attempt (g : Gateway) (call : ClientCall) : Bool × Gateway :=
  let (reply, g) := g.ask call
  (reply.isSome, g)

end Gateway
end DeviceTrace
